import Fanout.Proofs.Frame.Canonical

/-!
# Frames taken whole and frames off a stream

Bytes can be parsed as one whole frame, or read off a stream that holds just them. Up to the limit
both accept the same bytes as the same frame, and that frame can be written again
(`read_whole_iff`). Above the limit they part: the stream is refused for its length prefix, while
parsing whole does not look at the limit and accepts every frame whose length fits its prefix, which
writing then refuses (`overfull_parsed`).
-/

namespace Fanout.Frame

variable {frame : Frame} {raw : Bytes} {ending : Ending}

/-- The bytes of a frame as they would be written if there were no limit. -/
def spelled (frame : Frame) : Bytes :=
  Bytes.bigEndian 4 frame.size ++ frame.event.byte :: encodeFields frame.fields

theorem encode_eq (frame : Frame) :
    frame.encode =
      if limit < frame.size then .error (.oversizedFrame frame.size limit) else .ok frame.spelled :=
  rfl

theorem length_spelled (frame : Frame) : frame.spelled.length = frame.size := by
  rw [spelled, List.length_append, List.length_cons, length_encodeFields, Bytes.length_bigEndian,
    size, headerSize]
  omega

/-- A frame is parsed from its bytes as long as four bytes can tell their number. -/
theorem parse_spelled (room : frame.size < Bytes.capacity 4) : parse frame.spelled = .ok frame := by
  have number : Bytes.ofBigEndian (Bytes.bigEndian 4 frame.size) = frame.spelled.length := by
    rw [length_spelled, Bytes.ofBigEndian_bigEndian, Nat.mod_eq_of_lt room]
  have values : ∀ entry ∈ frame.fields, entry.2.length < Bytes.capacity 4 := by
    intro entry member
    have part := headerSize_add_length_le_fieldsSize member
    rw [size] at room
    omega
  rw [spelled] at number ⊢
  rw [parse_eq _ (Bytes.length_bigEndian 4 frame.size), if_neg (not_not_intro number),
    Event.ofByte?_byte]
  simp only [parseFields_encodeFields _ _ values, foldl_set_fields]

/-- A stream is read as a frame and used up only if its bytes are that frame. -/
theorem parse_of_reads (h : Reads ending raw (.frame frame) raw.length) :
    parse raw = .ok frame ∧ raw.length ≤ limit := by
  generalize used : raw.length = taken at h
  cases h with
  | frame _ announced enough parsed =>
    rw [← used, List.take_length] at parsed
    exact ⟨parsed, announced.most⟩

/-- Bytes are read off a stream as a frame, with none left, exactly if they are that frame and not
above the limit. -/
theorem reads_whole_iff (ending : Ending) :
    Reads ending raw (.frame frame) raw.length ↔ parse raw = .ok frame ∧ raw.length ≤ limit := by
  refine ⟨parse_of_reads, fun ⟨parsed, small⟩ => ?_⟩
  have reads := reads_of_parse parsed small ending []
  rwa [List.append_nil] at reads

theorem reads_of_above_limit (ending : Ending) (parsed : parse raw = .ok frame)
    (large : limit < raw.length) :
    Reads ending raw (.failed (.lengthAboveLimit raw.length)) 4 := by
  obtain ⟨header, length⟩ := declared_of_parse parsed
  have refused : Reads ending raw (.failed (.lengthAboveLimit (declared raw))) 4 :=
    .lengthAboveLimit (by omega) (length ▸ large)
  rwa [length] at refused

theorem exists_encode_iff : (∃ bytes, frame.encode = .ok bytes) ↔ frame.size ≤ limit :=
  ⟨fun ⟨_, written⟩ => size_le_limit_of_encode written, fun small => ⟨_, encode_of_fits _ small⟩⟩

/-- A stream that holds just some bytes is read as a frame and used up exactly if the bytes are
parsed whole as that frame and are not above the limit; and a frame that is read off a stream, or
parsed from bytes within the limit, can be written again. Bytes above the limit that are parsed as a
frame are refused by the stream as too large, with only the length prefix taken. There are such
bytes for every frame above the limit whose length fits the prefix, and it cannot be written. -/
theorem read_whole_iff (chunks : List Bytes) (ending : Ending) (frame : Frame) :
    ((∃ rest, read { chunks, ending } = (.frame frame, rest) ∧ rest.bytes = []) ↔
        parse chunks.flatten = .ok frame ∧ chunks.flatten.length ≤ limit) ∧
      (((∃ rest, read { chunks, ending } = (.frame frame, rest)) ∨
          (parse chunks.flatten = .ok frame ∧ chunks.flatten.length ≤ limit)) →
        ∃ bytes, frame.encode = .ok bytes) ∧
      (parse chunks.flatten = .ok frame → limit < chunks.flatten.length →
        ∃ rest, read { chunks, ending } =
            (.failed (.lengthAboveLimit chunks.flatten.length), rest) ∧
          rest.bytes = chunks.flatten.drop 4) ∧
      (limit < frame.size → frame.size < Bytes.capacity 4 →
        parse frame.spelled = .ok frame ∧ frame.spelled.length = frame.size ∧
          frame.encode = .error (.oversizedFrame frame.size limit)) := by
  obtain ⟨outcome, rest, taken, read, answers⟩ := exists_answers { chunks, ending }
  have told : Reads ending chunks.flatten outcome taken := answers.reads
  have within : taken ≤ chunks.flatten.length := answers.within
  have left : rest.bytes = chunks.flatten.drop taken := answers.left
  refine ⟨?_, ?_, ?_, fun large room =>
    ⟨parse_spelled room, length_spelled frame, (encode_eq frame).trans (if_pos large)⟩⟩
  · rw [← reads_whole_iff ending]
    constructor
    · rintro ⟨rest', read', nothing⟩
      obtain ⟨rfl, rfl⟩ := Prod.mk.inj (read.symm.trans read')
      have used : chunks.flatten.length ≤ taken := List.drop_eq_nil_iff.1 (left.symm.trans nothing)
      rwa [Nat.le_antisymm within used] at told
    · intro reads
      obtain ⟨rfl, rfl⟩ := told.unique reads
      exact ⟨rest, read, by rw [left, List.drop_length]⟩
  · rw [exists_encode_iff]
    rintro (⟨rest', read'⟩ | ⟨parsed, small⟩)
    · obtain ⟨rfl, -⟩ := Prod.mk.inj (read.symm.trans read')
      exact of_decide_eq_true (fits_of_reads told)
    · exact (size_le_of_parse parsed).trans small
  · intro parsed large
    obtain ⟨rfl, rfl⟩ := told.unique (reads_of_above_limit ending parsed large)
    exact ⟨rest, read, left⟩

/-- A publication whose payload takes it one byte above the limit. -/
def overfull : Frame :=
  { event := .publish, payload := some (List.replicate 10485751 0) }

theorem size_of_payload (event : Event) (value : Bytes) :
    ({ event, payload := some value } : Frame).size = 10 + value.length := by
  simp only [size, fields, Field.all, get?, List.filterMap_cons, List.filterMap_nil,
    Option.map_none, Option.map_some, fieldsSize, headerSize]
  omega

theorem size_overfull : overfull.size = limit + 1 := by
  rw [overfull, size_of_payload, List.length_replicate]
  rfl

theorem overfull_fits_prefix : overfull.size < Bytes.capacity 4 := by
  rw [size_overfull]
  decide

/-- A publication in three chunks is read off the stream, and can be written again. The one above
the limit is refused by the stream. -/
theorem read_whole_iff_publication :
    (∃ rest, read { chunks := [[0, 0, 0], [16, 0x10, 1, 0, 0, 0, 1, 97, 2, 0, 0], [0, 0]] } =
        (.frame { event := .publish, topic := some [97], payload := some [] }, rest) ∧
      rest.bytes = []) ∧
    (∃ bytes, ({ event := .publish, topic := some [97], payload := some [] } : Frame).encode =
        .ok bytes) ∧
    parse overfull.spelled = .ok overfull ∧
    ∃ rest, read { chunks := [overfull.spelled] } =
      (.failed (.lengthAboveLimit (limit + 1)), rest) := by
  have parsed : parse [0, 0, 0, 16, 0x10, 1, 0, 0, 0, 1, 97, 2, 0, 0, 0, 0] =
      .ok { event := .publish, topic := some [97], payload := some [] } := by cbv
  obtain ⟨exactly, writable, -, -⟩ := read_whole_iff
    [[0, 0, 0], [16, 0x10, 1, 0, 0, 0, 1, 97, 2, 0, 0], [0, 0]] .closed
    { event := .publish, topic := some [97], payload := some [] }
  obtain ⟨-, -, refused, above⟩ := read_whole_iff [overfull.spelled] .closed overfull
  obtain ⟨parsed', length, -⟩ := above (by rw [size_overfull]; omega) overfull_fits_prefix
  rw [List.flatten_singleton, length, size_overfull] at refused
  obtain ⟨rest, read, -⟩ := refused parsed' (by omega)
  exact ⟨exactly.2 ⟨parsed, by decide⟩, writable (.inr ⟨parsed, by decide⟩), parsed', rest, read⟩

/-- The bytes of a publication one byte above the limit are parsed whole, but neither read off a
stream nor written. -/
theorem overfull_parsed :
    parse overfull.spelled = .ok overfull ∧
      overfull.spelled.length = limit + 1 ∧
      ¬ (parse overfull.spelled = .ok overfull ↔
          ∃ rest, read { chunks := [overfull.spelled] } = (.frame overfull, rest) ∧
            rest.bytes = []) ∧
      ¬ ∃ bytes, overfull.encode = .ok bytes := by
  have parsed := parse_spelled overfull_fits_prefix
  have length : overfull.spelled.length = limit + 1 :=
    (length_spelled overfull).trans size_overfull
  refine ⟨parsed, length, fun same => ?_, fun written => ?_⟩
  · obtain ⟨rest, read, -⟩ := same.1 parsed
    obtain ⟨outcome, rest', taken, read', answers⟩ :=
      exists_answers { chunks := [overfull.spelled] }
    have told : Reads .closed overfull.spelled outcome taken := by
      simpa [ByteStream.bytes] using answers.reads
    obtain ⟨rfl, -⟩ := Prod.mk.inj (read'.symm.trans read)
    have refused := reads_of_above_limit .closed parsed (by omega)
    exact Read.noConfusion (told.unique refused).1
  · have small := exists_encode_iff.1 written
    rw [size_overfull] at small
    omega

end Fanout.Frame
