import Fanout.Proofs.Frame.Grammar
import Mathlib.Data.List.Sort

/-!
# One spelling for each frame

The grammar lets fields stand in any order and more than once. A frame is written with each field
that is present once, by increasing byte (`ascending_fields`), and no other bytes with their fields
so ordered spell it (`fields_eq_of_ascending`). So writing a frame that was read gives back the
bytes that were read exactly if these were in order, never more bytes, and always the same bytes for
the same frame (`encode_canonical`).
-/

namespace Fanout.Frame

variable {frame : Frame} {raw body : Bytes} {entries : List (Field × Bytes)}

/-- Whether the byte of the first field is less than that of the second. -/
def Precedes (first second : Field × Bytes) : Prop :=
  first.1.byte < second.1.byte

/-- Fields that stand by strictly increasing byte, so that none is repeated. -/
def Ascending (entries : List (Field × Bytes)) : Prop :=
  entries.Pairwise Precedes

instance : DecidableRel Precedes := fun _ _ => inferInstanceAs (Decidable (_ < _))

instance (entries : List (Field × Bytes)) : Decidable (Ascending entries) :=
  inferInstanceAs (Decidable (entries.Pairwise Precedes))

instance : Std.Irrefl Precedes := ⟨fun entry => UInt8.lt_irrefl entry.1.byte⟩

instance : Std.Antisymm Precedes := ⟨fun _ _ less greater => absurd greater (UInt8.lt_asymm less)⟩

/-- Complete fields have no other bytes than those that are written for them. -/
theorem encodeFields_of_lists (h : Lists body entries) : encodeFields entries = body := by
  induction h with
  | nil => rfl
  | @field field digits value rest entries four number _ ih =>
    have canonical : Bytes.bigEndian 4 value.length = digits := by
      rw [← number, Bytes.bigEndian_ofBigEndian four]
    calc encodeFields ((field, value) :: entries)
        = field.byte :: Bytes.bigEndian 4 value.length ++ value ++ encodeFields entries := rfl
      _ = field.byte :: digits ++ value ++ rest := by rw [canonical, ih]

theorem lists_encodeFields (small : ∀ entry ∈ entries, entry.2.length < Bytes.capacity 4) :
    Lists (encodeFields entries) entries := by
  induction entries with
  | nil => exact .nil
  | cons entry entries ih =>
    obtain ⟨field, value⟩ := entry
    obtain ⟨first, others⟩ := List.forall_mem_cons.1 small
    have number : Bytes.ofBigEndian (Bytes.bigEndian 4 value.length) = value.length := by
      rw [Bytes.ofBigEndian_bigEndian, Nat.mod_eq_of_lt first]
    exact Lists.field field (Bytes.length_bigEndian 4 value.length) number (ih others)

theorem Lists.eq_nil (h : Lists body []) : body = [] := by
  cases h
  rfl

theorem Lists.exists_of_cons {field : Field} {value : Bytes}
    (h : Lists body ((field, value) :: entries)) :
    ∃ digits rest, digits.length = 4 ∧ Bytes.ofBigEndian digits = value.length ∧
      Lists rest entries ∧ body = field.byte :: (digits ++ (value ++ rest)) := by
  cases h with
  | @field _ digits _ rest _ four number lists =>
    exact ⟨digits, rest, four, number, lists, congrArg _ (List.append_assoc digits value rest)⟩

/-- Bytes are complete fields in one way. -/
theorem Lists.unique {others : List (Field × Bytes)} (h : Lists body entries)
    (h' : Lists body others) : entries = others := by
  induction entries generalizing body others with
  | nil =>
    obtain rfl := h.eq_nil
    cases h'
    rfl
  | cons entry entries ih =>
    obtain ⟨digits, rest, four, number, lists, rfl⟩ := h.exists_of_cons
    cases others with
    | nil => cases h'.eq_nil
    | cons other others =>
      obtain ⟨digits', rest', four', number', lists', whole⟩ := h'.exists_of_cons
      obtain ⟨tag, counted⟩ := List.cons.inj whole
      obtain ⟨rfl, values⟩ := List.append_inj counted (four.trans four'.symm)
      obtain ⟨same, rfl⟩ := List.append_inj values (number.symm.trans number')
      have sameField : some entry.1 = some other.1 := by
        rw [← Field.ofByte?_byte, tag, Field.ofByte?_byte]
      rw [ih lists lists', Prod.ext (Option.some.inj sameField) same]

theorem mem_fields {field : Field} {value : Bytes} :
    (field, value) ∈ frame.fields ↔ frame.get? field = some value := by
  simp only [fields, List.mem_filterMap, Option.map_eq_some_iff, Prod.mk.injEq]
  constructor
  · rintro ⟨_, -, _, present, rfl, rfl⟩
    exact present
  · intro present
    exact ⟨field, Field.mem_all field, value, present, rfl, rfl⟩

theorem ascending_fields (frame : Frame) : Ascending frame.fields := by
  have ordered : Field.all.Pairwise fun first second => first.byte < second.byte := by decide
  refine ordered.filterMap _ ?_
  intro first second before entry found entry' found'
  obtain ⟨_, -, rfl⟩ := Option.map_eq_some_iff.1 found
  obtain ⟨_, -, rfl⟩ := Option.map_eq_some_iff.1 found'
  exact before

theorem mem_of_lastValue? {field : Field} {value : Bytes}
    (h : lastValue? entries field = some value) : (field, value) ∈ entries := by
  obtain ⟨entry, last, rfl⟩ := Option.map_eq_some_iff.1 h
  obtain ⟨member, rfl⟩ := by simpa using List.mem_filter.1 (List.mem_of_getLast? last)
  exact member

/-- Where no field is repeated, its only value is its last. -/
theorem lastValue?_eq_some_iff (ascending : Ascending entries) {field : Field} {value : Bytes} :
    lastValue? entries field = some value ↔ (field, value) ∈ entries := by
  refine ⟨mem_of_lastValue?, fun member => ?_⟩
  induction entries with
  | nil => cases member
  | cons entry entries ih =>
    obtain ⟨first, others⟩ := List.pairwise_cons.1 ascending
    rw [← Prod.mk.eta (p := entry), lastValue?_cons]
    obtain rfl | later := List.mem_cons.1 member
    · have unrepeated : lastValue? entries field = none := by
        refine Option.eq_none_iff_forall_ne_some.2 fun value' again => ?_
        have later := first (field, value') (mem_of_lastValue? again)
        exact UInt8.lt_irrefl field.byte later
      rw [unrepeated, if_pos rfl, Option.none_or]
    · rw [ih others later, Option.some_or]

/-- Fields by increasing byte are the fields of the frame that they make. -/
theorem fields_eq_of_ascending (ascending : Ascending entries)
    (values : ∀ field, frame.get? field = lastValue? entries field) : frame.fields = entries := by
  refine List.Pairwise.eq_of_mem_iff (ascending_fields frame) ascending fun entry => ?_
  rw [← Prod.mk.eta (p := entry), mem_fields, values, lastValue?_eq_some_iff ascending]

theorem drop_header {digits : Bytes} (four : digits.length = 4) (tag : UInt8) (body : Bytes) :
    (digits ++ tag :: body).drop 5 = body := by
  have five : (digits ++ [tag]).length = 5 := by
    rw [List.length_append, four, List.length_singleton]
  rw [List.append_cons, List.drop_left' five]

/-- The bytes in which a frame is written list its fields. -/
theorem lists_of_encode {bytes : Bytes} (written : frame.encode = .ok bytes) :
    Lists (bytes.drop 5) frame.fields := by
  have small := size_le_limit_of_encode written
  rw [encode_of_fits frame small, Except.ok.injEq] at written
  rw [← written, drop_header (Bytes.length_bigEndian 4 frame.size)]
  exact lists_encodeFields (length_lt_of_mem_fields small)

/-- Bytes that spell a frame by fields in order are those in which it is written. -/
theorem encode_of_ascending (spelled : Spells raw frame) (lists : Lists (raw.drop 5) entries)
    (ascending : Ascending entries) (small : raw.length ≤ limit) : frame.encode = .ok raw := by
  obtain @⟨_, digits, body, listed, four, complete, number, values⟩ := spelled
  rw [drop_header four] at lists
  obtain rfl := complete.unique lists
  have sameFields := fields_eq_of_ascending ascending values
  have sameBody := encodeFields_of_lists complete
  have sameSize : frame.size = (digits ++ frame.event.byte :: body).length := by
    rw [size, sameFields, ← length_encodeFields, sameBody, List.length_append, four,
      List.length_cons, headerSize]
    omega
  rw [encode_of_fits frame (sameSize ▸ small), sameSize, ← number,
    Bytes.bigEndian_ofBigEndian four, sameFields, sameBody]

/-- A frame that was read from bytes within the limit is written in no more bytes, from which the
same frame is read; they are the bytes that it was read from exactly if the fields in these stand by
strictly increasing byte. So frames that were read are the same exactly if they are written in the
same bytes. -/
theorem encode_canonical (parsed : parse raw = .ok frame) (small : raw.length ≤ limit) :
    ∃ bytes, frame.encode = .ok bytes ∧ bytes.length ≤ raw.length ∧ parse bytes = .ok frame ∧
      (∃ entries, Lists (raw.drop 5) entries) ∧
      (∀ entries, Lists (raw.drop 5) entries → (bytes = raw ↔ Ascending entries)) ∧
      ∀ other second, parse other = .ok second → other.length ≤ limit →
        (second = frame ↔ second.encode = .ok bytes) := by
  have noLarger : frame.size ≤ raw.length := size_le_of_parse parsed
  have written := encode_of_fits frame (noLarger.trans small)
  have readBack := parse_encode written
  have spelled := spells_of_parse parsed
  refine ⟨_, written, (length_encode written).trans_le noLarger, readBack, ?_, ?_, ?_⟩
  · obtain @⟨_, digits, body, entries, four, complete, -, -⟩ := spelled
    exact ⟨entries, by rwa [drop_header four]⟩
  · refine fun entries lists => ⟨?_, fun ascending => ?_⟩
    · intro same
      have canonical := lists_of_encode written
      rw [same] at canonical
      rw [lists.unique canonical]
      exact ascending_fields frame
    · have unchanged := encode_of_ascending spelled lists ascending small
      exact Except.ok.inj (written.symm.trans unchanged)
  · refine fun other second _ _ => ⟨?_, fun written' => ?_⟩
    · rintro rfl
      exact written
    · exact Except.ok.inj ((parse_encode written').symm.trans readBack)

/-- A payload, a topic and another topic. -/
def shuffled : Bytes :=
  [0, 0, 0, 23, 0x10, 2, 0, 0, 0, 1, 98, 1, 0, 0, 0, 1, 97, 1, 0, 0, 0, 1, 99]

/-- The first topic is lost, and the other one moves before the payload. -/
theorem encode_canonical_shuffled :
    parse shuffled = .ok { event := .publish, topic := some [99], payload := some [98] } ∧
      shuffled.length ≤ limit ∧
      ∃ bytes, Frame.encode { event := .publish, topic := some [99], payload := some [98] } =
        .ok bytes ∧ bytes.length ≤ 23 ∧ bytes ≠ shuffled := by
  have parsed : parse shuffled =
      .ok { event := .publish, topic := some [99], payload := some [98] } := by cbv
  have small : shuffled.length ≤ limit := by decide
  obtain ⟨bytes, written, noLonger, -, -, exactly, -⟩ := encode_canonical parsed small
  have lists : Lists (shuffled.drop 5) [(.payload, [98]), (.topic, [97]), (.topic, [99])] := by
    have behind : shuffled.drop 5 =
        encodeFields [(.payload, [98]), (.topic, [97]), (.topic, [99])] := rfl
    rw [behind]
    exact lists_encodeFields (by decide)
  refine ⟨parsed, small, bytes, written, noLonger, fun same => ?_⟩
  exact absurd ((exactly _ lists).1 same) (by decide)

end Fanout.Frame
