import Fanout.Proofs.Frame.Reading

/-!
# Frames that were read can be written

A frame takes no more bytes than were read for it, however often fields were repeated
(`size_le_of_parse`), so a frame that was read is within the limit whoever sent it
(`fits_of_mem_readAll`). And a frame within the limit is read back by whoever reads the bytes of it
(`readBack_of_fits`).
-/

namespace Fanout.Frame

variable {frame result : Frame} {field : Field} {value bytes : Bytes}

theorem room_set_of_not_mem {kinds : List Field} (absent : field ∉ kinds) :
    (frame.set field value).room kinds = frame.room kinds := by
  induction kinds with
  | nil => rfl
  | cons kind kinds ih =>
    have other : kind ≠ field := fun same => absent (same ▸ List.mem_cons_self)
    simp only [room, get?_set, if_neg other]
    rw [ih fun later => absent (List.mem_cons_of_mem kind later)]

/-- A field that is set takes at most its header and its value. -/
theorem room_set_le {kinds : List Field} (distinct : kinds.Nodup) :
    (frame.set field value).room kinds ≤ frame.room kinds + (5 + value.length) := by
  induction kinds with
  | nil => exact Nat.zero_le _
  | cons kind kinds ih =>
    obtain ⟨absent, distinct⟩ := List.nodup_cons.1 distinct
    by_cases same : kind = field
    · subst same
      have others : (frame.set kind value).room kinds = frame.room kinds :=
        room_set_of_not_mem absent
      simp only [room, get?_set, if_true, others]
      split <;> omega
    · have others := ih distinct
      simp only [room, get?_set, if_neg same]
      split <;> omega

theorem size_set_le (frame : Frame) (field : Field) (value : Bytes) :
    (frame.set field value).size ≤ frame.size + (5 + value.length) := by
  have grows : (frame.set field value).room Field.all ≤
      frame.room Field.all + (5 + value.length) := room_set_le (by decide)
  rw [size_eq, size_eq]
  omega

/-- A frame that has no fields but those of another, with their values, is no larger. -/
theorem size_le_of_part (part : ∀ field, frame.get? field = none ∨
      frame.get? field = result.get? field) : frame.size ≤ result.size := by
  have room_le : ∀ kinds, frame.room kinds ≤ result.room kinds := by
    intro kinds
    induction kinds with
    | nil => exact Nat.le_refl _
    | cons kind kinds ih =>
      simp only [room]
      obtain none_ | same := part kind
      · rw [none_]
        dsimp only
        split <;> omega
      · rw [same]
        split <;> omega
  rw [size_eq, size_eq]
  exact Nat.add_le_add_left (room_le Field.all) 5

/-- Reading fields makes a frame larger by at most the bytes that are read. -/
theorem size_le_of_parseFields (h : parseFields frame bytes = .ok result) :
    result.size ≤ frame.size + bytes.length := by
  fun_induction parseFields frame bytes with
  | case1 frame =>
    rw [Except.ok.inj h, List.length_nil]
    exact Nat.le_refl _
  | case2 => contradiction
  | case3 => contradiction
  | case4 frame tag a b c d rest field found value later split ih =>
    have grown := ih h
    have fieldSize := size_set_le frame field value
    rw [Bytes.split?_eq] at split
    obtain ⟨within, parts⟩ := Option.ite_none_right_eq_some.1 split
    obtain ⟨rfl, rfl⟩ := Prod.mk.inj (Option.some.inj parts)
    rw [List.length_drop] at grown
    rw [List.length_take_of_le within] at fieldSize
    simp only [List.length_cons]
    omega
  | case5 => contradiction

/-- A frame takes no more bytes than were read for it. -/
theorem size_le_of_parse {raw : Bytes} (h : parse raw = .ok frame) : frame.size ≤ raw.length := by
  unfold parse at h
  split at h
  next a b c d tag body =>
    dsimp only at h
    split at h
    · contradiction
    · split at h
      · contradiction
      next event _ =>
        have grown := size_le_of_parseFields h
        have empty : ({ event } : Frame).size = 5 := rfl
        simp only [List.length_cons]
        omega
  next => contradiction

def fits (frame : Frame) : Bool :=
  decide (frame.size ≤ limit)

theorem encode_of_not_fits (h : frame.fits = false) :
    frame.encode = .error (.oversizedFrame frame.size limit) :=
  if_pos (Nat.not_le.1 (of_decide_eq_false h))

theorem fits_of_encode (h : frame.encode = .ok bytes) : frame.fits = true :=
  decide_eq_true (size_le_limit_of_encode h)

theorem fits_of_reads {ending : Ending} {n : Nat} (h : Reads ending bytes (.frame frame) n) :
    frame.fits = true := by
  cases h with
  | frame _ announced enough parsed =>
    have small := size_le_of_parse parsed
    rw [List.length_take_of_le enough] at small
    exact decide_eq_true (Nat.le_trans small announced.most)

theorem fits_of_readsAll {ending : Ending} {frames : List Frame} {outcome : Read} {n : Nat}
    (h : ReadsAll ending bytes frames outcome n) : ∀ frame ∈ frames, frame.fits = true := by
  induction h with
  | stop => simp
  | next reads _ ih =>
    rw [List.forall_mem_cons]
    exact ⟨fits_of_reads reads, ih⟩

/-- Whatever bytes a peer sends, a frame that is read from them fits. -/
theorem fits_of_mem_readAll {input : ByteStream} (member : frame ∈ (readAll input).1) :
    frame.fits = true := by
  obtain ⟨frames, outcome, rest, taken, all, readsAll, -⟩ := exists_readsAll input
  rw [all] at member
  exact fits_of_readsAll readsAll frame member

/-- The frame has bytes, and whoever reads these gets the frame back, in whatever chunks they arrive
and whatever follows. -/
def ReadBack (frame : Frame) : Prop :=
  ∃ bytes, frame.encode = .ok bytes ∧
    ∀ (input : ByteStream) (later : Bytes), input.bytes = bytes ++ later →
      ∃ rest, read input = (.frame frame, rest) ∧ rest.bytes = later

theorem readBack_of_fits (h : frame.fits = true) : frame.ReadBack := by
  have encoded := encode_of_fits frame (of_decide_eq_true h)
  refine ⟨_, encoded, fun input later whole => ?_⟩
  have reads := reads_encode encoded input.ending later
  obtain ⟨outcome, rest, taken, read, answers⟩ := exists_answers input
  obtain ⟨rfl, rfl⟩ := answers.reads.unique (whole ▸ reads)
  refine ⟨rest, read, ?_⟩
  rw [answers.left, whole, List.drop_left' rfl]

/-- Frames that were written one after the other are read to the end, in whatever chunks their bytes
arrive. -/
theorem readAll_encodings (input : ByteStream) {frames : List Frame} {wires : List Bytes}
    (written : frames.map encode = wires.map .ok) (whole : input.bytes = wires.flatten)
    (closed : input.ending = .closed) :
    ∃ rest, readAll input = (frames, .ended, rest) := by
  obtain ⟨frames', outcome, rest, taken, all, readsAll, -⟩ := exists_readsAll input
  rw [whole, closed] at readsAll
  obtain ⟨rfl, rfl, -⟩ := readsAll.unique (readsAll_encodings written)
  exact ⟨rest, all⟩

end Fanout.Frame
