import Fanout.Proofs.Frame.Sizes

/-!
# Which bytes are a frame

The grammar of frames, said without the reader: a length prefix that tells the number of all bytes,
the byte of a kind of frame, and complete fields up to the end (`Spells`). The reader accepts
exactly what the grammar spells, and of several faults in the same bytes it reports the one that
stands first (`parse_exact`).
-/

namespace Fanout.Frame

variable {frame result : Frame} {raw body : Bytes} {entries : List (Field × Bytes)}

/-- Bytes that are complete fields one after the other, and what these carry. -/
inductive Lists : Bytes → List (Field × Bytes) → Prop
  | nil : Lists [] []
  | field (field : Field) {digits value rest : Bytes} {entries : List (Field × Bytes)} :
    digits.length = 4 → Bytes.ofBigEndian digits = value.length → Lists rest entries →
      Lists (field.byte :: digits ++ value ++ rest) ((field, value) :: entries)

def setEach (frame : Frame) (entries : List (Field × Bytes)) : Frame :=
  entries.foldl (fun frame entry => frame.set entry.1 entry.2) frame

def lastValue? (entries : List (Field × Bytes)) (field : Field) : Option Bytes :=
  (entries.filter fun entry => entry.1 = field).getLast?.map Prod.snd

/-- Bytes that are a frame, whose fields have the last values that the bytes give them. -/
inductive Spells : Bytes → Frame → Prop
  | frame {frame : Frame} {digits body : Bytes} {entries : List (Field × Bytes)} :
    digits.length = 4 → Lists body entries →
      Bytes.ofBigEndian digits = (digits ++ frame.event.byte :: body).length →
        (∀ field, frame.get? field = lastValue? entries field) →
          Spells (digits ++ frame.event.byte :: body) frame

/-- What is wrong with bytes that are no frame: the first of several faults counts. -/
def refusal (raw : Bytes) : FaultCode :=
  if raw.length < 5 then .incompleteMessage
  else if declared raw ≠ raw.length then .malformedTlv
  else if raw[4]?.bind Event.ofByte? = none then .invalidEventType
  else .malformedTlv

theorem setEach_cons (frame : Frame) (first : Field) (value : Bytes) :
    frame.setEach ((first, value) :: entries) = (frame.set first value).setEach entries := rfl

theorem lastValue?_cons (first : Field) (value : Bytes) (field : Field) :
    lastValue? ((first, value) :: entries) field =
      (lastValue? entries field).or (if field = first then some value else none) := by
  by_cases same : first = field
  · subst same
    simp only [lastValue?, decide_true, List.filter_cons_of_pos, List.getLast?_cons, if_true]
    cases (entries.filter fun entry => entry.1 = first).getLast? <;> rfl
  · simp [lastValue?, same, Ne.symm same]

/-- Fields that are set one after the other leave the last value of each. -/
theorem get?_setEach (frame : Frame) (entries : List (Field × Bytes)) (field : Field) :
    (frame.setEach entries).get? field = (lastValue? entries field).or (frame.get? field) := by
  induction entries generalizing frame with
  | nil => rfl
  | cons entry entries ih =>
    obtain ⟨first, value⟩ := entry
    rw [setEach_cons, ih, lastValue?_cons, get?_set]
    by_cases same : field = first <;> simp [same]

theorem event_setEach (frame : Frame) (entries : List (Field × Bytes)) :
    (frame.setEach entries).event = frame.event := by
  induction entries generalizing frame with
  | nil => rfl
  | cons entry entries ih => rw [setEach_cons, ih, event_set]

theorem exists_of_length_four {digits : Bytes} (four : digits.length = 4) :
    ∃ a b c d, digits = [a, b, c, d] := by
  match digits, four with
  | [a, b, c, d], _ => exact ⟨a, b, c, d, rfl⟩

/-- Complete fields are set one after the other. -/
theorem parseFields_of_lists (h : Lists body entries) (frame : Frame) :
    parseFields frame body = .ok (frame.setEach entries) := by
  induction h generalizing frame with
  | nil =>
    rw [parseFields]
    rfl
  | @field field digits value rest entries four number _ ih =>
    obtain ⟨a, b, c, d, rfl⟩ := exists_of_length_four four
    have counted := Bytes.split?_append rest number.symm
    rw [setEach_cons, ← ih, List.append_assoc]
    simp only [List.cons_append, List.nil_append]
    rw [parseFields]
    simp only [Field.ofByte?_byte]
    split
    next none_ =>
      rw [counted] at none_
      cases none_
    next found =>
      rw [counted, Option.some.injEq, Prod.mk.injEq] at found
      rw [← found.1, ← found.2]

/-- Only complete fields are read to the end. -/
theorem exists_lists_of_parseFields (h : parseFields frame body = .ok result) :
    ∃ entries, Lists body entries ∧ result = frame.setEach entries := by
  fun_induction parseFields frame body with
  | case1 frame => exact ⟨[], .nil, (Except.ok.inj h).symm⟩
  | case2 => contradiction
  | case3 => contradiction
  | case4 frame tag a b c d rest field found value later split ih =>
    obtain ⟨entries, lists, eq⟩ := ih h
    rw [Bytes.split?_eq] at split
    obtain ⟨within, parts⟩ := Option.ite_none_right_eq_some.1 split
    obtain ⟨rfl, rfl⟩ := Prod.mk.inj (Option.some.inj parts)
    have four : [a, b, c, d].length = 4 := rfl
    have whole := Lists.field field four (List.length_take_of_le within).symm lists
    rw [Field.byte_of_ofByte? found, List.append_assoc, List.take_append_drop] at whole
    exact ⟨_, whole, eq⟩
  | case5 => contradiction

/-- Whatever is wrong with fields, they are malformed. -/
theorem code?_of_parseFields {fault : Fault} (h : parseFields frame body = .error fault) :
    fault.code? = some .malformedTlv := by
  fun_induction parseFields frame body with
  | case1 => contradiction
  | case2 | case3 | case5 =>
    cases h
    rfl
  | case4 frame tag a b c d rest field found value later split ih => exact ih h

/-- The length prefix and the kind of frame are looked at before the fields are read. -/
theorem parse_eq (digits : Bytes) (four : digits.length = 4) (tag : UInt8) (body : Bytes) :
    parse (digits ++ tag :: body) =
      if Bytes.ofBigEndian digits ≠ (digits ++ tag :: body).length then
        .error (.lengthMismatch (Bytes.ofBigEndian digits) (digits ++ tag :: body).length)
      else
        match Event.ofByte? tag with
        | none => .error (.unknownEvent tag)
        | some event => parseFields { event } body := by
  obtain ⟨a, b, c, d, rfl⟩ := exists_of_length_four four
  rfl

theorem exists_of_five_le (enough : 5 ≤ raw.length) :
    ∃ digits tag body, raw = digits ++ tag :: body ∧ digits.length = 4 := by
  match raw, enough with
  | a :: b :: c :: d :: tag :: body, _ => exact ⟨[a, b, c, d], tag, body, rfl, rfl⟩

theorem parse_of_lt_five (short : raw.length < 5) : parse raw = .error .shortFrame := by
  match raw, short with
  | [], _ | [_], _ | [_, _], _ | [_, _, _], _ | [_, _, _, _], _ => rfl

theorem parse_of_spells (h : Spells raw frame) : parse raw = .ok frame := by
  obtain ⟨four, lists, number, values⟩ := h
  rw [parse_eq _ four, if_neg (not_not_intro number), Event.ofByte?_byte]
  simp only [parseFields_of_lists lists, Except.ok.injEq]
  refine ext_get? ?_ fun field => ?_
  · rw [event_setEach]
  · rw [get?_setEach, values, get?_empty, Option.or_none]

theorem spells_of_parse (h : parse raw = .ok frame) : Spells raw frame := by
  have enough : 5 ≤ raw.length := by
    refine Nat.le_of_not_lt fun short => ?_
    rw [parse_of_lt_five short] at h
    cases h
  obtain ⟨digits, tag, body, rfl, four⟩ := exists_of_five_le enough
  rw [parse_eq digits four] at h
  split at h
  · cases h
  next number =>
    split at h
    · cases h
    next event known =>
      obtain ⟨entries, lists, rfl⟩ := exists_lists_of_parseFields h
      obtain rfl := Event.byte_of_ofByte? known
      have spelled := @Spells.frame (setEach { event } entries) digits body entries four lists
      rw [event_setEach] at spelled
      refine spelled (Decidable.of_not_not number) fun field => ?_
      rw [get?_setEach, get?_empty, Option.or_none]

theorem code?_of_parse {fault : Fault} (h : parse raw = .error fault) :
    fault.code? = some (refusal raw) := by
  unfold refusal
  split
  next short =>
    rw [parse_of_lt_five short, Except.error.injEq] at h
    exact h ▸ rfl
  next enough =>
    obtain ⟨digits, tag, body, rfl, four⟩ := exists_of_five_le (Nat.not_lt.1 enough)
    have front : declared (digits ++ tag :: body) = Bytes.ofBigEndian digits := by
      rw [declared, List.take_left' four]
    have fifth : (digits ++ tag :: body)[4]? = some tag := by
      rw [List.getElem?_append_right (Nat.le_of_eq four), four]
      rfl
    rw [parse_eq digits four] at h
    rw [front, fifth, Option.bind_some]
    split
    next mismatch =>
      rw [if_pos mismatch, Except.error.injEq] at h
      exact h ▸ rfl
    next number =>
      rw [if_neg number] at h
      cases known : Event.ofByte? tag with
      | none =>
        rw [known, Except.error.injEq] at h
        exact h ▸ rfl
      | some event =>
        rw [known] at h
        exact code?_of_parseFields h

/-- Bytes are read as a frame exactly if the grammar spells that frame with them. Bytes that spell
no frame are refused: if they are too few for a header as incomplete, else as malformed if their
number is not the one that they declare, else for their kind of frame if it is unknown, and else as
malformed. -/
theorem parse_exact (raw : Bytes) :
    (∀ frame, parse raw = .ok frame ↔ Spells raw frame) ∧
      ((∀ frame, ¬ Spells raw frame) →
        ∃ fault, parse raw = .error fault ∧ fault.code? = some (refusal raw)) := by
  refine ⟨fun frame => ⟨spells_of_parse, parse_of_spells⟩, fun nothing => ?_⟩
  cases result : parse raw with
  | ok frame => exact absurd (spells_of_parse result) (nothing frame)
  | error fault => exact ⟨fault, rfl, code?_of_parse result⟩

end Fanout.Frame
