import Fanout.Frame

/-!
# Frames as bytes

A frame is written as its total length in four bytes, its kind in one, and its fields by increasing
byte; a field is its byte, the length of its value in four bytes, and the value. Reading admits the
fields in any order and repeated, where the last value counts. Main statement: what is written is
read back as the same frame (`parse_encode`).
-/

namespace Fanout.Frame

/-- The largest frame that may be sent, header included. -/
def limit : Nat :=
  10 * 1024 * 1024

/-- The size of a frame's header, and also of a field's. -/
def headerSize : Nat :=
  5

def encodeField (field : Field) (value : Bytes) : Bytes :=
  field.byte :: Bytes.bigEndian 4 value.length ++ value

def encodeFields (fields : List (Field × Bytes)) : Bytes :=
  fields.flatMap fun entry => encodeField entry.1 entry.2

def fieldsSize : List (Field × Bytes) → Nat
  | [] => 0
  | entry :: fields => headerSize + entry.2.length + fieldsSize fields

def size (frame : Frame) : Nat :=
  headerSize + fieldsSize frame.fields

def encode (frame : Frame) : Except Fault Bytes :=
  if limit < frame.size then
    .error (.oversizedFrame frame.size limit)
  else
    .ok (Bytes.bigEndian 4 frame.size ++ frame.event.byte :: encodeFields frame.fields)

/-- Reads fields until the bytes end and sets them on the frame, one after the other. -/
def parseFields (frame : Frame) : Bytes → Except Fault Frame
  | [] => .ok frame
  | tag :: a :: b :: c :: d :: rest =>
    match Field.ofByte? tag with
    | none => .error (.unknownField tag)
    | some field =>
      match _split : Bytes.split? (Bytes.ofBigEndian [a, b, c, d]) rest with
      | none => .error .incompleteField
      | some (value, rest') => parseFields (frame.set field value) rest'
  | _ => .error .truncatedFieldHeader
  termination_by bytes => bytes.length
  decreasing_by
    rw [Bytes.split?_eq] at _split
    split at _split <;> simp at _split
    simp only [List.length_cons, ← _split.2, List.length_drop]
    omega

/-- Reads a complete frame, length prefix included. -/
def parse (raw : Bytes) : Except Fault Frame :=
  match raw with
  | a :: b :: c :: d :: tag :: body =>
    let declared := Bytes.ofBigEndian [a, b, c, d]
    let actual := raw.length
    if declared ≠ actual then
      .error (.lengthMismatch declared actual)
    else
      match Event.ofByte? tag with
      | none => .error (.unknownEvent tag)
      | some event => parseFields { event } body
  | _ => .error .shortFrame

theorem size_le_limit_of_encode {frame : Frame} {bytes : Bytes} (h : frame.encode = .ok bytes) :
    frame.size ≤ limit := by
  unfold encode at h
  split at h
  · simp at h
  · omega

theorem length_encodeFields (fields : List (Field × Bytes)) :
    (encodeFields fields).length = fieldsSize fields := by
  induction fields with
  | nil => rfl
  | cons field fields ih =>
    simp only [encodeFields, encodeField, fieldsSize, headerSize, List.flatMap_cons,
      List.cons_append, List.length_cons, List.length_append, Bytes.length_bigEndian] at ih ⊢
    omega

theorem length_encode {frame : Frame} {bytes : Bytes} (h : frame.encode = .ok bytes) :
    bytes.length = frame.size := by
  unfold encode at h
  split at h
  · simp at h
  · simp only [Except.ok.injEq] at h
    subst h
    simp [length_encodeFields, size, headerSize]
    omega

theorem parseFields_encodeFields (frame : Frame) (fields : List (Field × Bytes))
    (small : ∀ entry ∈ fields, entry.2.length < Bytes.capacity 4) :
    parseFields frame (encodeFields fields) =
      .ok (fields.foldl (fun frame entry => frame.set entry.1 entry.2) frame) := by
  induction fields generalizing frame with
  | nil => simp [encodeFields, parseFields]
  | cons entry fields ih =>
    obtain ⟨field, value⟩ := entry
    have number : Bytes.ofBigEndian (Bytes.bigEndian 4 value.length) = value.length := by
      rw [Bytes.ofBigEndian_bigEndian]
      exact Nat.mod_eq_of_lt (small (field, value) (by simp))
    have shape : encodeFields ((field, value) :: fields) =
        field.byte :: (Bytes.bigEndian 4 value.length ++ (value ++ encodeFields fields)) := by
      simp [encodeFields, encodeField]
    obtain ⟨a, b, c, d, digits⟩ := Bytes.exists_bigEndian_four value.length
    rw [digits] at number
    rw [shape, digits]
    simp only [List.cons_append, List.nil_append, List.foldl_cons]
    rw [parseFields]
    simp only [Field.ofByte?_byte]
    split
    next found => rw [Bytes.split?_append _ number.symm] at found; simp at found
    next found =>
      rw [Bytes.split?_append _ number.symm] at found
      simp only [Option.some.injEq, Prod.mk.injEq] at found
      rw [← found.1, ← found.2]
      exact ih _ fun entry mem => small entry (List.mem_cons_of_mem _ mem)

theorem foldl_set_fields (frame : Frame) :
    frame.fields.foldl (fun frame entry => frame.set entry.1 entry.2) { event := frame.event } =
      frame := by
  obtain ⟨event, topic, payload, origin, errorCode, errorText⟩ := frame
  cases topic <;> cases payload <;> cases origin <;> cases errorCode <;> cases errorText <;> rfl

theorem headerSize_add_length_le_fieldsSize {fields : List (Field × Bytes)} {entry : Field × Bytes}
    (mem : entry ∈ fields) :
    headerSize + entry.2.length ≤ fieldsSize fields := by
  induction fields with
  | nil => simp at mem
  | cons first fields ih =>
    simp only [fieldsSize]
    rcases List.mem_cons.1 mem with rfl | later
    · omega
    · have := ih later
      omega

theorem length_lt_of_mem_fields {frame : Frame} (small : frame.size ≤ limit) :
    ∀ entry ∈ frame.fields, entry.2.length < Bytes.capacity 4 := by
  intro entry mem
  have part := headerSize_add_length_le_fieldsSize mem
  simp only [size, limit] at small
  simp only [Bytes.capacity]
  omega

/-- A length up to the limit fits the four bytes of a length prefix. -/
theorem ofBigEndian_of_le_limit {n : Nat} (small : n ≤ limit) :
    Bytes.ofBigEndian (Bytes.bigEndian 4 n) = n := by
  rw [Bytes.ofBigEndian_bigEndian]
  apply Nat.mod_eq_of_lt
  simp only [limit] at small
  simp only [Bytes.capacity]
  omega

/-- What is written is read back as the same frame. -/
theorem parse_encode {frame : Frame} {bytes : Bytes} (h : frame.encode = .ok bytes) :
    parse bytes = .ok frame := by
  have small := size_le_limit_of_encode h
  have total := length_encode h
  have prefixed := ofBigEndian_of_le_limit small
  unfold encode at h
  rw [if_neg (by omega)] at h
  simp only [Except.ok.injEq] at h
  subst h
  obtain ⟨a, b, c, d, digits⟩ := Bytes.exists_bigEndian_four frame.size
  rw [digits] at prefixed total ⊢
  simp only [List.cons_append, List.nil_append] at total ⊢
  simp only [parse, prefixed, total, ne_eq, not_true_eq_false, if_false, Event.ofByte?_byte]
  rw [parseFields_encodeFields _ _ (length_lt_of_mem_fields small), foldl_set_fields]

end Fanout.Frame
