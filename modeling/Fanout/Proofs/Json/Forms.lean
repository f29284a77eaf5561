import Fanout.Json.Record
import Fanout.Proofs.Json.Scanning

/-!
# Data is read back from its JSON

Numbers, texts, lists, records and alternatives are read back from the values that they are written
as, and these values are plain. A form is faithful to the data for which both holds; such data is
read back from its bytes (`Form.Faithful.decode?_encode`).
-/

namespace Fanout.Json

namespace Value

@[simp] theorem text?_ofText (text : String) : (ofText text).text? = some text :=
  Quoted.text?_ofText text

@[simp] theorem name?_ofText (text : String) : (ofText text).name? = some text :=
  Quoted.text?_ofText text

@[simp] theorem int64?_ofInt64 (n : Int64) : (ofInt64 n).int64? = some n := by
  have least : -0x8000000000000000 ≤ n.toInt := n.minValue_le_toInt
  have greatest : n.toInt ≤ 0x7FFFFFFFFFFFFFFF := n.toInt_le
  have fits : n.toInt.natAbs < UInt64.size := by
    simp only [UInt64.size]
    omega
  simp only [int64?, ofInt64, int?, Number.toInt?_ofInt fits]
  rw [if_pos ⟨least, greatest⟩, Int64.ofInt_toInt]

@[simp] theorem uint64?_ofUInt64 (n : UInt64) : (ofUInt64 n).uint64? = some n := by
  have small : n.toNat < 0x10000000000000000 := n.toNat_lt
  have fits : (n.toNat : Int).natAbs < UInt64.size := by
    simp only [UInt64.size]
    omega
  simp only [uint64?, ofUInt64, int?, Number.toInt?_ofInt fits]
  rw [if_pos ⟨by omega, by omega⟩, Int.toNat_natCast, UInt64.ofNat_toNat]

theorem mapM_map_eq_some {α β : Type} {write : α → β} {read : β → Option α} {items : List α}
    (back : ∀ item ∈ items, read (write item) = some item) :
    (items.map write).mapM read = some items := by
  induction items with
  | nil => rfl
  | cons item items ih =>
    have first := back item (by simp)
    have others := ih fun item member => back item (List.mem_cons_of_mem _ member)
    rw [List.map_cons, List.mapM_cons, first, others]
    rfl

theorem list?_ofList {α : Type} {write : α → Value} {read : Value → Option α} {items : List α}
    (back : ∀ item ∈ items, read (write item) = some item) :
    (ofList write items).list? read = some items :=
  mapM_map_eq_some back

theorem option?_ofOption {α : Type} {write : α → Value} {read : Value → Option α}
    (back : ∀ item, read (write item) = some item) (present : ∀ item, write item ≠ null)
    (item? : Option α) : (ofOption write item?).option? read = some item? := by
  cases item? with
  | none => rfl
  | some item =>
    have reads : (write item).option? read = (read (write item)).map some := by
      cases shape : write item with
      | null => exact absurd shape (present item)
      | _ => rfl
    rw [ofOption, reads, back]
    rfl

@[simp] theorem members?_ofRecord (fields : List (String × Value)) :
    (ofRecord fields).members? = some fields := by
  apply mapM_map_eq_some
  intro field _
  simp

/-- A record is read back from an object with its fields. -/
@[simp] theorem fields?_ofRecord {names : List String} {fields : List (String × Value)}
    (named : fields.map Prod.fst = names) (distinct : names.Nodup) :
    (ofRecord fields).fields? names = some fields := by
  have known : (fields.filter fun field => names.contains field.1) = fields := by
    rw [List.filter_eq_self]
    intro field member
    have name : field.1 ∈ names := named ▸ List.mem_map_of_mem member
    simpa using name
  rw [fields?, members?_ofRecord]
  simp only [Option.bind_eq_bind, Option.bind_some]
  rw [known, named, if_pos distinct]

@[simp] theorem record?_ofRecord {names : List String} {fields : List (String × Value)}
    (named : fields.map Prod.fst = names) (distinct : names.Nodup) :
    (ofRecord fields).record? names = some fields :=
  fields?_ofRecord named distinct

/-- An alternative is read back from its tag and its data, at any number of levels. -/
@[simp] theorem tagged?_ofTagged (levels : Nat) (tag : String) (data : Option Value) :
    (ofTagged tag data).tagged? levels = some (tag, data) := by
  cases data with
  | none =>
    have members := members?_ofRecord [("type", ofText tag)]
    simp only [ofTagged, ofRecord, List.map_cons, List.map_nil] at members ⊢
    rw [tagged?, members]
    · simp
    · simp
  | some data =>
    have members := members?_ofRecord [("type", ofText tag), ("data", data)]
    simp only [ofTagged, ofRecord, List.map_cons, List.map_nil] at members ⊢
    rw [tagged?, members]
    · simp
    · simp

@[simp] theorem plain_ofText (text : String) : (ofText text).Plain :=
  .text text

@[simp] theorem plain_ofInt64 (n : Int64) : (ofInt64 n).Plain :=
  .integer n.toInt

@[simp] theorem plain_ofUInt64 (n : UInt64) : (ofUInt64 n).Plain :=
  .integer n.toNat

theorem plain_ofList {α : Type} {write : α → Value} {items : List α}
    (each : ∀ item ∈ items, (write item).Plain) : (ofList write items).Plain := by
  apply Plain.array
  intro value member
  obtain ⟨item, among, rfl⟩ := List.mem_map.1 member
  exact each item among

theorem plain_ofOption {α : Type} {write : α → Value} (each : ∀ item, (write item).Plain)
    (item? : Option α) : (ofOption write item?).Plain := by
  cases item? with
  | none => exact .null
  | some item => exact each item

@[simp] theorem plain_ofRecord {fields : List (String × Value)}
    (each : ∀ field ∈ fields, field.2.Plain) : (ofRecord fields).Plain := by
  apply Plain.object
  · intro member among
    obtain ⟨field, -, rfl⟩ := List.mem_map.1 among
    exact ⟨field.1, rfl⟩
  · intro member among
    obtain ⟨field, present, rfl⟩ := List.mem_map.1 among
    exact each field present

@[simp] theorem plain_ofTagged {tag : String} {data : Option Value}
    (plain : ∀ value, data = some value → value.Plain) : (ofTagged tag data).Plain := by
  cases data with
  | none =>
    apply plain_ofRecord
    simp [plain_ofText]
  | some value =>
    apply plain_ofRecord
    simp [plain_ofText, plain value rfl]

end Value

namespace Form

/-- Whether data is written as a plain value and read back from it, at any number of levels. -/
structure Faithful {α : Type} (form : Form α) (data : α) : Prop where
  plain : (form.toValue data).Plain
  back : ∀ levels, form.ofValue? levels (form.toValue data) = some data

/-- Faithfully written data is read back from its bytes. -/
theorem Faithful.decode?_encode {α : Type} {form : Form α} {data : α} (h : form.Faithful data) :
    form.decode? (form.encode data) = some data := by
  rw [decode?, encode, Value.parse?_render h.plain]
  exact h.back levelLimit

theorem faithful_text (content : String) : text.Faithful content where
  plain := Value.plain_ofText content
  back _ := Value.text?_ofText content

theorem faithful_list {α : Type} {form : Form α} {items : List α}
    (each : ∀ item ∈ items, form.Faithful item) : (list form).Faithful items where
  plain := Value.plain_ofList fun item member => (each item member).plain
  back levels := Value.list?_ofList fun item member => (each item member).back (levels - 1)

end Form

end Fanout.Json
