import Fanout.Notice
import Fanout.Update.Form
import Fanout.Proofs.Json.Forms

/-!
# Batches survive the trip between processes

A process sends a batch of notices as its compact JSON text, and another reads the batch from these
bytes. Texts are always read back. Updates are read back in the form of their kind and in no other,
so a batch survives exactly if all its updates are of the kind it is read as (`batch_survives_iff`).
-/

namespace Fanout

open Json Json.Value

namespace Message

@[simp] theorem plain_toValue (message : Message) : message.toValue.Plain := by
  simp [toValue]

@[simp] theorem ofValue?_toValue (message : Message) :
    ofValue? message.toValue = some message := by
  rw [ofValue?, toValue, record?_ofRecord]
  · simp [List.lookup_cons]
  · rfl
  · decide

end Message

namespace Account

@[simp] theorem plain_toValue (account : Account) : account.toValue.Plain := by
  simp [toValue]

@[simp] theorem ofValue?_toValue (account : Account) :
    ofValue? account.toValue = some account := by
  rw [ofValue?, toValue, record?_ofRecord]
  · simp [List.lookup_cons]
  · rfl
  · decide

end Account

theorem list?_ofInt64 (numbers : List Int64) :
    (ofList ofInt64 numbers).list? int64? = some numbers :=
  list?_ofList fun number _ => int64?_ofInt64 number

theorem plain_numbers (numbers : List Int64) : (ofList ofInt64 numbers).Plain :=
  plain_ofList fun number _ => plain_ofInt64 number

namespace GroupChatChange

@[simp] theorem plain_toValue (change : GroupChatChange) : change.toValue.Plain := by
  simp [toValue, plain_numbers, plain_ofOption]

@[simp] theorem ofValue?_toValue (change : GroupChatChange) :
    ofValue? change.toValue = some change := by
  have text : ∀ text? : Option String, (ofOption ofText text?).option? Value.text? = some text? :=
    option?_ofOption text?_ofText (fun _ same => by cases same)
  have admins : (ofOption (ofList ofInt64) change.adminIds).option? (list? int64?) =
      some change.adminIds :=
    option?_ofOption list?_ofInt64 (fun _ same => by cases same) change.adminIds
  rw [ofValue?, toValue, fields?_ofRecord]
  · simp [List.lookup_cons, list?_ofInt64, text, admins]
  · rfl
  · decide

end GroupChatChange

@[simp] theorem MessageUpdate.ofValue?_toValue (levels : Nat) (update : MessageUpdate) :
    ofValue? levels update.toValue = some update := by
  cases update <;> simp [ofValue?, toValue, greetingTag, unit?, List.lookup_cons]

@[simp] theorem AccountUpdate.ofValue?_toValue (levels : Nat) (update : AccountUpdate) :
    ofValue? levels update.toValue = some update := by
  cases update <;> simp [ofValue?, toValue, greetingTag, unit?, user?, userRecord]

@[simp] theorem ChatUpdate.ofValue?_toValue (levels : Nat) (update : ChatUpdate) :
    ofValue? levels update.toValue = some update := by
  cases update <;> simp [ofValue?, toValue, greetingTag, unit?, List.lookup_cons, list?_ofInt64]

@[simp] theorem MetadataUpdate.ofValue?_toValue (levels : Nat) (update : MetadataUpdate) :
    ofValue? levels update.toValue = some update := by
  cases update <;> simp [ofValue?, toValue, greetingTag, unit?]

@[simp] theorem TypingUpdate.ofValue?_toValue (levels : Nat) (update : TypingUpdate) :
    ofValue? levels update.toValue = some update := by
  cases update <;> simp [ofValue?, toValue, greetingTag, unit?, List.lookup_cons, bool?]

@[simp] theorem OnlineUpdate.ofValue?_toValue (levels : Nat) (update : OnlineUpdate) :
    ofValue? levels update.toValue = some update := by
  have lastOnline : ∀ time : Option UInt64, (ofOption ofUInt64 time).option? uint64? = some time :=
    option?_ofOption uint64?_ofUInt64 (fun _ same => by cases same)
  cases update <;> simp [ofValue?, toValue, greetingTag, unit?, List.lookup_cons, bool?, lastOnline]

namespace Update

theorem plain_toValue (update : Update) : update.toValue.Plain := by
  cases update with
  | message update => cases update <;> simp [toValue, MessageUpdate.toValue]
  | account update =>
    cases update <;> simp [toValue, AccountUpdate.toValue, AccountUpdate.userRecord]
  | chat update => cases update <;> simp [toValue, ChatUpdate.toValue, plain_numbers]
  | metadata update => cases update <;> simp [toValue, MetadataUpdate.toValue]
  | typing update => cases update <;> simp [toValue, TypingUpdate.toValue, Plain.bool]
  | online update =>
    have lastOnline : ∀ time, (ofOption ofUInt64 time).Plain := plain_ofOption plain_ofUInt64
    cases update <;> simp [toValue, OnlineUpdate.toValue, Plain.bool, lastOnline]

theorem ofValue?_toValue (levels : Nat) (update : Update) :
    ofValue? update.kind levels update.toValue = some update := by
  cases update <;> simp [ofValue?, toValue, kind]

/-- An update is written faithfully in the form of its kind. -/
theorem faithful (update : Update) : (form update.kind).Faithful update where
  plain := plain_toValue update
  back levels := ofValue?_toValue levels update

/-- What is read in the form of a kind is of that kind. -/
theorem kind_of_ofValue? {kind : UpdateKind} {levels : Nat} {value : Value} {update : Update}
    (h : (form kind).ofValue? levels value = some update) : update.kind = kind := by
  cases kind <;>
    · obtain ⟨inner, -, rfl⟩ := Option.map_eq_some_iff.1 h
      rfl

end Update

namespace Key

theorem plain_toValue (key : Key) : key.toValue.Plain := by
  cases key <;> simp [toValue]

theorem ofValue?_toValue (key : Key) : ofValue? key.toValue = some key := by
  cases key <;> simp [toValue, ofValue?]

end Key

namespace Notice

variable {α : Type} {updates : Form α}

theorem faithful {notice : Notice α} (h : updates.Faithful notice.update) :
    (form updates).Faithful notice where
  plain := by simp [form, h.plain, Key.plain_toValue]
  back levels := by
    simp only [form]
    rw [record?_ofRecord]
    · simp [List.lookup_cons, h.back, Key.ofValue?_toValue]
    · rfl
    · decide

/-- A batch of faithfully written updates is read back from its bytes. -/
theorem decode?_encode_batch {notices : List (Notice α)}
    (each : ∀ notice ∈ notices, updates.Faithful notice.update) :
    (batch updates).decode? ((batch updates).encode notices) = some notices := by
  apply Form.Faithful.decode?_encode
  apply Form.faithful_list
  intro notice member
  exact faithful (each notice member)

theorem exists_of_mem_mapM {β γ : Type} {read : β → Option γ} {items : List β} {found : List γ}
    (h : items.mapM read = some found) {item : γ} (member : item ∈ found) :
    ∃ source ∈ items, read source = some item := by
  induction items generalizing found with
  | nil => simp_all
  | cons first items ih =>
    simp only [List.mapM_cons, Option.bind_eq_bind, Option.bind_eq_some_iff, Option.pure_def,
      Option.some.injEq] at h
    obtain ⟨head, readFirst, others, readOthers, rfl⟩ := h
    rcases List.mem_cons.1 member with rfl | later
    · exact ⟨first, by simp, readFirst⟩
    · obtain ⟨source, among, reads⟩ := ih readOthers later
      exact ⟨source, List.mem_cons_of_mem _ among, reads⟩

/-- Every update of a batch was read in the form of the batch's updates. -/
theorem exists_ofValue?_of_decode? {bytes : Bytes} {notices : List (Notice α)}
    (h : (batch updates).decode? bytes = some notices) {notice : Notice α}
    (member : notice ∈ notices) :
    ∃ levels value, updates.ofValue? levels value = some notice.update := by
  obtain ⟨value, -, read⟩ := Option.bind_eq_some_iff.1 h
  cases value with
  | array items =>
    obtain ⟨source, -, reads⟩ := exists_of_mem_mapM read member
    simp only [form, Option.bind_eq_bind, Option.bind_eq_some_iff, Option.pure_def,
      Option.some.injEq] at reads
    obtain ⟨fields, -, value, -, update, readUpdate, key, -, key', -, rfl⟩ := reads
    exact ⟨_, value, readUpdate⟩
  | _ => cases read

/-- A batch of texts is always read back from the bytes that are sent for it, and a batch of updates
is read back in the form of a kind exactly if each of its updates is of this kind. -/
theorem batch_survives_iff :
    (∀ texts : List (Notice String),
      (batch .text).decode? ((batch .text).encode texts) = some texts) ∧
    ∀ (kind : UpdateKind) (notices : List (Notice Update)),
      (batch (Update.form kind)).decode? ((batch (Update.form kind)).encode notices) =
          some notices ↔
        ∀ notice ∈ notices, notice.update.kind = kind := by
  constructor
  · intro texts
    exact decode?_encode_batch fun notice _ => Form.faithful_text notice.update
  · intro kind notices
    constructor
    · intro read notice member
      obtain ⟨levels, value, readUpdate⟩ := exists_ofValue?_of_decode? read member
      exact Update.kind_of_ofValue? readUpdate
    · intro kinds
      apply decode?_encode_batch
      intro notice member
      have faithful := notice.update.faithful
      rwa [kinds notice member] at faithful

end Notice

end Fanout
