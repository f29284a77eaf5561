import Fanout.Hub
import Mathlib.Data.List.Nodup

/-!
# Who is listed after a change

What the list of a topic is after a connection has been put on a topic, taken off one or taken off
all (`on_add`, `on_remove`, `on_removeAll`). Tables that are made in this way have one entry for
each topic, and no connection twice on it (`Proper`).
-/

namespace Fanout

namespace Table

variable {κ β : Type} [DecidableEq κ]

theorem get?_of_not_mem_keys {table : Table κ β} {key : κ} (h : key ∉ table.map Prod.fst) :
    get? table key = none := by
  induction table with
  | nil => rfl
  | cons entry rest ih =>
    obtain ⟨k, value⟩ := entry
    simp only [List.map_cons, List.mem_cons, not_or] at h
    rw [get?, if_neg (Ne.symm h.1)]
    exact ih h.2

theorem mem_of_get? {table : Table κ β} {key : κ} {value : β} (h : get? table key = some value) :
    (key, value) ∈ table := by
  induction table with
  | nil => contradiction
  | cons entry rest ih =>
    obtain ⟨k, old⟩ := entry
    rw [get?] at h
    split_ifs at h with same
    · cases h
      exact same ▸ List.mem_cons_self
    · exact List.mem_cons_of_mem _ (ih h)

theorem mem_keys_set {table : Table κ β} {key other : κ} {value : β}
    (h : other ∈ (set table key value).map Prod.fst) :
    other = key ∨ other ∈ table.map Prod.fst := by
  induction table with
  | nil => simpa [set] using h
  | cons entry rest ih =>
    obtain ⟨k, old⟩ := entry
    by_cases same : k = key
    · simp only [set, same, if_true, List.map_cons, List.mem_cons] at h ⊢
      exact .inr h
    · simp only [set, same, if_false, List.map_cons, List.mem_cons] at h ⊢
      rcases h with rfl | later
      · exact .inr (.inl rfl)
      · rcases ih later with here | there
        · exact .inl here
        · exact .inr (.inr there)

theorem nodup_keys_set {table : Table κ β} (h : (table.map Prod.fst).Nodup) (key : κ) (value : β) :
    ((set table key value).map Prod.fst).Nodup := by
  induction table with
  | nil => simp [set]
  | cons entry rest ih =>
    obtain ⟨k, old⟩ := entry
    rw [List.map_cons, List.nodup_cons] at h
    by_cases same : k = key
    · simp only [set, same, if_true, List.map_cons, List.nodup_cons]
      exact ⟨same ▸ h.1, h.2⟩
    · simp only [set, same, if_false, List.map_cons, List.nodup_cons]
      refine ⟨fun found => ?_, ih h.2⟩
      rcases mem_keys_set found with here | there
      · exact same here
      · exact h.1 there

theorem nodup_keys_erase {table : Table κ β} (h : (table.map Prod.fst).Nodup) (key : κ) :
    ((erase table key).map Prod.fst).Nodup :=
  h.sublist (List.filter_sublist.map _)

end Table

namespace Subscribers

variable {subs : Subscribers}

/-- One entry for each topic, and no connection twice on a topic. -/
structure Proper (subs : Subscribers) : Prop where
  keyed : (subs.map Prod.fst).Nodup
  once : ∀ topic, (subs.on topic).Nodup

theorem on_set (topic other : Bytes) (listed : List ConnectionId) :
    on (Table.set subs topic listed) other = if topic = other then listed else on subs other := by
  rw [on, Table.get?_set]
  split <;> rfl

theorem on_erase (topic other : Bytes) :
    on (Table.erase subs topic) other = if topic = other then [] else on subs other := by
  rw [on, Table.get?_erase]
  split <;> rfl

theorem on_add (topic other : Bytes) (c : ConnectionId) :
    (subs.add topic c).on other =
      if topic = other then if c ∈ subs.on topic then subs.on topic else subs.on topic ++ [c]
      else subs.on other := by
  simp only [add]
  by_cases listed : c ∈ subs.on topic
  · rw [if_pos listed, if_pos listed]
    by_cases same : topic = other
    · rw [if_pos same, same]
    · rw [if_neg same]
  · rw [if_neg listed, if_neg listed, on_set]

theorem on_remove (topic other : Bytes) (c : ConnectionId) :
    (subs.remove topic c).on other =
      if topic = other then (subs.on topic).filter (· ≠ c) else subs.on other := by
  simp only [remove]
  split
  next none_ => rw [on_erase, none_]
  next => rw [on_set]

theorem on_cons (topic other : Bytes) (listed : List ConnectionId) :
    on ((topic, listed) :: subs) other = if topic = other then listed else on subs other := by
  rw [on, Table.get?]
  split <;> rfl

theorem on_foldl_remove (topics : List Bytes) (subs : Subscribers) (c : ConnectionId)
    (topic : Bytes) :
    (topics.foldl (fun subs topic => subs.remove topic c) subs).on topic =
      if topic ∈ topics then (subs.on topic).filter (· ≠ c) else subs.on topic := by
  induction topics generalizing subs with
  | nil => rfl
  | cons first topics ih =>
    rw [List.foldl_cons, ih, on_remove]
    by_cases same : first = topic
    · simp [same]
    · simp [same, Ne.symm same]

theorem mem_topicsWith {topic : Bytes} {c : ConnectionId} (h : c ∈ subs.on topic) :
    topic ∈ subs.topicsWith c := by
  rw [on] at h
  cases found : Table.get? subs topic with
  | none => simp [found] at h
  | some listed =>
    rw [found] at h
    have kept : (topic, listed) ∈ subs.filter fun entry => c ∈ entry.2 :=
      List.mem_filter.2 ⟨Table.mem_of_get? found, decide_eq_true h⟩
    exact List.mem_map_of_mem kept

theorem on_removeAll (subs : Subscribers) (c : ConnectionId) (topic : Bytes) :
    (subs.removeAll c).on topic = (subs.on topic).filter (· ≠ c) := by
  rw [removeAll, on_foldl_remove]
  split_ifs with listed
  · rfl
  · have off : c ∉ subs.on topic := fun on_ => listed (mem_topicsWith on_)
    refine (List.filter_eq_self.2 fun d among => ?_).symm
    exact decide_eq_true fun same => off (same ▸ among)

theorem mem_add {topic other : Bytes} {c d : ConnectionId} :
    d ∈ (subs.add topic c).on other ↔ d ∈ subs.on other ∨ topic = other ∧ d = c := by
  rw [on_add]
  by_cases same : topic = other
  · subst same
    by_cases listed : c ∈ subs.on topic
    · simp only [if_true, listed, true_and]
      exact ⟨.inl, fun h => h.elim id fun same => same ▸ listed⟩
    · simp [listed]
  · simp [same]

theorem mem_remove {topic other : Bytes} {c d : ConnectionId} :
    d ∈ (subs.remove topic c).on other ↔ d ∈ subs.on other ∧ ¬ (topic = other ∧ d = c) := by
  rw [on_remove]
  by_cases same : topic = other
  · subst same
    simp
  · simp [same]

theorem mem_removeAll {topic : Bytes} {c d : ConnectionId} :
    d ∈ (subs.removeAll c).on topic ↔ d ∈ subs.on topic ∧ d ≠ c := by
  rw [on_removeAll]
  simp

theorem proper_nil : Proper [] where
  keyed := List.nodup_nil
  once _ := List.nodup_nil

theorem Proper.add (h : subs.Proper) (topic : Bytes) (c : ConnectionId) :
    (subs.add topic c).Proper where
  keyed := by
    simp only [Subscribers.add]
    split
    · exact h.keyed
    · exact Table.nodup_keys_set h.keyed topic _
  once other := by
    rw [on_add]
    split
    · split
      · exact h.once topic
      next absent =>
        refine List.nodup_append.2 ⟨h.once topic, List.nodup_singleton c, ?_⟩
        intro d before e added same
        rw [List.mem_singleton.1 added] at same
        exact absent (same ▸ before)
    · exact h.once other

theorem Proper.remove (h : subs.Proper) (topic : Bytes) (c : ConnectionId) :
    (subs.remove topic c).Proper where
  keyed := by
    simp only [Subscribers.remove]
    split
    · exact Table.nodup_keys_erase h.keyed topic
    · exact Table.nodup_keys_set h.keyed topic _
  once other := by
    rw [on_remove]
    split
    · exact (h.once topic).filter _
    · exact h.once other

theorem Proper.removeAll (h : subs.Proper) (c : ConnectionId) : (subs.removeAll c).Proper :=
  List.foldlRecOn _ _ h fun _ kept topic _ => kept.remove topic c

end Subscribers

end Fanout
