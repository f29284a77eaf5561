import Fanout.Proofs.Hub.Handling
import Fanout.Proofs.Relay.Subscribers
import Mathlib.Data.Set.Card

/-!
# Who the hub lists

A connection is on a topic if the last operation that concerns the two put it there
(`mem_applyAll`). Besides listing no connection twice, operations leave no topic without a
connection (`Subscribers.Tidy`), so that the length of the table is the number of topics somebody is
on, and taking a connection off its topics one by one strikes it from every entry
(`Subscribers.Tidy.removeAll_eq`). Main statement: all this holds in every run of the hub
(`subscribers_exact`).
-/

namespace Fanout

namespace Table

variable {κ β : Type} [DecidableEq κ]

theorem mem_of_mem_set {table : Table κ β} {key : κ} {value : β} {entry : κ × β}
    (h : entry ∈ set table key value) : entry = (key, value) ∨ entry ∈ table := by
  induction table with
  | nil => exact .inl (List.mem_singleton.1 h)
  | cons first rest ih =>
    obtain ⟨k, old⟩ := first
    by_cases same : k = key
    · simp only [set, same, if_true, List.mem_cons] at h ⊢
      exact h.imp_right .inr
    · simp only [set, same, if_false, List.mem_cons] at h ⊢
      rcases h with here | later
      · exact .inr (.inl here)
      · exact (ih later).imp_right .inr

theorem get?_of_mem {table : Table κ β} (keyed : (table.map Prod.fst).Nodup) {key : κ} {value : β}
    (h : (key, value) ∈ table) : get? table key = some value := by
  induction table with
  | nil => contradiction
  | cons first rest ih =>
    obtain ⟨k, old⟩ := first
    rw [List.map_cons, List.nodup_cons] at keyed
    rcases List.mem_cons.1 h with here | later
    · obtain ⟨rfl, rfl⟩ := Prod.mk.inj here
      exact if_pos rfl
    · have other : k ≠ key := by
        rintro rfl
        exact keyed.1 (List.mem_map.2 ⟨(k, value), later, rfl⟩)
      rw [get?, if_neg other]
      exact ih keyed.2 later

end Table

namespace Subscribers

variable {subs : Subscribers}

/-- One entry for each topic, no connection twice on a topic, and no topic without a connection. -/
structure Tidy (subs : Subscribers) : Prop extends Proper subs where
  filled : [] ∉ subs.map Prod.snd

theorem tidy_nil : Tidy [] where
  toProper := proper_nil
  filled := List.not_mem_nil

theorem filled_set (filled : [] ∉ subs.map Prod.snd) {topic : Bytes} {listed : List ConnectionId}
    (some_ : listed ≠ []) : [] ∉ (Table.set subs topic listed).map Prod.snd := by
  intro none_
  obtain ⟨entry, member, empty⟩ := List.mem_map.1 none_
  rcases Table.mem_of_mem_set member with rfl | old
  · exact some_ empty
  · exact filled (List.mem_map.2 ⟨entry, old, empty⟩)

theorem Tidy.add (h : subs.Tidy) (topic : Bytes) (c : ConnectionId) : (subs.add topic c).Tidy where
  toProper := h.toProper.add topic c
  filled := by
    simp only [Subscribers.add]
    split
    · exact h.filled
    · exact filled_set h.filled (by simp)

theorem Tidy.remove (h : subs.Tidy) (topic : Bytes) (c : ConnectionId) :
    (subs.remove topic c).Tidy where
  toProper := h.toProper.remove topic c
  filled := by
    simp only [Subscribers.remove]
    split
    · intro none_
      obtain ⟨entry, member, empty⟩ := List.mem_map.1 none_
      exact h.filled (List.mem_map.2 ⟨entry, List.mem_of_mem_filter member, empty⟩)
    next left => exact filled_set h.filled left

theorem Tidy.removeAll (h : subs.Tidy) (c : ConnectionId) : (subs.removeAll c).Tidy :=
  List.foldlRecOn _ _ h fun _ kept topic _ => kept.remove topic c

/-- An entry without a connection, or nothing if nobody else is on its topic. -/
def struck (c : ConnectionId) (entry : Bytes × List ConnectionId) :
    Option (Bytes × List ConnectionId) :=
  match entry.2.filter (· ≠ c) with
  | [] => none
  | rest => some (entry.1, rest)

theorem struck_struck (c : ConnectionId) (entry : Bytes × List ConnectionId) :
    (struck c entry).bind (struck c) = struck c entry := by
  rw [struck]
  cases left : entry.2.filter (· ≠ c) with
  | nil => rfl
  | cons first others =>
    have again : (first :: others).filter (· ≠ c) = first :: others := by
      rw [← left, List.filter_filter]
      simp
    simp only [Option.bind_some, struck, again]

theorem remove_cons (named : Bytes) (listed : List ConnectionId) (rest : Subscribers)
    (absent : named ∉ rest.map Prod.fst) (topic : Bytes) (c : ConnectionId) :
    remove ((named, listed) :: rest) topic c =
      if named = topic then (struck c (named, listed)).toList ++ rest
      else (named, listed) :: rest.remove topic c := by
  have others : Table.erase rest named = rest :=
    Table.erase_of_get?_eq_none (Table.get?_of_not_mem_keys absent)
  rw [remove, on_cons]
  split_ifs with same
  · subst same
    rw [struck]
    cases left : listed.filter (· ≠ c) with
    | nil => simpa [Table.erase] using others
    | cons first later => simp [Table.set]
  · rw [remove]
    cases left : (rest.on topic).filter (· ≠ c) with
    | nil => simp [Table.erase, same]
    | cons first later => simp [Table.set, same]

theorem remove_eq (keyed : (subs.map Prod.fst).Nodup) (topic : Bytes) (c : ConnectionId) :
    subs.remove topic c =
      subs.filterMap fun entry => if entry.1 = topic then struck c entry else some entry := by
  induction subs with
  | nil => rfl
  | cons entry rest ih =>
    obtain ⟨named, listed⟩ := entry
    obtain ⟨absent, keyed⟩ := List.nodup_cons.1 keyed
    rw [remove_cons named listed rest absent, List.filterMap_cons]
    by_cases same : named = topic
    · -- No later entry is about the topic.
      have others : (rest.filterMap fun entry =>
          if entry.1 = topic then struck c entry else some entry) = rest := by
        conv_rhs => rw [← List.filterMap_some (l := rest)]
        refine List.filterMap_congr fun entry later => if_neg ?_
        rintro rfl
        exact absent (List.mem_map.2 ⟨entry, later, same.symm⟩)
      simp only [same, if_true] at others ⊢
      rw [others]
      cases struck c (topic, listed) <;> rfl
    · simp only [same, if_false]
      rw [ih keyed]

theorem foldl_remove_eq (h : subs.Proper) (topics : List Bytes) (c : ConnectionId) :
    topics.foldl (fun subs topic => subs.remove topic c) subs =
      subs.filterMap fun entry => if entry.1 ∈ topics then struck c entry else some entry := by
  induction topics generalizing subs with
  | nil => simp
  | cons first topics ih =>
    rw [List.foldl_cons, ih (h.remove first c), remove_eq h.keyed, List.filterMap_filterMap]
    refine List.filterMap_congr fun entry _ => ?_
    by_cases here : entry.1 = first
    · rw [if_pos here, if_pos (here ▸ List.mem_cons_self)]
      cases left : struck c entry with
      | none => rfl
      | some rest =>
        have again : struck c rest = some rest := by simpa [left] using struck_struck c entry
        simp [again]
    · simp [here]

/-- On a tidy table the loop takes the connection out of every entry, and leaves out the entries
that are then without a connection. -/
theorem Tidy.removeAll_eq (h : subs.Tidy) (c : ConnectionId) :
    subs.removeAll c = subs.filterMap (struck c) := by
  rw [Subscribers.removeAll, foldl_remove_eq h.toProper]
  refine List.filterMap_congr fun entry member => ?_
  split_ifs with listed
  · rfl
  · have off : c ∉ entry.2 := fun on_ =>
      listed (List.mem_map_of_mem (List.mem_filter.2 ⟨member, decide_eq_true on_⟩))
    have kept : entry.2.filter (· ≠ c) = entry.2 :=
      List.filter_eq_self.2 fun d among => decide_eq_true fun same => off (same ▸ among)
    have some_ : entry.2 ≠ [] := fun none_ => h.filled (none_ ▸ List.mem_map_of_mem member)
    obtain ⟨topic, listed⟩ := entry
    rw [struck, kept]
    split
    · contradiction
    · rfl

theorem Tidy.mem_keys_iff (h : subs.Tidy) {topic : Bytes} :
    topic ∈ subs.map Prod.fst ↔ ∃ c, c ∈ subs.on topic := by
  constructor
  · intro key
    obtain ⟨⟨named, listed⟩, member, rfl⟩ := List.mem_map.1 key
    have found : subs.on named = listed := by
      rw [on, Table.get?_of_mem h.keyed member]
      rfl
    rw [found]
    apply List.exists_mem_of_ne_nil
    rintro rfl
    exact h.filled (List.mem_map.2 ⟨(named, []), member, rfl⟩)
  · rintro ⟨c, listed⟩
    unfold on at listed
    cases found : Table.get? subs topic with
    | none => simp [found] at listed
    | some value => exact List.mem_map_of_mem (Table.mem_of_get? found)

/-- The length of a tidy table is the number of topics that somebody is on. -/
theorem Tidy.length_eq (h : subs.Tidy) :
    subs.length = { topic | ∃ c, c ∈ subs.on topic }.ncard := by
  have keys : { topic | ∃ c, c ∈ subs.on topic } = ((subs.map Prod.fst).toFinset : Set Bytes) := by
    ext topic
    rw [Finset.mem_coe, List.mem_toFinset, h.mem_keys_iff]
    rfl
  rw [keys, Set.ncard_coe_finset, List.toFinset_card_of_nodup h.keyed, List.length_map]

namespace Operation

/-- What an operation says about whether a connection is on a topic, if it says anything. -/
def listing? (topic : Bytes) (c : ConnectionId) : Operation → Option Bool
  | add named d => if named = topic ∧ d = c then some true else none
  | remove named d => if named = topic ∧ d = c then some false else none
  | removeAll d => if d = c then some false else none

end Operation

theorem Tidy.apply (h : subs.Tidy) (operation : Operation) : (subs.apply operation).Tidy := by
  cases operation with
  | add topic c => exact h.add topic c
  | remove topic c => exact h.remove topic c
  | removeAll c => exact h.removeAll c

theorem mem_apply (operation : Operation) {topic : Bytes} {c : ConnectionId} :
    c ∈ (subs.apply operation).on topic ↔
      (operation.listing? topic c).getD (decide (c ∈ subs.on topic)) = true := by
  cases operation with
  | add named d =>
    rw [apply, mem_add, Operation.listing?]
    by_cases concerned : named = topic ∧ d = c
    · simp [concerned]
    · have other : ¬ (named = topic ∧ c = d) := fun both => concerned ⟨both.1, both.2.symm⟩
      simp [concerned, other]
  | remove named d =>
    rw [apply, mem_remove, Operation.listing?]
    by_cases concerned : named = topic ∧ d = c
    · simp [concerned]
    · have other : ¬ (named = topic ∧ c = d) := fun both => concerned ⟨both.1, both.2.symm⟩
      simp [concerned, other]
  | removeAll d =>
    rw [apply, mem_removeAll, Operation.listing?]
    by_cases same : d = c
    · simp [same]
    · simp [same, Ne.symm same]

end Subscribers

/-- What the last of the events that say something says. -/
def lastTold {ε : Type} (tells : ε → Option Bool) (events : List ε) : Option Bool :=
  (events.filterMap tells).getLast?

theorem lastTold_concat {ε : Type} (tells : ε → Option Bool) (events : List ε) (event : ε) :
    lastTold tells (events ++ [event]) = (tells event).or (lastTold tells events) := by
  rw [lastTold, List.filterMap_append, List.getLast?_append, lastTold]
  cases told : tells event <;> simp [told]

namespace Subscribers

variable {subs : Subscribers}

theorem applyAll_concat (subs : Subscribers) (operations : List Operation) (operation : Operation) :
    subs.applyAll (operations ++ [operation]) = (subs.applyAll operations).apply operation :=
  List.foldl_append

theorem Tidy.applyAll (h : subs.Tidy) (operations : List Operation) :
    (subs.applyAll operations).Tidy := by
  induction operations using List.reverseRecOn with
  | nil => exact h
  | append_singleton operations operation ih =>
    rw [applyAll_concat]
    exact ih.apply operation

/-- Whether a connection is on a topic is what the last operation that concerns the two says. -/
theorem mem_applyAll (operations : List Operation) {topic : Bytes} {c : ConnectionId} :
    c ∈ (applyAll [] operations).on topic ↔
      lastTold (Operation.listing? topic c) operations = some true := by
  induction operations using List.reverseRecOn with
  | nil => simp [applyAll, on, lastTold]
  | append_singleton operations operation ih =>
    rw [applyAll_concat, mem_apply, lastTold_concat]
    cases operation.listing? topic c with
    | none => simp [ih]
    | some told => simp

end Subscribers

namespace Hub

theorem tidy_run (steps : List Step) : (run {} steps).1.subscribers.Tidy := by
  rw [subscribers_run]
  exact Subscribers.tidy_nil.applyAll (operations steps)

/-- In every run, the connections that are listed for a topic are, each once, exactly those for
which the last operation that concerns the topic and the connection put it there. No topic is kept
without a connection, so that the length of the table is the number of topics with at least one. To
take a connection off all topics leaves all others where they are. -/
theorem subscribers_exact (steps : List Step) :
    let subscribers := (run {} steps).1.subscribers
    (∀ topic c, c ∈ subscribers.on topic ↔
        lastTold (Subscribers.Operation.listing? topic c) (operations steps) = some true) ∧
      (∀ topic, (subscribers.on topic).Nodup) ∧
      [] ∉ subscribers.map Prod.snd ∧
      subscribers.length =
        { topic | ∃ c, lastTold (Subscribers.Operation.listing? topic c) (operations steps) =
          some true }.ncard ∧
      ∀ topic c d, d ∈ (subscribers.removeAll c).on topic ↔ d ∈ subscribers.on topic ∧ d ≠ c := by
  have tidy := tidy_run steps
  have listed : ∀ topic c, c ∈ (run {} steps).1.subscribers.on topic ↔
      lastTold (Subscribers.Operation.listing? topic c) (operations steps) = some true := by
    intro topic c
    rw [subscribers_run]
    exact Subscribers.mem_applyAll (operations steps)
  refine ⟨listed, tidy.once, tidy.filled, ?_, fun topic c d => ?_⟩
  · simp only [tidy.length_eq, listed]
  · exact Subscribers.mem_removeAll

end Hub

end Fanout
