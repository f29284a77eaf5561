import Fanout.Proofs.Bus.Reach
import Fanout.Switchboard
import Mathlib.Data.List.Nodup

/-!
# A list of subscriptions as a switchboard

What a list of subscriptions says about its two halves: registries list the live subscriptions of
the notifiers that have not been dropped, and every subscription has its stream (`board`). If no
live subscription is closed or belongs to a notifier that was dropped (`Attached`), every channel
whose sender a registry lists has a receiver (`Attached.receives`).
-/

namespace Fanout

variable {α : Type}

/-- Of items with numbers of their own, at most one has a certain number. -/
theorem countP_number {β : Type} {items : List β} {number : β → Nat}
    (distinct : (items.map number).Nodup) (id : Nat) (holds : β → Bool) :
    items.countP (fun item => number item == id && holds item) =
      if items.any fun item => number item == id && holds item then 1 else 0 := by
  cases found : items.any fun item => number item == id && holds item with
  | false =>
    rw [if_neg Bool.false_ne_true, List.countP_eq_zero]
    intro item member
    exact List.any_eq_false.1 found item member
  | true =>
    rw [if_pos rfl]
    apply Nat.le_antisymm
    · calc items.countP (fun item => number item == id && holds item)
        _ ≤ items.countP (fun item => number item == id) :=
          List.countP_mono_left fun item _ both => (Bool.and_eq_true_iff.1 both).1
        _ = (items.map number).count id := by
          rw [List.count, List.countP_map]
          rfl
        _ ≤ 1 := List.nodup_iff_count_le_one.1 distinct id
    · exact List.countP_pos_iff.2 (List.any_eq_true.1 found)

namespace Registry

/-- Removing subscriptions one by one leaves those that are not among them. -/
theorem removeEach_snd (registry : Registry) (ids : List Nat) :
    (registry.removeEach ids).2 = registry.filter (·.id ∉ ids) := by
  induction ids generalizing registry with
  | nil => simp [removeEach]
  | cons id ids ih => simp [removeEach, remove, ih, List.filter_filter, Bool.and_comm]

theorem removeEach_fst {registry : Registry} {ids : List Nat} (distinct : ids.Nodup)
    (listed : ∀ id ∈ ids, registry.lists id = true) :
    (registry.removeEach ids).1 = ids.length := by
  induction ids generalizing registry with
  | nil => rfl
  | cons id ids ih =>
    obtain ⟨fresh, distinct⟩ := List.nodup_cons.1 distinct
    obtain ⟨first, rest⟩ := List.forall_mem_cons.1 listed
    have later : ∀ other ∈ ids, Registry.lists (registry.filter (·.id ≠ id)) other = true := by
      intro other among
      have differs : other ≠ id := fun same => fresh (same ▸ among)
      obtain ⟨entry, member, same⟩ := List.any_eq_true.1 (rest other among)
      obtain rfl : entry.id = other := beq_iff_eq.1 same
      exact List.any_eq_true.2 ⟨entry, List.mem_filter.2 ⟨member, by simpa using differs⟩, same⟩
    have count := ih distinct later
    simp only [removeEach, remove, first, if_true, List.length_cons]
    rw [count]

theorem remove_balance {registry : Registry} (distinct : (registry.map Entry.id).Nodup)
    (id : Nat) :
    (if (registry.remove id).1 then 1 else 0) + (registry.remove id).2.length =
      registry.length := by
  have found : registry.countP (fun entry => entry.id == id) =
      if registry.lists id then 1 else 0 := by
    simpa [lists] using countP_number distinct id fun _ => true
  have kept : (registry.filter (·.id ≠ id)).length =
      registry.countP fun entry => ¬(entry.id == id) = true := by
    rw [← List.countP_eq_length_filter]
    simp
  rw [registry.length_eq_countP_add_countP fun entry => entry.id == id, found, ← kept]
  rfl

/-- Whoever removes which numbers, again and again and in whatever order: as many removals find an
entry as there are entries fewer in the end. -/
theorem removeEach_balance {registry : Registry} (distinct : (registry.map Entry.id).Nodup)
    (ids : List Nat) :
    (registry.removeEach ids).1 + (registry.removeEach ids).2.length = registry.length := by
  induction ids generalizing registry with
  | nil => exact Nat.zero_add _
  | cons id ids ih =>
    have first := remove_balance distinct id
    have left : ((registry.remove id).2.map Entry.id).Nodup :=
      distinct.sublist (List.filter_sublist.map Entry.id)
    have rest := ih left
    simp only [removeEach]
    split at first
    next found =>
      rw [if_pos found]
      omega
    next absent =>
      rw [if_neg absent]
      omega

theorem mem_matching {registry : Registry} (distinct : (registry.map Entry.id).Nodup)
    (condition : Key → Nat → Bool) {entry : Entry} (member : entry ∈ registry) :
    entry.id ∈ registry.matching condition ↔ condition entry.key entry.id = true := by
  simp only [matching, List.mem_map, List.mem_filter]
  constructor
  · rintro ⟨other, ⟨among, holds⟩, same⟩
    rwa [List.inj_on_of_nodup_map distinct among member same] at holds
  · exact fun holds => ⟨entry, ⟨member, holds⟩, rfl⟩

/-- Removing what satisfied a condition leaves what does not satisfy it. -/
theorem removeEach_matching {registry : Registry} (distinct : (registry.map Entry.id).Nodup)
    (condition : Key → Nat → Bool) :
    registry.removeEach (registry.matching condition) =
      (registry.countP fun entry => condition entry.key entry.id,
        registry.filter fun entry => !condition entry.key entry.id) := by
  have among : (registry.matching condition).Sublist (registry.map Entry.id) :=
    List.filter_sublist.map _
  have listed : ∀ id ∈ registry.matching condition, registry.lists id = true := by
    intro id member
    obtain ⟨entry, present, rfl⟩ := List.mem_map.1 (among.subset member)
    exact List.any_eq_true.2 ⟨entry, present, beq_self_eq_true _⟩
  apply Prod.ext
  · rw [removeEach_fst (distinct.sublist among) listed, matching, List.length_map,
      List.countP_eq_length_filter]
  · rw [removeEach_snd]
    apply List.filter_congr
    intro entry member
    by_cases holds : condition entry.key entry.id = true <;>
      simp [mem_matching distinct condition member, holds]

end Registry

namespace Streams

variable {streams : Streams α}

@[simp] theorem receives_push (streams : Streams α) (id other : Nat) (updates : List α) :
    (streams.push id updates).receives other = streams.receives other := by
  simp only [receives, push, List.any_map]
  congr 1
  funext stream
  by_cases same : stream.id = id <;> simp [same]

theorem push_nil (streams : Streams α) (id : Nat) : streams.push id [] = streams := by
  simp [push]

theorem push_push (streams : Streams α) (id : Nat) (first second : List α) :
    (streams.push id first).push id second = streams.push id (first ++ second) := by
  simp only [push, List.map_map]
  apply List.map_congr_left
  intro stream _
  by_cases same : stream.id = id <;> simp [same]

/-- Everything can be sent down a channel that has a receiver. -/
theorem sendEach_of_receives {id : Nat} (open_ : streams.receives id = true) (updates : List α) :
    streams.sendEach id updates = ([], streams.push id updates) := by
  induction updates generalizing streams with
  | nil => rw [sendEach, push_nil]
  | cons update updates ih =>
    have sent : streams.send? id update = some (streams.push id [update]) := if_pos open_
    have later : (streams.push id [update]).receives id = true := by rwa [receives_push]
    simp only [sendEach, sent, ih later, push_push, List.singleton_append]

/-- If every channel has a receiver, delivering puts into each buffer what is addressed to it. -/
theorem deliver_of_receives (batch : List (Notice α)) {registry : Registry}
    (open_ : ∀ entry ∈ registry, streams.receives entry.id = true) :
    Streams.deliver batch streams registry =
      ([], streams.map fun stream =>
        { stream with
          buffer := stream.buffer ++ registry.flatMap fun entry =>
            if entry.id = stream.id then Subscription.addressed batch entry.key else [] }) := by
  induction registry generalizing streams with
  | nil => simp [Streams.deliver]
  | cons entry registry ih =>
    obtain ⟨first, rest⟩ := List.forall_mem_cons.1 open_
    have later : ∀ other ∈ registry, (streams.push entry.id
        (Subscription.addressed batch entry.key)).receives other.id = true := by
      intro other member
      rw [receives_push]
      exact rest other member
    simp only [Streams.deliver, sendEach_of_receives first]
    rw [ih later]
    simp only [List.nil_append, push, List.map_map]
    refine congrArg (Prod.mk []) (List.map_congr_left fun stream _ => ?_)
    by_cases same : stream.id = entry.id
    · simp [same]
    · simp [same, Ne.symm same]

end Streams

def Subscription.stream (sub : Subscription α) : Stream α where
  id := sub.id
  notifier := sub.notifier
  hooked := sub.receiving
  receiving := sub.receiving
  buffer := sub.buffer

/-- A subscription as a registry lists it. -/
def Subscription.entry (sub : Subscription α) : Entry where
  id := sub.id
  key := sub.key

namespace Subscriptions

variable {subs : Subscriptions α} {gone : List Bool}

/-- What the registry of a notifier lists. -/
def entries (subs : Subscriptions α) (n : Nat) : Registry :=
  (subs.filter fun sub => sub.notifier == n && sub.live).map Subscription.entry

/-- What a list of subscriptions says about registries and streams, if it is known which notifiers
were dropped. -/
def board (gone : List Bool) (subs : Subscriptions α) (nextId : Nat) : Switchboard α where
  registries := gone.mapIdx fun n dropped => if dropped then none else some (subs.entries n)
  streams := subs.map Subscription.stream
  nextId := nextId % UInt64.size

/-- Subscriptions with numbers of their own, of which no live one is closed or belongs to a notifier
that was dropped. -/
structure Attached (gone : List Bool) (subs : Subscriptions α) : Prop where
  opens : ∀ sub ∈ subs, sub.IsOpen
  distinct : (subs.map Subscription.id).Nodup
  manned : ∀ sub ∈ subs, sub.live = true → gone[sub.notifier]? = some false

theorem mem_entries {n : Nat} {entry : Entry} :
    entry ∈ subs.entries n ↔
      ∃ sub ∈ subs, sub.notifier = n ∧ sub.live = true ∧ sub.entry = entry := by
  simp [entries, and_assoc]

theorem lists_entries {n id : Nat} :
    (subs.entries n).lists id = true ↔
      ∃ sub ∈ subs, sub.id = id ∧ sub.notifier = n ∧ sub.live = true := by
  simp only [Registry.lists, List.any_eq_true, mem_entries, beq_iff_eq]
  constructor
  · rintro ⟨entry, ⟨sub, member, own, live, rfl⟩, same⟩
    exact ⟨sub, member, same, own, live⟩
  · rintro ⟨sub, member, same, own, live⟩
    exact ⟨sub.entry, ⟨sub, member, own, live, rfl⟩, same⟩

theorem Attached.nodup_entries (h : Attached gone subs) (n : Nat) :
    ((subs.entries n).map Entry.id).Nodup := by
  rw [entries, List.map_map]
  exact h.distinct.sublist (List.filter_sublist.map Subscription.id)

theorem entries_append (first second : Subscriptions α) (n : Nat) :
    entries (first ++ second) n = first.entries n ++ second.entries n := by
  simp [entries]

theorem entries_cons (sub : Subscription α) (subs : Subscriptions α) (n : Nat) :
    entries (sub :: subs) n =
      (if sub.notifier == n && sub.live then [sub.entry] else []) ++ subs.entries n := by
  unfold entries
  rw [List.filter_cons]
  split <;> rfl

/-- Ending subscriptions takes their entries out of the registry. -/
theorem entries_map (ends : Nat → Key → Nat → Bool)
    {change : Subscription α → Subscription α} (entry : ∀ sub, (change sub).entry = sub.entry)
    (notifier : ∀ sub, (change sub).notifier = sub.notifier)
    (live : ∀ sub, (change sub).live = (sub.live && !ends sub.notifier sub.key sub.id))
    (subs : Subscriptions α) (n : Nat) :
    entries (subs.map change) n =
      (subs.entries n).filter fun entry => !ends n entry.key entry.id := by
  simp only [entries, List.filter_map, List.map_map, List.filter_filter]
  have same : Subscription.entry ∘ change = Subscription.entry := funext entry
  rw [same]
  refine congrArg (List.map Subscription.entry) (List.filter_congr fun sub _ => ?_)
  simp only [Function.comp_apply, notifier, live]
  by_cases own : sub.notifier = n
  · simp [own, Bool.and_comm, Subscription.entry]
  · simp [beq_eq_false_iff_ne.2 own]

/-- A change that neither ends nor opens subscriptions leaves registries alone. -/
theorem entries_congr {change : Subscription α → Subscription α}
    (entry : ∀ sub, (change sub).entry = sub.entry)
    (notifier : ∀ sub, (change sub).notifier = sub.notifier)
    (live : ∀ sub, (change sub).live = sub.live) (subs : Subscriptions α) (n : Nat) :
    entries (subs.map change) n = subs.entries n := by
  rw [entries_map (fun _ _ _ => false) entry notifier fun sub => by simp [live]]
  simp

theorem registryAt?_board (gone : List Bool) (subs : Subscriptions α) (nextId n : Nat) :
    (board gone subs nextId).registryAt? n =
      if gone[n]? = some false then some (subs.entries n) else none := by
  simp only [Switchboard.registryAt?, board, List.getElem?_mapIdx]
  cases gone[n]? with
  | none => rfl
  | some dropped => cases dropped <;> rfl

/-- Registries are the same if they list the same, except for one that is changed. -/
theorem modify_registries (gone : List Bool) (change : Registry → Registry)
    {other : Subscriptions α} {n : Nat} (here : change (subs.entries n) = other.entries n)
    (others : ∀ m, m ≠ n → other.entries m = subs.entries m) (nextId : Nat) :
    (board gone subs nextId).registries.modify n (Option.map change) =
      (board gone other nextId).registries := by
  apply List.ext_getElem?
  intro m
  simp only [board, List.getElem?_modify, List.getElem?_mapIdx]
  cases gone[m]? with
  | none => rfl
  | some dropped =>
    by_cases same : n = m
    · subst same
      cases dropped <;> simp [here]
    · cases dropped <;> simp [same, others m (Ne.symm same)]

theorem registries_congr (gone : List Bool) {other : Subscriptions α}
    (same : ∀ n, other.entries n = subs.entries n) (nextId later : Nat) :
    (board gone other later).registries = (board gone subs nextId).registries := by
  simp only [board, same]

/-- A notifier that is not there has no live subscription. -/
theorem Attached.entries_eq_nil (h : Attached gone subs) {n : Nat}
    (absent : gone[n]? ≠ some false) : subs.entries n = [] := by
  rw [entries, List.map_eq_nil_iff, List.filter_eq_nil_iff]
  intro sub member among
  obtain ⟨own, live⟩ := Bool.and_eq_true_iff.1 among
  exact absent (beq_iff_eq.1 own ▸ h.manned sub member live)

theorem Attached.listed_board (h : Attached gone subs) (nextId n : Nat) :
    (board gone subs nextId).listed n = (subs.entries n).map Entry.id := by
  rw [Switchboard.listed, registryAt?_board]
  split
  next => rfl
  next absent => simp [h.entries_eq_nil absent]

theorem Attached.count_board (h : Attached gone subs) (nextId n : Nat) :
    (board gone subs nextId).count n = subs.count n := by
  have length : (board gone subs nextId).count n = ((board gone subs nextId).listed n).length :=
    (List.length_map Entry.id).symm
  rw [length, h.listed_board, List.length_map, entries, List.length_map,
    ← List.countP_eq_length_filter]
  rfl

theorem Attached.mem_listed_board (h : Attached gone subs) {nextId n id : Nat} :
    id ∈ (board gone subs nextId).listed n ↔
      ∃ sub ∈ subs, sub.id = id ∧ sub.notifier = n ∧ sub.live = true := by
  rw [h.listed_board, ← lists_entries, Registry.lists, List.any_eq_true, List.mem_map]
  simp

theorem Attached.eq_of_id (h : Attached gone subs) {first second : Subscription α}
    (memFirst : first ∈ subs) (memSecond : second ∈ subs) (same : first.id = second.id) :
    first = second :=
  List.inj_on_of_nodup_map h.distinct memFirst memSecond same

/-- The notifier of a subscription lists it as long as it is live. -/
theorem Attached.listed_iff_live (h : Attached gone subs) {sub : Subscription α}
    (member : sub ∈ subs) {nextId : Nat} :
    sub.id ∈ (board gone subs nextId).listed sub.notifier ↔ sub.live = true := by
  rw [h.mem_listed_board]
  constructor
  · rintro ⟨other, among, same, -, live⟩
    rwa [h.eq_of_id among member same] at live
  · exact fun live => ⟨sub, member, rfl, rfl, live⟩

/-- A channel whose subscription is live has a receiver. -/
theorem Attached.receives (h : Attached gone subs) {n : Nat} {entry : Entry}
    (listed : entry ∈ subs.entries n) :
    Streams.receives (subs.map Subscription.stream) entry.id = true := by
  obtain ⟨sub, member, -, live, rfl⟩ := mem_entries.1 listed
  refine List.any_eq_true.2 ⟨sub.stream, List.mem_map_of_mem member, ?_⟩
  simp [Subscription.stream, Subscription.entry, h.opens sub member live]

end Subscriptions

end Fanout
