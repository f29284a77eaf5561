import Fanout.Proofs.Bus.Registries
import Fanout.Proofs.Bus.Streams

/-!
# The two halves of a subscription go together

Whatever is done to a list of subscriptions, and to the switchboard that it is a picture of, leaves
the one the picture of the other, with the same answers and without a mishap: one theorem for each
operation.
-/

namespace Fanout

variable {α : Type}

namespace Subscriptions

variable {subs : Subscriptions α} {gone : List Bool}

theorem attach_board (h : Attached gone subs) (nextId : Nat) :
    (board gone subs nextId).attach = board (gone ++ [false]) subs nextId := by
  have empty : subs.entries gone.length = [] := h.entries_eq_nil (by simp)
  simp [Switchboard.attach, board, List.mapIdx_append, empty]

theorem subscribe_board {nextId n : Nat} (key : Key) (present : gone[n]? = some false)
    (fresh : ∀ sub ∈ subs, sub.id < nextId) (room : nextId < UInt64.size) :
    (board gone subs nextId).subscribe n key =
      ([], board gone (subs ++ [{ id := nextId, notifier := n, key }]) (nextId + 1)) := by
  have number : (board gone subs nextId).nextId = nextId := Nat.mod_eq_of_lt room
  have unlisted : ∀ m, (subs.entries m).lists nextId = false := by
    intro m
    rw [Bool.eq_false_iff]
    intro listed
    obtain ⟨sub, member, same, -⟩ := lists_entries.1 listed
    exact absurd same (Nat.ne_of_lt (fresh sub member))
  have inserted : (subs.entries n).insert { id := nextId, key } =
      entries (subs ++ [{ id := nextId, notifier := n, key }]) n := by
    have kept : (subs.entries n).filter (·.id ≠ nextId) = subs.entries n := by
      rw [List.filter_eq_self]
      intro entry member
      have differs := List.any_eq_false.1 (unlisted n) entry member
      simpa using differs
    rw [Registry.insert, kept, entries_append]
    simp [entries, Subscription.entry]
  have others : ∀ m, m ≠ n →
      entries (subs ++ [{ id := nextId, notifier := n, key }]) m = subs.entries m := by
    intro m differs
    rw [entries_append]
    simp [entries, Ne.symm differs]
  have moved := modify_registries gone (·.insert { id := nextId, key }) inserted others nextId
  rw [Switchboard.subscribe, registryAt?_board, if_pos present]
  simp only [number, unlisted, Bool.false_eq_true, if_false, Switchboard.modifyRegistry, moved]
  simp [board, Subscription.stream]

/-- Ending what satisfies a condition takes it off one registry. -/
theorem entries_remove (subs : Subscriptions α) (n : Nat) (condition : Key → Nat → Bool)
    (m : Nat) :
    entries (subs.remove n condition).2 m =
      (subs.entries m).filter fun entry => !(n == m && condition entry.key entry.id) := by
  rw [World.remove_snd]
  apply entries_map (fun m key id => n == m && condition key id) <;> exact fun _ => rfl

theorem streams_remove (subs : Subscriptions α) (n : Nat) (condition : Key → Nat → Bool) :
    (subs.remove n condition).2.map Subscription.stream = subs.map Subscription.stream := by
  rw [World.remove_snd, List.map_map]
  rfl

theorem unsubscribe_board (h : Attached gone subs) (nextId n : Nat)
    (condition : Key → Nat → Bool) :
    (board gone subs nextId).unsubscribe n condition =
      ((subs.remove n condition).1, board gone (subs.remove n condition).2 nextId) := by
  have count : (subs.entries n).countP (fun entry => condition entry.key entry.id) =
      (subs.remove n condition).1 := by
    simp only [entries, remove, List.countP_map, List.countP_filter]
    apply List.countP_congr
    intro sub _
    simp [matched, Subscription.entry, and_comm]
  have others : ∀ m, m ≠ n →
      entries (subs.remove n condition).2 m = subs.entries m := by
    intro m differs
    rw [entries_remove]
    simp [Ne.symm differs]
  have streams := streams_remove subs n condition
  rw [Switchboard.unsubscribe, registryAt?_board]
  by_cases present : gone[n]? = some false
  · have here : (subs.entries n).filter (fun entry => !condition entry.key entry.id) =
        entries (subs.remove n condition).2 n := by
      simp [entries_remove]
    have moved := modify_registries gone (fun _ => entries (subs.remove n condition).2 n) rfl
      others nextId
    rw [if_pos present]
    simp only [Registry.removeEach_matching (h.nodup_entries n), count, here,
      Switchboard.modifyRegistry, moved]
    simp [board, streams]
  · -- The notifier was dropped, so there is nothing left to end.
    have empty := h.entries_eq_nil present
    have same : ∀ m, entries (subs.remove n condition).2 m = subs.entries m := by
      intro m
      by_cases differs : m = n
      · simp [differs, entries_remove, empty]
      · exact others m differs
    rw [if_neg present, ← count, empty]
    simp [board, streams, same]

theorem entries_deliver (subs : Subscriptions α) (n : Nat) (batch : List (Notice α)) (m : Nat) :
    entries (subs.deliver n batch) m = subs.entries m := by
  rw [deliver_eq]
  apply entries_congr <;> exact fun _ => rfl

/-- A registry has at most one entry for a subscription. -/
theorem flatMap_entries {β : Type} (distinct : (subs.map Subscription.id).Nodup)
    {sub : Subscription α} (member : sub ∈ subs) (n : Nat) (f : Key → List β) :
    ((subs.entries n).flatMap fun entry => if entry.id = sub.id then f entry.key else []) =
      if (sub.notifier == n && sub.live) = true then f sub.key else [] := by
  induction subs with
  | nil => cases member
  | cons first rest ih =>
    obtain ⟨fresh, distinct⟩ := List.nodup_cons.1 distinct
    rw [entries_cons, List.flatMap_append]
    rcases List.mem_cons.1 member with rfl | among
    · have others : ((entries rest n).flatMap fun entry =>
          if entry.id = sub.id then f entry.key else []) = [] := by
        rw [List.flatMap_eq_nil_iff]
        intro entry listed
        obtain ⟨other, among, -, -, rfl⟩ := mem_entries.1 listed
        have differs : other.id ≠ sub.id := fun same => fresh (same ▸ List.mem_map_of_mem among)
        exact if_neg differs
      rw [others, List.append_nil]
      split <;> simp [Subscription.entry]
    · have differs : first.id ≠ sub.id := fun same => fresh (same ▸ List.mem_map_of_mem among)
      rw [ih distinct among]
      split <;> simp [Subscription.entry, differs]

theorem deliver_board (h : Attached gone subs) (nextId n : Nat) (batch : List (Notice α)) :
    (board gone subs nextId).deliver n batch = ([], board gone (subs.deliver n batch) nextId) := by
  have same := entries_deliver subs n batch
  have streams : (subs.deliver n batch).map Subscription.stream =
      (subs.map Subscription.stream).map fun stream =>
        { stream with
          buffer := stream.buffer ++ (subs.entries n).flatMap fun entry =>
            if entry.id = stream.id then Subscription.addressed batch entry.key else [] } := by
    rw [deliver_eq, List.map_map, List.map_map]
    apply List.map_congr_left
    intro sub member
    have arrived := flatMap_entries h.distinct member n (Subscription.addressed batch)
    rw [← Subscription.reachable_eq (h.opens sub member)] at arrived
    exact congrArg (fun updates => { sub.stream with buffer := sub.buffer ++ updates })
      arrived.symm
  rw [Switchboard.deliver, registryAt?_board]
  by_cases present : gone[n]? = some false
  · have delivered := Streams.deliver_of_receives batch
      fun entry (listed : entry ∈ subs.entries n) => h.receives listed
    rw [if_pos present]
    simp only [board, delivered, streams, same]
  · have empty := h.entries_eq_nil present
    rw [if_neg present]
    simp [board, streams, same, empty]

theorem deliverTo_board (h : Attached gone subs) (nextId n id : Nat) (update : α) :
    (board gone subs nextId).deliverTo n id update =
      match subs.deliverTo? n id update with
      | some after => (true, [], board gone after nextId)
      | none => (false, [], board gone subs nextId) := by
  have found : (subs.entries n).lists id =
      subs.any fun sub => sub.id == id && sub.reachable n := by
    rw [Bool.eq_iff_iff, lists_entries, List.any_eq_true]
    apply exists_congr
    intro sub
    apply and_congr_right
    intro member
    simp [Subscription.reachable_eq (h.opens sub member)]
  rw [Switchboard.deliverTo, registryAt?_board, deliverTo?, ← found]
  by_cases present : gone[n]? = some false
  · rw [if_pos present]
    cases listed : (subs.entries n).lists id with
    | false => simp [listed]
    | true =>
      obtain ⟨sub, member, rfl, own, live⟩ := lists_entries.1 listed
      have among : sub.entry ∈ subs.entries n := mem_entries.2 ⟨sub, member, own, live, rfl⟩
      have open_ : Streams.receives (subs.map Subscription.stream) sub.id = true :=
        h.receives among
      let sent (other : Subscription α) : Subscription α :=
        if other.id = sub.id ∧ other.reachable n then other.push [update] else other
      have same : ∀ m, entries (subs.map sent) m = subs.entries m := by
        apply entries_congr
        all_goals
          intro other
          by_cases hit : other.id = sub.id ∧ other.reachable n = true <;>
            simp [sent, hit, Subscription.push, Subscription.entry]
      have pushed : (subs.map sent).map Subscription.stream =
          Streams.push (subs.map Subscription.stream) sub.id [update] := by
        rw [Streams.push, List.map_map, List.map_map]
        apply List.map_congr_left
        intro other among
        by_cases hit : other.id = sub.id
        · obtain rfl := h.eq_of_id among member hit
          simp [sent, Subscription.reachable_eq (h.opens other member), own, live,
            Subscription.push, Subscription.stream]
        · simp [sent, hit, Subscription.stream]
      simp [listed, board, Streams.send?, open_, same, pushed, sent]
  · rw [if_neg present, h.entries_eq_nil present]
    rfl

theorem find?_board (gone : List Bool) (subs : Subscriptions α) (nextId id : Nat) :
    (board gone subs nextId).streams.find? (·.id == id) =
      (subs.get? id).map Subscription.stream := by
  rw [board, List.find?_map]
  rfl

theorem modify_of_get?_eq_none {id : Nat} (absent : subs.get? id = none)
    (change : Subscription α → Subscription α) : subs.modify id change = subs := by
  refine (List.map_congr_left fun sub member => ?_).trans (List.map_id' subs)
  have differs : sub.id ≠ id := by simpa using List.find?_eq_none.1 absent sub member
  exact if_neg differs

/-- What is not live under its notifier is not listed there. -/
theorem filter_entries {id n : Nat}
    (spared : ∀ sub ∈ subs, sub.id = id → sub.notifier = n → sub.live = false) :
    (subs.entries n).filter (·.id ≠ id) = subs.entries n := by
  rw [List.filter_eq_self]
  intro entry listed
  obtain ⟨sub, member, own, live, rfl⟩ := mem_entries.1 listed
  simp only [ne_eq, decide_eq_true_eq]
  intro same
  rw [spared sub member same own] at live
  cases live

/-- Only the registry of its own notifier lists a subscription, and only while it is live. -/
theorem Attached.filter_entries (h : Attached gone subs) {sub : Subscription α}
    (member : sub ∈ subs) {n : Nat} (spared : sub.notifier = n → sub.live = false) :
    (subs.entries n).filter (·.id ≠ sub.id) = subs.entries n := by
  apply Subscriptions.filter_entries
  intro other among same own
  obtain rfl := h.eq_of_id among member same
  exact spared own

/-- The close hook takes a subscription off the only registry that may list it. -/
theorem Attached.runHook (h : Attached gone subs) {sub : Subscription α} (member : sub ∈ subs)
    {other : Subscriptions α}
    (removed : ∀ n, other.entries n = (subs.entries n).filter (·.id ≠ sub.id)) (nextId : Nat) :
    ((board gone subs nextId).runHook sub.stream).registries =
        (board gone other nextId).registries ∧
      ((board gone subs nextId).runHook sub.stream).nextId = nextId % UInt64.size := by
  unfold Switchboard.runHook
  split
  next hooked =>
    refine ⟨modify_registries gone _ (removed sub.notifier).symm (fun n differs => ?_) nextId, rfl⟩
    rw [removed, h.filter_entries member fun own => absurd own.symm differs]
  next closed =>
    have dead : sub.live = false := by
      rw [Bool.eq_false_iff]
      exact fun live => closed (h.opens sub member live)
    refine ⟨(registries_congr gone (fun n => ?_) nextId nextId).symm, rfl⟩
    rw [removed, h.filter_entries member fun _ => dead]

theorem entries_close (subs : Subscriptions α) (id n : Nat) :
    entries (subs.close id) n = (subs.entries n).filter (·.id ≠ id) := by
  rw [close, modify, entries_map fun _ _ other => decide (other = id)]
  · simp
  all_goals
    intro sub
    by_cases hit : sub.id = id <;> simp [hit, Subscription.cut, Subscription.entry]

theorem streams_close (subs : Subscriptions α) (id : Nat) :
    (subs.close id).map Subscription.stream =
      (subs.map Subscription.stream).map fun stream =>
        if stream.id = id then { stream with hooked := false, receiving := false } else stream := by
  rw [close, modify, List.map_map, List.map_map]
  apply List.map_congr_left
  intro sub _
  by_cases hit : sub.id = id <;> simp [hit, Subscription.cut, Subscription.stream]

theorem entries_drop (subs : Subscriptions α) (id n : Nat) :
    entries (subs.drop id) n = (subs.entries n).filter (·.id ≠ id) := by
  simp only [entries, drop, List.filter_map, List.filter_filter, Bool.and_comm]
  rfl

theorem streams_drop (subs : Subscriptions α) (id : Nat) :
    (subs.drop id).map Subscription.stream = (subs.map Subscription.stream).filter (·.id ≠ id) := by
  rw [drop, List.filter_map]
  rfl

theorem close_board (h : Attached gone subs) (nextId id : Nat) :
    (board gone subs nextId).close id = board gone (subs.close id) nextId := by
  rw [Switchboard.close, find?_board]
  cases found : subs.get? id with
  | none =>
    rw [close, modify_of_get?_eq_none found]
    rfl
  | some sub =>
    obtain rfl : sub.id = id := by simpa using List.find?_some found
    obtain ⟨registries, number⟩ := h.runHook (List.mem_of_find?_eq_some found)
      (entries_close subs sub.id) nextId
    simp only [Option.map_some, registries, number]
    simp only [board, streams_close]

theorem drop_board (h : Attached gone subs) (nextId id : Nat) :
    (board gone subs nextId).drop id = board gone (subs.drop id) nextId := by
  rw [Switchboard.drop, find?_board]
  cases found : subs.get? id with
  | none =>
    have kept : subs.drop id = subs := by
      rw [drop, List.filter_eq_self]
      intro sub member
      simpa using List.find?_eq_none.1 found sub member
    rw [kept]
    rfl
  | some sub =>
    obtain rfl : sub.id = id := by simpa using List.find?_some found
    obtain ⟨registries, number⟩ := h.runHook (List.mem_of_find?_eq_some found)
      (entries_drop subs sub.id) nextId
    simp only [Option.map_some, registries, number]
    simp only [board, streams_drop]

/-- A stream of the switchboard hands out what the subscription does. -/
theorem poll_board (h : Attached gone subs) {sub : Subscription α} (member : sub ∈ subs)
    (nextId : Nat) : (board gone subs nextId).poll sub.stream = sub.poll := by
  have listed : sub.id ∈ (board gone subs nextId).listed sub.notifier ↔ sub.live = true :=
    h.listed_iff_live member
  have open_ := h.opens sub member
  cases buffered : sub.buffer with
  | nil =>
    cases live : sub.live with
    | false =>
      simp [Switchboard.poll, Subscription.poll, Subscription.stream, buffered, listed, live]
    | true =>
      simp [Switchboard.poll, Subscription.poll, Subscription.stream, buffered, listed, live,
        open_ live]
  | cons update updates =>
    simp [Switchboard.poll, Subscription.poll, Subscription.stream, buffered]

theorem next_board (h : Attached gone subs) (nextId id : Nat) :
    (board gone subs nextId).next id =
      match subs.get? id with
      | some sub => (sub.poll, board gone (subs.modify id Subscription.pop) nextId)
      | none => (.ended, board gone subs nextId) := by
  rw [Switchboard.next, find?_board]
  cases found : subs.get? id with
  | none => rfl
  | some sub =>
    have same : ∀ n, entries (subs.modify id Subscription.pop) n = subs.entries n := by
      apply entries_congr
      all_goals
        intro other
        by_cases hit : other.id = id <;> simp [hit, Subscription.pop, Subscription.entry]
    have streams : (subs.modify id Subscription.pop).map Subscription.stream =
        (subs.map Subscription.stream).map fun stream =>
          if stream.id = id then { stream with buffer := stream.buffer.tail } else stream := by
      rw [modify, List.map_map, List.map_map]
      apply List.map_congr_left
      intro other _
      by_cases hit : other.id = id <;> simp [hit, Subscription.pop, Subscription.stream]
    simp only [Option.map_some, poll_board h (List.mem_of_find?_eq_some found)]
    simp only [board, streams, same]

/-- Dropping a notifier takes away its registry with all that it lists. -/
theorem detach_board (gone : List Bool) (subs : Subscriptions α) (nextId n : Nat) :
    (board gone subs nextId).detach n =
      board (gone.modify n fun _ => true) (subs.remove n fun _ _ => true).2 nextId := by
  have registries : (board gone subs nextId).registries.modify n (fun _ => none) =
      (board (gone.modify n fun _ => true) (subs.remove n fun _ _ => true).2
        nextId).registries := by
    apply List.ext_getElem?
    intro m
    simp only [board, List.getElem?_modify, List.getElem?_mapIdx, entries_remove]
    cases gone[m]? with
    | none => rfl
    | some dropped =>
      by_cases same : n = m
      · simp [same]
      · simp [same, beq_eq_false_iff_ne.2 same]
  rw [Switchboard.detach, registries]
  simp [board, streams_remove]

theorem Attached.deliver (h : Attached gone subs) (n : Nat) (batch : List (Notice α)) :
    Attached gone (subs.deliver n batch) := by
  rw [deliver_eq]
  constructor
  · simpa [Subscription.IsOpen, Subscription.push] using h.opens
  · simpa [Function.comp_def, Subscription.push] using h.distinct
  · simpa [Subscription.push] using h.manned

theorem deliverEach_board (h : Attached gone subs) (nextId : Nat)
    (deliveries : List (Nat × List (Notice α))) :
    (board gone subs nextId).deliverEach deliveries =
      ([], board gone
        (deliveries.foldl (fun subs delivery => subs.deliver delivery.1 delivery.2) subs)
        nextId) := by
  induction deliveries generalizing subs with
  | nil => rfl
  | cons delivery deliveries ih =>
    rw [Switchboard.deliverEach, deliver_board h]
    simp only [ih (h.deliver delivery.1 delivery.2), List.foldl_cons, List.nil_append]

end Subscriptions

end Fanout
