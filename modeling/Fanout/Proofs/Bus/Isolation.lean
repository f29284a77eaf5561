import Fanout.Proofs.Bus.Halves
import Fanout.Switchboard.Work

/-!
# Closed consumers and the others

A registry may list subscriptions whose consumers have closed or dropped their streams. A delivery
sends nothing down such a channel (`run_serve`) and everything that a batch has for its entry down
every other one, in whatever order it comes to the entries (`run_serveEach`,
`served_of_perm`). So it changes nothing but the buffers of open streams, counts what it put there,
and may be split where the batch is split (`delivery_isolated`).
-/

namespace Fanout

variable {α : Type}

theorem Subscription.addressed_append (first second : List (Notice α)) (key : Key) :
    addressed (first ++ second) key = addressed first key ++ addressed second key := by
  simp [addressed]

theorem Subscription.addressed_cons (notice : Notice α) (batch : List (Notice α)) (key : Key) :
    addressed (notice :: batch) key =
      (if notice.key = key then [notice.update] else []) ++ addressed batch key := by
  by_cases same : notice.key = key <;> simp [addressed, same]

namespace Streams

variable {streams : Streams α} {entry : Entry} {entries order : List Entry}
  {batch : List (Notice α)}

/-- What a batch has for the key of an entry, if its channel is open. -/
def sent (streams : Streams α) (batch : List (Notice α)) (entry : Entry) : List α :=
  if streams.receives entry.id then Subscription.addressed batch entry.key else []

/-- What a batch has for entries with a number, if the channel is open. -/
def arriving (streams : Streams α) (batch : List (Notice α)) (entries : List Entry) (id : Nat) :
    List α :=
  entries.flatMap fun entry => if entry.id = id then streams.sent batch entry else []

/-- The number of updates that a batch has for entries whose channels are open. -/
def sentTotal (streams : Streams α) (batch : List (Notice α)) : List Entry → Nat
  | [] => 0
  | entry :: entries => (streams.sent batch entry).length + sentTotal streams batch entries

/-- The streams once a batch has been sent to entries. -/
def served (streams : Streams α) (batch : List (Notice α)) (entries : List Entry) : Streams α :=
  streams.map fun stream =>
    { stream with buffer := stream.buffer ++ streams.arriving batch entries stream.id }

/-- The number of updates in buffers. -/
def buffered : Streams α → Nat
  | [] => 0
  | stream :: streams => stream.buffer.length + buffered streams

theorem sent_push (id : Nat) (updates : List α) (batch : List (Notice α)) :
    (streams.push id updates).sent batch = streams.sent batch := by
  funext entry
  rw [sent, sent, receives_push]

theorem sentTotal_congr {other : Streams α} (same : other.sent batch = streams.sent batch) :
    other.sentTotal batch entries = streams.sentTotal batch entries := by
  induction entries with
  | nil => rfl
  | cons entry entries ih => rw [sentTotal, sentTotal, same, ih]

theorem arriving_congr {other : Streams α} (same : other.sent batch = streams.sent batch) :
    other.arriving batch entries = streams.arriving batch entries := by
  funext id
  rw [arriving, arriving, same]

@[simp] theorem served_nil (streams : Streams α) (batch : List (Notice α)) :
    streams.served batch [] = streams := by
  simp [served, arriving]

theorem served_cons (streams : Streams α) (batch : List (Notice α)) (entry : Entry)
    (entries : List Entry) :
    streams.served batch (entry :: entries) =
      Streams.served (streams.push entry.id (streams.sent batch entry)) batch entries := by
  rw [served, served, arriving_congr (streams.sent_push entry.id _ batch), push, List.map_map]
  apply List.map_congr_left
  intro stream _
  by_cases same : stream.id = entry.id
  · simp [arriving, same]
  · simp [arriving, same, Ne.symm same]

theorem sent_served (streams : Streams α) (first second : List (Notice α)) (entries : List Entry) :
    (streams.served first entries).sent second = streams.sent second := by
  funext entry
  have same : (streams.served first entries).receives entry.id = streams.receives entry.id := by
    rw [receives, receives, served, List.any_map]
    rfl
  rw [sent, sent, same]

theorem sent_append (first second : List (Notice α)) (entry : Entry) :
    streams.sent (first ++ second) entry =
      streams.sent first entry ++ streams.sent second entry := by
  simp only [sent, Subscription.addressed_append]
  split <;> rfl

theorem sentTotal_append (streams : Streams α) (first second : List (Notice α))
    (entries : List Entry) :
    streams.sentTotal (first ++ second) entries =
      streams.sentTotal first entries + streams.sentTotal second entries := by
  induction entries with
  | nil => rfl
  | cons entry entries ih =>
    simp only [sentTotal, sent_append, List.length_append]
    omega

theorem sentTotal_of_perm (streams : Streams α) (batch : List (Notice α))
    (perm : order.Perm entries) :
    streams.sentTotal batch order = streams.sentTotal batch entries := by
  induction perm with
  | nil => rfl
  | cons entry _ ih => rw [sentTotal, sentTotal, ih]
  | swap first second entries => simp only [sentTotal, Nat.add_left_comm]
  | trans _ _ ih ih' => exact ih.trans ih'

theorem arriving_of_unlisted {id : Nat} (unlisted : ∀ entry ∈ entries, entry.id ≠ id) :
    streams.arriving batch entries id = [] :=
  List.flatMap_eq_nil_iff.2 fun entry member => if_neg (unlisted entry member)

/-- A channel gets what the batch has for the one entry that has its number. -/
theorem arriving_of_mem (distinct : (entries.map Entry.id).Nodup) (listed : entry ∈ entries) :
    streams.arriving batch entries entry.id = streams.sent batch entry := by
  induction entries with
  | nil => cases listed
  | cons first entries ih =>
    obtain ⟨fresh, distinct⟩ := List.nodup_cons.1 distinct
    obtain rfl | among := List.mem_cons.1 listed
    · have others : ∀ other ∈ entries, other.id ≠ entry.id := fun other member same =>
        fresh (same ▸ List.mem_map_of_mem member)
      have rest : streams.arriving batch entries entry.id = [] := arriving_of_unlisted others
      rw [arriving] at rest ⊢
      rw [List.flatMap_cons, rest, if_pos rfl, List.append_nil]
    · have differs : first.id ≠ entry.id := fun same => fresh (same ▸ List.mem_map_of_mem among)
      have rest := ih distinct among
      rw [arriving] at rest ⊢
      rw [List.flatMap_cons, rest, if_neg differs, List.nil_append]

theorem listed_or_unlisted (entries : List Entry) (id : Nat) :
    (∃ entry ∈ entries, entry.id = id) ∨ ∀ entry ∈ entries, entry.id ≠ id :=
  Classical.or_iff_not_imp_left.2 fun none entry member same => none ⟨entry, member, same⟩

theorem arriving_of_perm (distinct : (entries.map Entry.id).Nodup) (perm : order.Perm entries) :
    streams.arriving batch order = streams.arriving batch entries := by
  funext id
  obtain ⟨entry, member, rfl⟩ | unlisted := listed_or_unlisted entries id
  · have distinct' : (order.map Entry.id).Nodup := (perm.map Entry.id).nodup_iff.2 distinct
    rw [arriving_of_mem distinct member, arriving_of_mem distinct' (perm.mem_iff.2 member)]
  · rw [arriving_of_unlisted unlisted,
      arriving_of_unlisted fun entry member => unlisted entry (perm.mem_iff.1 member)]

/-- In whatever order a batch comes to the entries, the streams get the same. -/
theorem served_of_perm (distinct : (entries.map Entry.id).Nodup) (perm : order.Perm entries) :
    streams.served batch order = streams.served batch entries := by
  rw [served, served, arriving_of_perm distinct perm]

theorem arriving_append (distinct : (entries.map Entry.id).Nodup) (first second : List (Notice α))
    (id : Nat) :
    streams.arriving (first ++ second) entries id =
      streams.arriving first entries id ++ streams.arriving second entries id := by
  obtain ⟨entry, member, rfl⟩ | unlisted := listed_or_unlisted entries id
  · rw [arriving_of_mem distinct member, arriving_of_mem distinct member,
      arriving_of_mem distinct member, sent_append]
  · rw [arriving_of_unlisted unlisted, arriving_of_unlisted unlisted,
      arriving_of_unlisted unlisted, List.append_nil]

/-- Sending a batch and then another one is sending both at once. -/
theorem served_served (distinct : (entries.map Entry.id).Nodup) (first second : List (Notice α)) :
    (streams.served first entries).served second entries =
      streams.served (first ++ second) entries := by
  have later : (streams.served first entries).arriving second entries =
      streams.arriving second entries :=
    arriving_congr (streams.sent_served first second entries)
  rw [served, later, served, served, List.map_map]
  apply List.map_congr_left
  intro stream _
  simp [arriving_append distinct]

theorem push_of_absent {id : Nat} (absent : id ∉ streams.map Stream.id) (updates : List α) :
    streams.push id updates = streams := by
  refine (List.map_congr_left fun stream member => ?_).trans (List.map_id' streams)
  have differs : stream.id ≠ id := fun same => absent (same ▸ List.mem_map_of_mem member)
  exact if_neg differs

theorem buffered_push {id : Nat} (channels : (streams.map Stream.id).Nodup)
    (present : id ∈ streams.map Stream.id) (updates : List α) :
    buffered (streams.push id updates) = streams.buffered + updates.length := by
  induction streams with
  | nil => cases present
  | cons stream streams ih =>
    obtain ⟨fresh, channels⟩ := List.nodup_cons.1 channels
    have split : Streams.push (stream :: streams) id updates =
        (if stream.id = id then { stream with buffer := stream.buffer ++ updates } else stream) ::
          Streams.push streams id updates := rfl
    rw [split]
    by_cases same : stream.id = id
    · rw [push_of_absent (same ▸ fresh), if_pos same]
      simp only [buffered, List.length_append]
      omega
    · have later := ih channels ((List.mem_cons.1 present).resolve_left (Ne.symm same))
      rw [if_neg same]
      simp only [buffered, later]
      omega

theorem mem_of_receives {id : Nat} (h : streams.receives id = true) :
    id ∈ streams.map Stream.id := by
  obtain ⟨stream, member, both⟩ := List.any_eq_true.1 h
  exact List.mem_map.2 ⟨stream, member, beq_iff_eq.1 (Bool.and_eq_true_iff.1 both).1⟩

theorem receives_eq (channels : (streams.map Stream.id).Nodup) {stream : Stream α}
    (member : stream ∈ streams) : streams.receives stream.id = stream.receiving := by
  rw [Bool.eq_iff_iff, receives, List.any_eq_true]
  constructor
  · rintro ⟨other, among, both⟩
    obtain ⟨same, open_⟩ := Bool.and_eq_true_iff.1 both
    rwa [List.inj_on_of_nodup_map channels among member (beq_iff_eq.1 same)] at open_
  · exact fun open_ => ⟨stream, member, by simp [open_]⟩

/-- What is counted is what buffers have gained. -/
theorem buffered_served (channels : (streams.map Stream.id).Nodup) (batch : List (Notice α))
    (entries : List Entry) :
    buffered (streams.served batch entries) =
      streams.buffered + streams.sentTotal batch entries := by
  induction entries generalizing streams with
  | nil => simp [sentTotal]
  | cons entry entries ih =>
    have kept : ((streams.push entry.id (streams.sent batch entry)).map Stream.id).Nodup := by
      have same : (streams.push entry.id (streams.sent batch entry)).map Stream.id =
          streams.map Stream.id := by
        rw [push, List.map_map]
        apply List.map_congr_left
        intro stream _
        by_cases hit : stream.id = entry.id <;> simp [hit]
      rwa [same]
    have gained : buffered (streams.push entry.id (streams.sent batch entry)) =
        streams.buffered + (streams.sent batch entry).length := by
      by_cases open_ : streams.receives entry.id = true
      · exact buffered_push channels (mem_of_receives open_) _
      · have nothing : streams.sent batch entry = [] := if_neg open_
        rw [nothing, push_nil]
        rfl
    rw [served_cons, ih kept, gained, sentTotal,
      sentTotal_congr (streams.sent_push entry.id _ batch)]
    omega

theorem sendEach_snd (streams : Streams α) (id : Nat) (updates : List α) :
    (streams.sendEach id updates).2 =
      streams.push id (if streams.receives id then updates else []) := by
  by_cases open_ : streams.receives id = true
  · rw [sendEach_of_receives open_, if_pos open_]
  · rw [if_neg open_, push_nil]
    cases updates with
    | nil => rfl
    | cons update updates =>
      have closed : streams.send? id update = none := if_neg open_
      rw [sendEach, closed]

/-- Told with its mishaps, a delivery leaves the same streams. -/
theorem deliver_snd (streams : Streams α) (batch : List (Notice α)) (registry : Registry) :
    (Streams.deliver batch streams registry).2 = streams.served batch registry := by
  induction registry generalizing streams with
  | nil => exact (streams.served_nil batch).symm
  | cons entry registry ih =>
    have first := streams.sendEach_snd entry.id (Subscription.addressed batch entry.key)
    rw [served_cons, sent, Streams.deliver, ← first]
    exact ih _

end Streams

namespace Switchboard.Work

variable {board : Switchboard α} {entry : Entry} {entries : List Entry} {batch : List (Notice α)}

theorem run_send (board : Switchboard α) (id : Nat) (update : α) :
    (send id update).run board =
      if board.streams.receives id then
        (true, { board with streams := board.streams.push id [update] })
      else
        (false, board) := by
  unfold send Streams.send?
  simp only [StateT.run_bind, StateT.run_get, pure_bind]
  by_cases open_ : board.streams.receives id = true
  · simp only [open_, if_true]
    rfl
  · simp only [open_]
    rfl

/-- A round sends down an open channel all that a batch has for its entry, and nothing down a closed
one. -/
theorem run_serve (board : Switchboard α) (entry : Entry) (batch : List (Notice α)) :
    (serve entry batch).run board =
      ((board.streams.sent batch entry).length,
        { board with
          streams := board.streams.push entry.id (board.streams.sent batch entry) }) := by
  induction batch generalizing board with
  | nil =>
    have nothing : board.streams.sent [] entry = [] := ite_self []
    rw [nothing, Streams.push_nil]
    rfl
  | cons notice batch ih =>
    rw [serve]
    by_cases same : notice.key = entry.key
    · rw [if_pos same, StateT.run_bind, run_send]
      by_cases open_ : board.streams.receives entry.id = true
      · have sent : board.streams.sent (notice :: batch) entry =
            notice.update :: board.streams.sent batch entry := by
          simp [Streams.sent, open_, Subscription.addressed_cons, same]
        have later := ih { board with streams := board.streams.push entry.id [notice.update] }
        rw [Streams.sent_push, Streams.push_push] at later
        rw [if_pos open_, sent]
        exact congrArg (fun result : Nat × Switchboard α => (result.1 + 1, result.2)) later
      · -- The round breaks off, and there is nothing that it leaves unsent.
        have sent : board.streams.sent (notice :: batch) entry = [] := if_neg open_
        rw [if_neg open_, sent, Streams.push_nil]
        rfl
    · have sent : board.streams.sent (notice :: batch) entry = board.streams.sent batch entry := by
        simp [Streams.sent, Subscription.addressed_cons, same]
      rw [if_neg same, sent]
      exact ih board

/-- All rounds together send down each open channel all that a batch has for its entry. -/
theorem run_serveEach (board : Switchboard α) (batch : List (Notice α)) (entries : List Entry) :
    (serveEach batch entries).run board =
      (board.streams.sentTotal batch entries,
        { board with streams := board.streams.served batch entries }) := by
  induction entries generalizing board with
  | nil =>
    rw [Streams.served_nil]
    rfl
  | cons entry entries ih =>
    have later := ih
      { board with streams := board.streams.push entry.id (board.streams.sent batch entry) }
    rw [Streams.sentTotal_congr (board.streams.sent_push entry.id _ batch),
      ← Streams.served_cons] at later
    rw [serveEach, StateT.run_bind, run_serve]
    exact congrArg (fun result : Nat × Switchboard α =>
      ((board.streams.sent batch entry).length + result.1, result.2)) later

theorem run_deliver {n : Nat} {registry : Registry} (found : board.registryAt? n = some registry)
    (batch : List (Notice α)) :
    (deliver n batch).run board = (serveEach batch registry).run board := by
  rw [deliver, StateT.run_bind, StateT.run_get, pure_bind, found]

theorem run_deliver_of_none {n : Nat} (absent : board.registryAt? n = none)
    (batch : List (Notice α)) : (deliver n batch).run board = (0, board) := by
  rw [deliver, StateT.run_bind, StateT.run_get, pure_bind, absent]
  rfl

end Switchboard.Work

namespace Switchboard

variable {board : Switchboard α} {n : Nat} {batch : List (Notice α)}

theorem deliver_snd {registry : Registry} (found : board.registryAt? n = some registry) :
    (board.deliver n batch).2 =
      { board with streams := board.streams.served batch registry } := by
  rw [deliver, found, ← Streams.deliver_snd]

theorem deliver_snd_of_none (absent : board.registryAt? n = none) :
    (board.deliver n batch).2 = board := by
  rw [deliver, absent]

end Switchboard

namespace Subscriptions

variable {subs : Subscriptions α} {gone : List Bool}

theorem sentTotal_entries {streams : Streams α} {n : Nat} (opens : ∀ sub ∈ subs, sub.IsOpen)
    (receives : ∀ entry ∈ subs.entries n, streams.receives entry.id = true)
    (batch : List (Notice α)) :
    streams.sentTotal batch (subs.entries n) = subs.delivered n batch := by
  induction subs with
  | nil => rfl
  | cons sub subs ih =>
    obtain ⟨open_, opens⟩ := List.forall_mem_cons.1 opens
    rw [entries_cons, List.forall_mem_append] at receives
    have rest := ih opens receives.2
    rw [entries_cons, delivered, Subscription.reachable_eq open_]
    by_cases live : (sub.notifier == n && sub.live) = true
    · have first := receives.1 sub.entry (by simp [live])
      have sent : streams.sent batch sub.entry = Subscription.addressed batch sub.key :=
        if_pos first
      rw [if_pos live, if_pos live, List.singleton_append, Streams.sentTotal, sent, rest]
    · rw [if_neg live, if_neg live, List.nil_append, rest]

/-- A delivery at work leaves the picture of the subscriptions that got the batch, and counts what
they got. -/
theorem run_deliver_board (h : Attached gone subs) (nextId n : Nat) (batch : List (Notice α)) :
    (Switchboard.Work.deliver n batch).run (board gone subs nextId) =
      (subs.delivered n batch, board gone (subs.deliver n batch) nextId) := by
  have told := congrArg Prod.snd (deliver_board h nextId n batch)
  have total := sentTotal_entries (n := n) h.opens (fun _ listed => h.receives listed) batch
  have found := registryAt?_board gone subs nextId n
  by_cases present : gone[n]? = some false
  · rw [if_pos present] at found
    rw [Switchboard.deliver_snd found] at told
    rw [Switchboard.Work.run_deliver found, Switchboard.Work.run_serveEach]
    exact Prod.ext total told
  · rw [if_neg present] at found
    rw [Switchboard.deliver_snd_of_none found] at told
    rw [Switchboard.Work.run_deliver_of_none found]
    rw [h.entries_eq_nil present] at total
    exact Prod.ext total told

end Subscriptions

/-- That a delivery of a batch to the entries of a registry makes one stream of another. -/
structure Stream.Gets (registry : Registry) (batch : List (Notice α)) (before after : Stream α) :
    Prop where
  /-- An open stream gets what the batch has for its entry, in batch order. -/
  opened : ∀ entry ∈ registry, entry.id = before.id → before.receiving = true →
    after = { before with buffer := before.buffer ++ Subscription.addressed batch entry.key }
  /-- A closed one gets nothing. -/
  closed : before.receiving = false → after = before
  unlisted : (∀ entry ∈ registry, entry.id ≠ before.id) → after = before

namespace Streams

variable {streams : Streams α} {registry : Registry}

theorem gets_served (distinct : (registry.map Entry.id).Nodup)
    (channels : (streams.map Stream.id).Nodup) (batch : List (Notice α)) {stream : Stream α}
    (member : stream ∈ streams) :
    stream.Gets registry batch
      { stream with buffer := stream.buffer ++ streams.arriving batch registry stream.id } := by
  have open_ := receives_eq channels member
  have listed : ∀ entry ∈ registry, entry.id = stream.id →
      streams.arriving batch registry stream.id =
        if stream.receiving then Subscription.addressed batch entry.key else [] := by
    intro entry listed same
    rw [← same, arriving_of_mem distinct listed, sent, same, open_]
  refine ⟨fun entry among same receiving => ?_, fun closed => ?_, fun absent => ?_⟩
  · rw [listed entry among same, if_pos receiving]
  · obtain ⟨entry, among, same⟩ | absent := listed_or_unlisted registry stream.id
    · rw [listed entry among same, if_neg (closed ▸ Bool.false_ne_true), List.append_nil]
    · rw [arriving_of_unlisted absent, List.append_nil]
  · rw [arriving_of_unlisted absent, List.append_nil]

end Streams

/-- A delivery changes nothing but streams. Each stream that is open gets what the batch has for its
entry, a closed one nothing, and the count is what buffers have gained. The order in which the
entries are come to does not matter, and a batch may be delivered in two parts. -/
theorem delivery_isolated {board : Switchboard α} {n : Nat} {registry : Registry}
    (found : board.registryAt? n = some registry) (distinct : (registry.map Entry.id).Nodup)
    (channels : (board.streams.map Stream.id).Nodup) (batch : List (Notice α)) :
    ∃ (count : Nat) (streams : Streams α),
      (Switchboard.Work.deliver n batch).run board = (count, { board with streams }) ∧
      (board.deliver n batch).2 = { board with streams } ∧
      List.Forall₂ (Stream.Gets registry batch) board.streams streams ∧
      streams.buffered = board.streams.buffered + count ∧
      (∀ order : List Entry, order.Perm registry →
        (Switchboard.Work.serveEach batch order).run board = (count, { board with streams })) ∧
      ∀ (first second : List (Notice α)) (order other : List Entry), first ++ second = batch →
        order.Perm registry → other.Perm registry →
          StateT.run (m := Id) (do
            let sent ← Switchboard.Work.serveEach first order
            let more ← Switchboard.Work.serveEach second other
            return sent + more) board = (count, { board with streams }) := by
  refine ⟨board.streams.sentTotal batch registry, board.streams.served batch registry, ?_,
    Switchboard.deliver_snd found, ?_, board.streams.buffered_served channels batch registry, ?_,
    ?_⟩
  · rw [Switchboard.Work.run_deliver found, Switchboard.Work.run_serveEach]
  · rw [Streams.served, List.forall₂_map_right_iff, List.forall₂_same]
    exact fun stream member => Streams.gets_served distinct channels batch member
  · intro order perm
    rw [Switchboard.Work.run_serveEach, Streams.sentTotal_of_perm _ _ perm,
      Streams.served_of_perm distinct perm]
  · rintro first second order other rfl perm perm'
    have later := Switchboard.Work.run_serveEach
      { board with streams := board.streams.served first registry } second other
    rw [Streams.sentTotal_congr (board.streams.sent_served first second registry),
      Streams.sentTotal_of_perm _ _ perm', Streams.served_of_perm distinct perm',
      Streams.served_served distinct] at later
    rw [StateT.run_bind, Switchboard.Work.run_serveEach, Streams.sentTotal_of_perm _ _ perm,
      Streams.served_of_perm distinct perm, Streams.sentTotal_append]
    exact congrArg (fun result : Nat × Switchboard α =>
      (board.streams.sentTotal first registry + result.1, result.2)) later

/-- Three subscriptions of a notifier: the consumer of the first has closed its stream, that of the
second has dropped it, and the third one has an update in its stream. -/
def deserted : Switchboard Nat where
  registries := [some [⟨1, .user 7⟩, ⟨2, .user 7⟩, ⟨3, .user 7⟩]]
  streams := [{ id := 1, notifier := 0, receiving := false },
    { id := 3, notifier := 0, buffer := [10] }]
  nextId := 4

/-- The stream that is left gets both updates for its key, in whatever order the entries are come
to. -/
theorem delivery_isolated_deserted :
    ∃ after, (Switchboard.Work.deliver 0 [⟨11, .user 7⟩, ⟨12, .chat 7⟩, ⟨13, .user 7⟩]).run
        deserted = (2, after) ∧
      after.registries = deserted.registries ∧
      after.streams = [{ id := 1, notifier := 0, receiving := false },
        { id := 3, notifier := 0, buffer := [10, 11, 13] }] ∧
      (Switchboard.Work.serveEach [⟨11, .user 7⟩, ⟨12, .chat 7⟩, ⟨13, .user 7⟩]
        [⟨2, .user 7⟩, ⟨3, .user 7⟩, ⟨1, .user 7⟩]).run deserted = (2, after) := by
  have found : deserted.registryAt? 0 = some [⟨1, .user 7⟩, ⟨2, .user 7⟩, ⟨3, .user 7⟩] := rfl
  obtain ⟨count, streams, delivered, -, gets, gained, anyOrder, -⟩ :=
    delivery_isolated found (by decide) (by decide)
      [⟨11, .user 7⟩, ⟨12, .chat 7⟩, ⟨13, .user 7⟩]
  obtain ⟨first, others, closed, later, rfl⟩ := List.forall₂_cons_left_iff.1 gets
  obtain ⟨second, nothing, left, empty, rfl⟩ := List.forall₂_cons_left_iff.1 later
  obtain rfl := List.forall₂_nil_left_iff.1 empty
  obtain rfl := closed.closed rfl
  obtain rfl := left.opened ⟨3, .user 7⟩ (by decide) rfl rfl
  obtain rfl : count = 2 := by
    have total : 3 = 1 + count := gained
    omega
  exact ⟨_, delivered, rfl, rfl, anyOrder _ (by decide)⟩

end Fanout
