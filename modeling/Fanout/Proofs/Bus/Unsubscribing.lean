import Fanout.Proofs.Bus.Ending
import Fanout.Proofs.Bus.Ledger

/-!
# Ending subscriptions by a condition

A notifier that ends the subscriptions with a certain property first notes their numbers and then
takes them off its list one by one, by the same removal that the close hooks of streams use. This
ends exactly those that had the property; each of them is over for good, and neither its consumer
nor the notifier can end it once more (`unsubscribe_exact`).
-/

namespace Fanout

variable {α : Type}

/-- Closing a stream leaves the others as they are. -/
theorem Streams.filter_close (streams : Streams α) (id : Nat) :
    (streams.map fun stream =>
        if stream.id = id then { stream with hooked := false, receiving := false }
        else stream).filter (·.id ≠ id) =
      streams.filter (·.id ≠ id) := by
  induction streams with
  | nil => rfl
  | cons stream streams ih =>
    by_cases hit : stream.id = id
    · simpa [hit] using ih
    · simpa [hit] using ih

/-- That no notifier lists a number any more, and that closing or dropping the stream that has it
does nothing to registries and other streams. -/
structure Switchboard.Over (board : Switchboard α) (id : Nat) : Prop where
  unlisted : ∀ n, id ∉ board.listed n
  closed : (board.close id).registries = board.registries ∧
    (board.close id).streams.filter (·.id ≠ id) = board.streams.filter (·.id ≠ id)
  dropped : (board.drop id).registries = board.registries ∧
    (board.drop id).streams = board.streams.filter (·.id ≠ id)

namespace World

variable {forms : Forms α} {world : World α}

theorem Spent.deal {id : Nat} {updates : List α} (spent : world.Spent id updates)
    (h : world.WellFormed) (forms : Forms α) (dealing : Dealing α) :
    (world.deal forms dealing).Spent id
      (if dealing.takes id then updates.tail else updates) := by
  cases dealing with
  | step taken => exact spent.step h taken
  | notify n batch =>
    refine ⟨spent.old, ?_⟩
    intro after member same
    rw [World.deal, Subscriptions.deliver_eq] at member
    obtain ⟨sub, before, rfl⟩ := List.mem_map.1 member
    obtain ⟨dead, rfl⟩ := spent.left sub before same
    have unreached : sub.reachable n = false := by
      simp [Subscription.reachable, dead]
    rw [unreached]
    exact ⟨dead, List.append_nil sub.buffer⟩

theorem Spent.dealAll {id : Nat} {updates : List α} (spent : world.Spent id updates)
    (h : world.WellFormed) (forms : Forms α) (dealings : List (Dealing α)) :
    (world.dealAll forms dealings).Spent id (updates.drop (dealings.countP (·.takes id))) := by
  induction dealings generalizing world updates with
  | nil => exact spent
  | cons dealing dealings ih =>
    rw [drop_countP_cons]
    exact ih (spent.deal h forms dealing) (h.deal forms dealing)

/-- A stream is there until it is dropped. -/
theorem exists_deal {id : Nat} (h : world.WellFormed) (forms : Forms α) {dealing : Dealing α}
    (kept : dealing.drops id = false) (there : ∃ sub ∈ world.subscriptions, sub.id = id) :
    ∃ sub ∈ (world.deal forms dealing).subscriptions, sub.id = id := by
  obtain ⟨sub, before, rfl⟩ := there
  cases dealing with
  | step taken =>
    exact ⟨world.changed forms taken sub, (mem_step h).2 (.inl ⟨sub, before, kept, rfl⟩), rfl⟩
  | notify n batch =>
    refine ⟨_, List.mem_map_of_mem before, ?_⟩
    split <;> rfl

theorem exists_dealAll {id : Nat} (h : world.WellFormed) (forms : Forms α)
    {dealings : List (Dealing α)} (kept : ∀ dealing ∈ dealings, dealing.drops id = false)
    (there : ∃ sub ∈ world.subscriptions, sub.id = id) :
    ∃ sub ∈ (world.dealAll forms dealings).subscriptions, sub.id = id := by
  induction dealings generalizing world with
  | nil => exact there
  | cons dealing dealings ih =>
    obtain ⟨first, rest⟩ := List.forall_mem_cons.1 kept
    exact ih (h.deal forms dealing) rest (exists_deal h forms first there)

/-- That the stream with a number has ended but for what is left in it, and that its subscription
cannot end once more. -/
structure Over (world : World α) (id : Nat) (updates : List α) : Prop where
  /-- Nothing can be delivered straight to it. -/
  refused : ∀ n update, world.notifySubscriber n update id = .error (.unknownSubscription id)
  /-- It hands out what is left, and then has ended. -/
  polled : ∀ sub ∈ world.subscriptions, sub.id = id → sub.live = false ∧ sub.buffer = updates ∧
    ∀ more, world.polls id (updates.length + more) =
      updates.map .item ++ List.replicate more .ended
  /-- Closing it does nothing else. -/
  closed : world.close id =
    { world with
      subscriptions := world.subscriptions.modify id fun sub => { sub with receiving := false } }
  /-- Dropping it takes nothing off a list. -/
  dropped : ∀ n, (world.dropStream id).subscriptions.count n = world.subscriptions.count n

theorem WellFormed.over_of_spent (h : world.WellFormed) {id : Nat} {updates : List α}
    (spent : world.Spent id updates) : world.Over id updates where
  refused n update := by
    apply notifySubscriber_of_not_accepts
    rw [Bool.eq_false_iff]
    intro accepted
    obtain ⟨sub, member, same, reached⟩ := accepts_iff.1 accepted
    have dead := (spent.left sub member same).1
    simp [Subscription.reachable, dead] at reached
  polled sub member same := by
    obtain ⟨dead, left⟩ := spent.left sub member same
    refine ⟨dead, left, fun more => ?_⟩
    have polled := polls_eq (h.get?_of_mem member) more
    rwa [dead, left, same] at polled
  closed := by
    rw [close, Subscriptions.close]
    congr 1
    apply List.map_congr_left
    intro sub member
    split
    next same =>
      simp only [Subscription.cut, (spent.left sub member same).1]
    next => rfl
  dropped n := by
    rw [dropStream, Subscriptions.drop, Subscriptions.count, List.countP_filter]
    apply List.countP_congr
    intro sub member
    by_cases same : sub.id = id
    · simp [same, (spent.left sub member same).1]
    · simp [same]

theorem Manned.over_of_spent (h : world.Manned) {id : Nat} {updates : List α}
    (spent : world.Spent id updates) : world.switchboard.Over id := by
  have dead : ∀ sub ∈ world.subscriptions, sub.id = id → sub.live = false :=
    fun sub member same => (spent.left sub member same).1
  have unlisted : ∀ n, (world.subscriptions.entries n).filter (·.id ≠ id) =
      world.subscriptions.entries n :=
    fun n => Subscriptions.filter_entries fun sub member same _ => dead sub member same
  constructor
  case unlisted =>
    intro n listed
    obtain ⟨sub, member, same, -, live⟩ := h.attached.mem_listed_board.1 listed
    rw [dead sub member same] at live
    cases live
  case closed =>
    rw [switchboard, Subscriptions.close_board h.attached]
    refine ⟨Subscriptions.registries_congr _ (fun n => ?_) _ _, ?_⟩
    · rw [Subscriptions.entries_close, unlisted]
    · simp only [Subscriptions.board, Subscriptions.streams_close]
      exact Streams.filter_close _ id
  case dropped =>
    rw [switchboard, Subscriptions.drop_board h.attached]
    refine ⟨Subscriptions.registries_congr _ (fun n => ?_) _ _, ?_⟩
    · rw [Subscriptions.entries_drop, unlisted]
    · exact Subscriptions.streams_drop world.subscriptions id

/-- That a notifier which ends its subscriptions that satisfy a condition ends these and no other,
and that they are over then, whatever happens. -/
structure Unsubscribes (forms : Forms α) (world : World α) (n : Nat)
    (condition : Key → Nat → Bool) : Prop where
  /-- As many are ended as are live and satisfy the condition. -/
  counted : (world.unsubscribe n condition).1 =
    (world.subscriptions.filter (Subscriptions.matched n condition)).length
  /-- Nothing else changes. -/
  spared : (world.unsubscribe n condition).2 =
    { world with
      subscriptions :=
        world.subscriptions.map fun sub =>
          if Subscriptions.matched n condition sub then sub.cut else sub }
  emptied : ∀ sub ∈ (world.unsubscribe n condition).2.subscriptions,
    Subscriptions.matched n condition sub = false
  ended : ∀ sub ∈ world.subscriptions, Subscriptions.matched n condition sub = true → ∀ later,
    ((world.unsubscribe n condition).2.dealAll forms later).Over sub.id
        (sub.buffer.drop (later.countP (·.takes sub.id))) ∧
      ((∀ dealing ∈ later, dealing.drops sub.id = false) →
        ∃ last ∈ ((world.unsubscribe n condition).2.dealAll forms later).subscriptions,
          last.id = sub.id)

/-- That taking subscriptions off a registry one by one is ending them at once, and that the close
hooks of their streams find nothing any more, whatever happens. -/
structure TakesOff (forms : Forms α) (world : World α) (board : Switchboard α) (n : Nat)
    (condition : Key → Nat → Bool) : Prop where
  agreed : board.unsubscribe n condition =
    ((world.unsubscribe n condition).1, (world.unsubscribe n condition).2.switchboard)
  ended : ∀ sub ∈ world.subscriptions, Subscriptions.matched n condition sub = true →
    ∀ later, orderly forms (world.unsubscribe n condition).2 later = true →
      world.nextId + later.countP (·.asked?.isSome) ≤ UInt64.size →
      (Switchboard.dealAll forms (world.unsubscribe n condition).2
        (board.unsubscribe n condition).2 later).2.Over sub.id
  /-- However removals by the notifier and by close hooks interleave, each entry is found once. -/
  once : ∀ registry, board.registryAt? n = some registry → ∀ ids,
    (registry.removeEach ids).1 + (registry.removeEach ids).2.length = registry.length

/-- That every subscription that was opened at a notifier is listed or was taken off the list, once:
by the notifier, by its consumer, or with the notifier when that was dropped. -/
structure Accounted (forms : Forms α) (dealings : List (Dealing α)) (n : Nat) : Prop where
  balance : dealings.countP (·.asked? = some n) =
    (dealAll forms {} dealings).subscriptions.count n +
      (total forms (removed n) {} dealings + total forms (left n) {} dealings +
        total forms (lost n) {} dealings)
  undropped : .step (.dropNotifier n) ∉ dealings → total forms (lost n) {} dealings = 0

theorem matched_cut (n : Nat) (condition : Key → Nat → Bool) (sub : Subscription α) :
    Subscriptions.matched n condition
      (if Subscriptions.matched n condition sub then sub.cut else sub) = false := by
  split
  next => simp [Subscriptions.matched, Subscription.cut]
  next other => exact Bool.eq_false_iff.2 other

/-- What was ended has nothing but its buffer left. -/
theorem WellFormed.spent_cut {n : Nat} {condition : Key → Nat → Bool}
    (after : (world.unsubscribe n condition).2.WellFormed) {sub : Subscription α}
    (member : sub ∈ world.subscriptions)
    (matches_ : Subscriptions.matched n condition sub = true) :
    (world.unsubscribe n condition).2.Spent sub.id sub.buffer := by
  have ended : sub.cut ∈ (world.unsubscribe n condition).2.subscriptions :=
    List.mem_map.2 ⟨sub, member, if_pos matches_⟩
  have spent := after.spent ended rfl
  exact spent

theorem WellFormed.unsubscribes (h : world.WellFormed) (forms : Forms α) (n : Nat)
    (condition : Key → Nat → Bool) : world.Unsubscribes forms n condition where
  counted := List.countP_eq_length_filter
  spared := rfl
  emptied sub member := by
    obtain ⟨before, -, rfl⟩ := List.mem_map.1 member
    exact matched_cut n condition before
  ended sub member matches_ later := by
    have after : (world.unsubscribe n condition).2.WellFormed :=
      h.deal forms (.step (.unsubscribe n condition))
    have spent := (after.spent_cut member matches_).dealAll after forms later
    refine ⟨(after.dealAll forms later).over_of_spent spent, fun kept => ?_⟩
    apply exists_dealAll after forms kept
    exact ⟨sub.cut, List.mem_map.2 ⟨sub, member, if_pos matches_⟩, rfl⟩

theorem Manned.takesOff (h : world.Manned) (forms : Forms α) (n : Nat)
    (condition : Key → Nat → Bool) :
    world.TakesOff forms world.switchboard n condition where
  agreed := Subscriptions.unsubscribe_board h.attached world.nextId n condition
  ended sub member matches_ later there room := by
    have manned : (world.unsubscribe n condition).2.Manned :=
      h.deal forms (.step (.unsubscribe n condition)) (fun _ asked => nomatch asked)
    have start : (world.switchboard.unsubscribe n condition).2 =
        (world.unsubscribe n condition).2.switchboard :=
      congrArg Prod.snd (Subscriptions.unsubscribe_board h.attached world.nextId n condition)
    obtain ⟨after, eq⟩ := switchboard_dealAll manned there room
    have spent := manned.wellFormed.spent_cut member matches_
    rw [start, eq]
    exact after.over_of_spent (spent.dealAll manned.wellFormed forms later)
  once registry found ids := by
    rw [switchboard, Subscriptions.registryAt?_board] at found
    split at found
    next =>
      rw [← Option.some.inj found]
      exact Registry.removeEach_balance (h.attached.nodup_entries n) ids
    next => cases found

theorem accounted (forms : Forms α) (dealings : List (Dealing α)) (n : Nat) :
    Accounted forms dealings n where
  balance := by
    rw [← opened_eq wellFormed_empty forms dealings n]
    exact (Nat.zero_add _).symm
  undropped absent := by
    apply total_eq_zero
    intro dealing among world
    unfold lost
    split
    next m =>
      have other : m ≠ n := by
        rintro rfl
        exact absent among
      exact if_neg other
    next => rfl

/-- After any run, a notifier ends exactly those of its subscriptions that satisfy a condition, and
it has lost each of its subscriptions once. In a run that asks only notifiers which are there for
subscriptions, and for fewer than 2^64 of them, this is what taking numbers off registries does. -/
theorem unsubscribe_exact (forms : Forms α) (dealings : List (Dealing α)) (n : Nat) :
    (∀ condition, (dealAll forms {} dealings).Unsubscribes forms n condition) ∧
      Accounted forms dealings n ∧
      (orderly forms {} dealings = true → dealings.countP (·.asked?.isSome) < UInt64.size →
        ∀ condition, (dealAll forms {} dealings).TakesOff forms
          (Switchboard.dealAll forms {} {} dealings).2 n condition) := by
  refine ⟨fun condition => ?_, accounted forms dealings n, fun there few condition => ?_⟩
  · exact (wellFormed_empty.dealAll forms dealings).unsubscribes forms n condition
  · obtain ⟨manned, eq⟩ := switchboard_of_run there few
    rw [eq]
    exact manned.takesOff forms n condition

/-- Of five subscriptions, one is closed and dropped by its consumer, one is ended by its notifier
and closed after that, and three are left, two of them with the same key. -/
def departures : List (Dealing String) :=
  [.step .connect, .step (.addNotifier 0 .messages), .step (.listen 0),
    .step (.subscribe 0 (.user 7)), .step (.subscribe 0 (.user 8)), .step (.subscribe 0 (.user 7)),
    .step (.subscribe 0 (.chat 9)), .step (.subscribe 0 (.chat 5)),
    .step (.publish 0 "hello" [.user 7, .user 8]), .step (.close 5), .step (.dropStream 5),
    .step (.unsubscribe 0 fun key _ => key = .user 8), .step (.close 2)]

/-- Two are ended now; the first of them hands out what it was sent before, is then closed, and
nothing that is published later reaches it. -/
theorem unsubscribe_exact_departures :
    let world := dealAll (fun _ => .text) {} departures
    let board := (Switchboard.dealAll (fun _ => .text) {} {} departures).2
    let later : List (Dealing String) :=
      [.step (.publish 0 "again" [.user 7]), .step (.next 1), .step (.close 1)]
    let last := (world.unsubscribe 0 fun key _ => key = .user 7).2.dealAll (fun _ => .text) later
    orderly (fun _ => .text) {} departures = true ∧
      departures.countP (·.asked?.isSome) < UInt64.size ∧
      (board.unsubscribe 0 fun key _ => key = .user 7).1 = 2 ∧
      last.Over 1 [] ∧ (∃ sub ∈ last.subscriptions, sub.id = 1) ∧
      5 = world.subscriptions.count 0 + (total (fun _ => .text) (removed 0) {} departures +
        total (fun _ => .text) (left 0) {} departures) := by
  intro world board later last
  have there : orderly (fun _ => .text) {} departures = true := by decide +kernel
  have few : departures.countP (·.asked?.isSome) < UInt64.size := by decide
  obtain ⟨each, account, agrees⟩ := unsubscribe_exact (fun _ => .text) departures 0
  have ends := each fun key _ => key = .user 7
  have first : ∃ sub ∈ world.subscriptions, sub.id = 1 ∧ sub.buffer = ["hello"] ∧
      Subscriptions.matched 0 (fun key _ => key = .user 7) sub = true := by
    decide +kernel
  obtain ⟨sub, member, number, buffer, matches_⟩ := first
  obtain ⟨isOver, stays⟩ := ends.ended sub member matches_ later
  have count : (world.unsubscribe 0 fun key _ => key = .user 7).1 = 2 := by decide +kernel
  have five : departures.countP (·.asked? = some 0) = 5 := by decide
  have balance := account.balance
  rw [five, account.undropped (by simp [departures])] at balance
  refine ⟨there, few, ?_, ?_, ?_, balance⟩
  · rw [(agrees there few fun key _ => key = .user 7).agreed]
    exact count
  · rw [number, buffer] at isOver
    exact isOver
  · rw [number] at stays
    exact stays (by simp [later, Dealing.drops, Step.drops])

end World

end Fanout
