import Fanout.Proofs.Bus.Lockstep

/-!
# Straight to a subscription

A subscription is known by a number, which its consumer may tell to others. Numbers are given out in
order to whichever notifier asks, so a number names one subscription for good (`Opens.unique`). An
update that is sent to a number by a notifier goes to the stream of the notifier's live subscription
with that number, and to no other; without one it is refused, and goes the way of what is published
if a key is at hand (`direct_delivery_exact`).
-/

namespace Fanout

variable {α : Type}

namespace Subscriptions

/-- Of subscriptions with numbers of their own, one gets what is sent to its number. -/
theorem deliverTo?_of_split {before after : Subscriptions α} {sub : Subscription α}
    (distinct : ((before ++ sub :: after).map Subscription.id).Nodup) {n : Nat}
    (reached : sub.reachable n = true) (update : α) :
    deliverTo? n sub.id update (before ++ sub :: after) =
      some (before ++ sub.push [update] :: after) := by
  have found : ((before ++ sub :: after).any fun other =>
      other.id == sub.id && other.reachable n) = true := by
    simp [reached]
  have alone : ∀ other ∈ before ++ after, other.id ≠ sub.id := by
    rw [List.map_append, List.map_cons, List.nodup_middle, ← List.map_append] at distinct
    intro other among same
    apply (List.nodup_cons.1 distinct).1
    rw [← same]
    exact List.mem_map_of_mem among
  have others : ∀ {list : Subscriptions α}, (∀ other ∈ list, other ∈ before ++ after) →
      list.map (fun other =>
        if other.id = sub.id ∧ other.reachable n then other.push [update] else other) = list := by
    intro list within
    apply (List.map_congr_left fun other member => ?_).trans (List.map_id' list)
    rw [if_neg]
    exact fun both => alone other (within other member) both.1
  rw [deliverTo?, if_pos found, List.map_append, List.map_cons,
    others fun _ => List.mem_append_left after, others fun _ => List.mem_append_right before,
    if_pos ⟨rfl, reached⟩]

theorem deliverTo?_eq_none {subs : Subscriptions α} {n id : Nat}
    (dead : ∀ sub ∈ subs, sub.id = id → sub.notifier = n → sub.live = false) (update : α) :
    subs.deliverTo? n id update = none := by
  rw [deliverTo?, if_neg]
  intro found
  obtain ⟨sub, member, reached⟩ := List.any_eq_true.1 found
  simp only [Subscription.reachable, Bool.and_eq_true, beq_iff_eq] at reached
  have ended := dead sub member reached.1 reached.2.1.1
  rw [reached.2.1.2] at ended
  cases ended

/-- What is added to one buffer shows in one stream. -/
theorem board_of_split (gone : List Bool) (before after : Subscriptions α)
    (sub : Subscription α) (updates : List α) (nextId : Nat) :
    board gone (before ++ sub.push updates :: after) nextId =
      { board gone (before ++ sub :: after) nextId with
        streams := before.map Subscription.stream ++
          { sub.stream with buffer := sub.stream.buffer ++ updates } ::
            after.map Subscription.stream } := by
  have same : ∀ n, entries (before ++ sub.push updates :: after) n =
      entries (before ++ sub :: after) n := by
    intro n
    rw [entries_append, entries_append, entries_cons, entries_cons]
    rfl
  simp only [board, same, List.map_append, List.map_cons]
  rfl

end Subscriptions

namespace World

variable {forms : Forms α} {world : World α}

/-- That a run opens a subscription of a notifier with a key and a number, before other dealings. -/
def Opens (forms : Forms α) (dealings : List (Dealing α)) (n : Nat) (key : Key) (id : Nat)
    (later : List (Dealing α)) : Prop :=
  ∃ earlier, dealings = earlier ++ .step (.subscribe n key) :: later ∧
    ((dealAll forms {} earlier).step forms (.subscribe n key)).1 = .number id

/-- A lasting subscription is one that a run opens and nothing ends after that. -/
theorem lasting_iff {dealings : List (Dealing α)} {n id : Nat} {key : Key} :
    Lasting forms dealings n key id ↔
      ∃ later, Opens forms dealings n key id later ∧
        ∀ dealing ∈ later, dealing.ends id n key = false := by
  constructor
  · rintro ⟨earlier, later, eq, number, kept⟩
    exact ⟨later, ⟨earlier, eq, number⟩, kept⟩
  · rintro ⟨later, ⟨earlier, eq, number⟩, kept⟩
    exact ⟨earlier, later, eq, number, kept⟩

theorem nextId_dealAll (h : world.WellFormed) (forms : Forms α) (dealings : List (Dealing α)) :
    (world.dealAll forms dealings).nextId =
      world.nextId + dealings.countP (·.asked?.isSome) := by
  induction dealings generalizing world with
  | nil => rfl
  | cons dealing dealings ih =>
    have first := nextId_deal h forms dealing
    have rest := ih (h.deal forms dealing)
    rw [List.countP_cons]
    simp only [dealAll, List.foldl_cons] at rest ⊢
    omega

/-- The place of an item in a list is told by how many items of its kind stand before it. -/
theorem eq_of_split {β : Type} (counts : β → Bool) {first second : β}
    (firstCounts : counts first = true) (secondCounts : counts second = true)
    {before before' after after' : List β}
    (eq : before ++ first :: after = before' ++ second :: after')
    (count : before.countP counts = before'.countP counts) :
    before = before' ∧ first = second ∧ after = after' := by
  induction before generalizing before' with
  | nil =>
    cases before' with
    | nil => exact ⟨rfl, List.cons.inj eq⟩
    | cons item before' =>
      rw [List.nil_append, List.cons_append, List.cons.injEq] at eq
      rw [List.countP_nil, List.countP_cons, ← eq.1, if_pos firstCounts] at count
      omega
  | cons item before ih =>
    cases before' with
    | nil =>
      rw [List.nil_append, List.cons_append, List.cons.injEq] at eq
      rw [List.countP_nil, List.countP_cons, eq.1, if_pos secondCounts] at count
      omega
    | cons item' before' =>
      rw [List.cons_append, List.cons_append, List.cons.injEq] at eq
      rw [List.countP_cons, List.countP_cons, eq.1, Nat.add_right_cancel_iff] at count
      have rest := ih eq.2 count
      exact ⟨congrArg₂ List.cons eq.1 rest.1, rest.2⟩

/-- No number is given out twice in a run, whoever asks. -/
theorem Opens.unique {dealings later later' : List (Dealing α)} {n n' id : Nat} {key key' : Key}
    (first : Opens forms dealings n key id later)
    (second : Opens forms dealings n' key' id later') :
    n = n' ∧ key = key' ∧ later = later' := by
  obtain ⟨earlier, eq, number⟩ := first
  obtain ⟨earlier', eq', number'⟩ := second
  have count : earlier.countP (·.asked?.isSome) = earlier'.countP (·.asked?.isSome) := by
    simp only [World.step, subscribe, Answer.number.injEq,
      nextId_dealAll wellFormed_empty] at number number'
    omega
  have same := eq_of_split (·.asked?.isSome) rfl rfl (eq.symm.trans eq') count
  simp only [Dealing.step.injEq, Step.subscribe.injEq] at same
  exact ⟨same.2.1.1, same.2.1.2, same.2.2⟩

/-- Whose number it is decides whether a notifier has a lasting subscription with it. -/
theorem Opens.lasting_iff {dealings later : List (Dealing α)} {m id : Nat} {key : Key}
    (opens : Opens forms dealings m key id later) (n : Nat) :
    (∃ key, Lasting forms dealings n key id) ↔
      m = n ∧ ∀ dealing ∈ later, dealing.ends id m key = false := by
  constructor
  · rintro ⟨key', lasts⟩
    obtain ⟨later', opens', kept⟩ := World.lasting_iff.1 lasts
    obtain ⟨rfl, rfl, rfl⟩ := opens.unique opens'
    exact ⟨rfl, kept⟩
  · rintro ⟨rfl, kept⟩
    exact ⟨key, World.lasting_iff.2 ⟨later, opens, kept⟩⟩

/-- That an update which a notifier sends to a number goes one of two ways. -/
structure Sends (forms : Forms α) (world : World α) (n id : Nat) (update : α) (live : Prop) :
    Prop where
  /-- One stream gets the update, nothing is heard of it, and nothing else changes. -/
  direct : live → ∃ before sub after, world.subscriptions = before ++ sub :: after ∧
    sub.id = id ∧ sub.notifier = n ∧ sub.live = true ∧
      world.step forms (.notifySubscriber n update id) =
        (.done, [], { world with subscriptions := before ++ sub.push [update] :: after }) ∧
      ∀ key, world.step forms (.notifyOrPublish n update id key) =
        (.done, [], { world with subscriptions := before ++ sub.push [update] :: after })
  /-- Nothing changes, or just what publishing to the key changes. -/
  refused : ¬live →
    world.step forms (.notifySubscriber n update id) =
        (.refused (.unknownSubscription id), [], world) ∧
      ∀ key, world.step forms (.notifyOrPublish n update id key) =
        world.step forms (.publish n update [key])

end World

/-- That an update which a notifier sends to a number goes one of two ways through registries and
streams. -/
structure Switchboard.Sends (forms : Forms α) (world : World α) (board : Switchboard α)
    (n id : Nat) (update : α) (live : Prop) : Prop where
  listed : id ∈ board.listed n ↔ live
  direct : live → ∃ before stream after, board.streams = before ++ stream :: after ∧
    stream.id = id ∧ stream.notifier = n ∧
      board.deliverTo n id update =
        (true, [], { board with
          streams := before ++ { stream with buffer := stream.buffer ++ [update] } :: after }) ∧
      ∀ key, board.step forms world (.notifyOrPublish n update id key) =
        ([], { board with
          streams := before ++ { stream with buffer := stream.buffer ++ [update] } :: after })
  refused : ¬live → board.deliverTo n id update = (false, [], board) ∧
    ∀ key, board.step forms world (.notifyOrPublish n update id key) =
      board.step forms world (.publish n update [key])

namespace World

variable {forms : Forms α} {world : World α}

theorem exists_split_of_lists {n id : Nat} {key : Key} (listed : world.Lists n key id) :
    ∃ before sub after, world.subscriptions = before ++ sub :: after ∧
      sub.id = id ∧ sub.notifier = n ∧ sub.live = true := by
  obtain ⟨sub, member, same, own, -, live⟩ := listed
  obtain ⟨before, after, split⟩ := List.append_of_mem member
  exact ⟨before, sub, after, split, same, own, live⟩

theorem dead_of_not_lists {n id : Nat} (unlisted : ¬∃ key, world.Lists n key id) :
    ∀ sub ∈ world.subscriptions, sub.id = id → sub.notifier = n → sub.live = false := by
  intro sub member same own
  rw [Bool.eq_false_iff]
  exact fun live => unlisted ⟨sub.key, sub, member, same, own, rfl, live⟩

theorem WellFormed.deliverTo?_of_split (h : world.WellFormed) {before after : Subscriptions α}
    {sub : Subscription α} (split : world.subscriptions = before ++ sub :: after)
    (live : sub.live = true) (update : α) :
    world.subscriptions.deliverTo? sub.notifier sub.id update =
      some (before ++ sub.push [update] :: after) := by
  have member : sub ∈ world.subscriptions := by
    rw [split]
    exact List.mem_append_right before List.mem_cons_self
  have reached : sub.reachable sub.notifier = true := by
    rw [Subscription.reachable_eq (h.opens sub member)]
    simp [live]
  rw [split]
  exact Subscriptions.deliverTo?_of_split (split ▸ h.distinct) reached update

theorem WellFormed.sends (h : world.WellFormed) (forms : Forms α) (n id : Nat) (update : α) :
    world.Sends forms n id update (∃ key, world.Lists n key id) where
  direct listed := by
    obtain ⟨key, listed⟩ := listed
    obtain ⟨before, sub, after, split, rfl, rfl, live⟩ := exists_split_of_lists listed
    have sent := h.deliverTo?_of_split split live update
    exact ⟨before, sub, after, split, rfl, rfl, live,
      by simp [World.step, notifySubscriber, sent],
      by simp [World.step, notifyOrPublish, notifySubscriber, sent]⟩
  refused unlisted := by
    have unsent := Subscriptions.deliverTo?_eq_none (dead_of_not_lists unlisted) update
    constructor
    · simp [World.step, notifySubscriber, unsent]
    · intro key
      simp [World.step, notifyOrPublish, notifySubscriber, unsent]

theorem Manned.sends (h : world.Manned) (forms : Forms α) (n id : Nat) (update : α) :
    world.switchboard.Sends forms world n id update (∃ key, world.Lists n key id) where
  listed := by
    rw [switchboard, h.attached.mem_listed_board]
    constructor
    · rintro ⟨sub, member, same, own, live⟩
      exact ⟨sub.key, sub, member, same, own, rfl, live⟩
    · rintro ⟨key, sub, member, same, own, -, live⟩
      exact ⟨sub, member, same, own, live⟩
  direct listed := by
    obtain ⟨key, listed⟩ := listed
    obtain ⟨before, sub, after, split, rfl, rfl, live⟩ := exists_split_of_lists listed
    have delivered := Subscriptions.deliverTo_board h.attached world.nextId sub.notifier sub.id
      update
    rw [h.wellFormed.deliverTo?_of_split split live update] at delivered
    dsimp only at delivered
    rw [Subscriptions.board_of_split, ← split] at delivered
    refine ⟨before.map Subscription.stream, sub.stream, after.map Subscription.stream, ?_, rfl, rfl,
      delivered, fun key => ?_⟩
    · simp [switchboard, Subscriptions.board, split]
    · simp only [Switchboard.step, switchboard, delivered, if_true]
  refused unlisted := by
    have delivered := Subscriptions.deliverTo_board h.attached world.nextId n id update
    rw [Subscriptions.deliverTo?_eq_none (dead_of_not_lists unlisted)] at delivered
    constructor
    · exact delivered
    · intro key
      simp [Switchboard.step, switchboard, delivered]

/-- After any run, what a notifier sends to a number is added to one stream, whatever its key, if
the run opened a subscription of this notifier with that number and nothing has ended it. Otherwise
it is refused, or published instead, and this is so for good once the number belongs to another
notifier or its subscription has ended. In a run that asks only notifiers which are there for
subscriptions, and for fewer than 2^64 of them, this is what looking up the number in the registry
does. -/
theorem direct_delivery_exact (forms : Forms α) (dealings : List (Dealing α)) (n id : Nat)
    (update : α) :
    (dealAll forms {} dealings).Sends forms n id update
        (∃ key, Lasting forms dealings n key id) ∧
      (∀ m key later, Opens forms dealings m key id later →
        ((∃ key, Lasting forms dealings n key id) ↔
          m = n ∧ ∀ dealing ∈ later, dealing.ends id m key = false)) ∧
      (orderly forms {} dealings = true → dealings.countP (·.asked?.isSome) < UInt64.size →
        (Switchboard.dealAll forms {} {} dealings).1 = [] ∧
          (Switchboard.dealAll forms {} {} dealings).2.Sends forms (dealAll forms {} dealings) n id
            update (∃ key, Lasting forms dealings n key id)) := by
  simp only [← lists_dealAll]
  refine ⟨?_, fun m key later opens => ?_, fun there few => ?_⟩
  · exact (wellFormed_empty.dealAll forms dealings).sends forms n id update
  · simp only [lists_dealAll]
    exact opens.lasting_iff n
  · obtain ⟨manned, eq⟩ := switchboard_of_run there few
    rw [eq]
    exact ⟨rfl, manned.sends forms n id update⟩

/-- Two notifiers of one process. The first has a subscription that stays and one that its consumer
drops, and the second one with the same key. -/
def handles : List (Dealing String) :=
  [.step .connect, .step (.addNotifier 0 .messages), .step (.addNotifier 0 .chats),
    .step (.listen 0), .step (.subscribe 0 (.user 7)), .step (.subscribe 1 (.user 7)),
    .step (.subscribe 0 (.chat 9)), .step (.dropStream 3)]

/-- The first notifier sends straight to the subscription that it has, and publishes to its key what
it cannot send to the one that was dropped; the number of the other notifier's subscription and one
that was not given out are refused. -/
theorem direct_delivery_exact_handles :
    let world := dealAll (fun _ => .text) {} handles
    let board := (Switchboard.dealAll (fun _ => .text) {} {} handles).2
    orderly (fun _ => .text) {} handles = true ∧
      handles.countP (·.asked?.isSome) < UInt64.size ∧
      (∃ key, Lasting (fun _ => .text) handles 0 key 1) ∧
      (∃ key, Lasting (fun _ => .text) handles 1 key 2) ∧
      (board.deliverTo 0 1 "hello").1 = true ∧
      world.step (fun _ => .text) (.notifySubscriber 0 "hello" 2) =
        (.refused (.unknownSubscription 2), [], world) ∧
      board.step (fun _ => .text) world (.notifyOrPublish 0 "hello" 3 (.user 7)) =
        board.step (fun _ => .text) world (.publish 0 "hello" [.user 7]) ∧
      board.deliverTo 0 4 "hello" = (false, [], board) := by
  intro world board
  have there : orderly (fun _ => .text) {} handles = true := by decide +kernel
  have few : handles.countP (·.asked?.isSome) < UInt64.size := by decide
  -- The places of the three subscriptions in the run.
  have first : Opens (fun _ => .text) handles 0 (.user 7) 1
      [.step (.subscribe 1 (.user 7)), .step (.subscribe 0 (.chat 9)), .step (.dropStream 3)] :=
    ⟨handles.take 4, rfl, rfl⟩
  have second : Opens (fun _ => .text) handles 1 (.user 7) 2
      [.step (.subscribe 0 (.chat 9)), .step (.dropStream 3)] :=
    ⟨handles.take 5, rfl, rfl⟩
  have third : Opens (fun _ => .text) handles 0 (.chat 9) 3 [.step (.dropStream 3)] :=
    ⟨handles.take 6, rfl, rfl⟩
  have lasts : ∃ key, Lasting (fun _ => .text) handles 0 key 1 :=
    ((direct_delivery_exact (fun _ => .text) handles 0 1 "hello").2.1 _ _ _ first).2
      ⟨rfl, by simp [Dealing.ends, Step.ends]⟩
  have elsewhere : ∃ key, Lasting (fun _ => .text) handles 1 key 2 :=
    ((direct_delivery_exact (fun _ => .text) handles 1 2 "hello").2.1 _ _ _ second).2
      ⟨rfl, by simp [Dealing.ends, Step.ends]⟩
  obtain ⟨sends, whose, -⟩ := direct_delivery_exact (fun _ => .text) handles 0 2 "hello"
  have foreign : ¬∃ key, Lasting (fun _ => .text) handles 0 key 2 := by
    rw [whose _ _ _ second]
    simp
  obtain ⟨-, whose, onBoard⟩ := direct_delivery_exact (fun _ => .text) handles 0 3 "hello"
  have dropped : ¬∃ key, Lasting (fun _ => .text) handles 0 key 3 := by
    rw [whose _ _ _ third]
    simp [Dealing.ends, Step.ends]
  obtain ⟨-, -, straight⟩ := direct_delivery_exact (fun _ => .text) handles 0 1 "hello"
  obtain ⟨before, stream, after, -, -, -, sent, -⟩ := (straight there few).2.direct lasts
  obtain ⟨-, -, never⟩ := direct_delivery_exact (fun _ => .text) handles 0 4 "hello"
  have unknown : ¬∃ key, Lasting (fun _ => .text) handles 0 key 4 := by
    rw [← (never there few).2.listed]
    decide +kernel
  exact ⟨there, few, lasts, elsewhere, congrArg Prod.fst sent, (sends.refused foreign).1,
    ((onBoard there few).2.refused dropped).2 (.user 7), ((never there few).2.refused unknown).1⟩

end World

end Fanout
