import Fanout.Proofs.Bus.Unsubscribing
import Fanout.Proofs.Cluster.Revocation

/-!
# Ending a key in a process

A process ends a key on its ten notifiers one after the other. The live subscriptions that have it
there are over then, each counted once, and nothing else changes: what has another key, what belongs
to notifiers of other processes, and who listens stay as they are (`revoke_exact`).
-/

namespace Fanout

theorem Feeds.nodup_notifiers (feeds : Feeds) : feeds.notifiers.Nodup := by
  have places : (Topic.all.map fun topic => Topic.all.idxOf topic).Nodup := by decide
  have shifted := places.map (f := (feeds.first + ·)) fun _ _ same => Nat.add_left_cancel same
  rwa [List.map_map] at shifted

variable {α : Type}

/-- Removes the subscriptions of each of the notifiers that satisfy a condition; tells how many of
them were listed. -/
def Switchboard.unsubscribeEach (board : Switchboard α) (condition : Key → Nat → Bool) :
    List Nat → Nat × Switchboard α
  | [] => (0, board)
  | n :: rest =>
    let (ended, board) := board.unsubscribe n condition
    let (count, board) := board.unsubscribeEach condition rest
    (ended + count, board)

namespace World

/-- Notifiers that are named once count each subscription that they end once. -/
theorem unsubscribeEach_fst (world : World α) (condition : Key → Nat → Bool)
    {notifiers : List Nat} (distinct : notifiers.Nodup) :
    (world.unsubscribeEach condition notifiers).1 =
      world.subscriptions.countP fun sub =>
        sub.live && notifiers.contains sub.notifier && condition sub.key sub.id := by
  induction notifiers generalizing world with
  | nil => simp [unsubscribeEach]
  | cons n rest ih =>
    obtain ⟨fresh, distinct⟩ := List.nodup_cons.1 distinct
    have own : (world.unsubscribe n condition).1 =
        (world.subscriptions.filter fun sub => sub.notifier == n).countP fun sub =>
          sub.live && (n :: rest).contains sub.notifier && condition sub.key sub.id := by
      rw [List.countP_filter]
      apply List.countP_congr
      intro sub _
      by_cases own : sub.notifier = n <;> simp [Subscriptions.matched, own]
    have others : ((world.unsubscribe n condition).2.unsubscribeEach condition rest).1 =
        (world.subscriptions.filter fun sub => !(sub.notifier == n)).countP fun sub =>
          sub.live && (n :: rest).contains sub.notifier && condition sub.key sub.id := by
      rw [ih _ distinct]
      simp only [unsubscribe, remove_snd, List.countP_map, List.countP_filter]
      apply List.countP_congr
      intro sub _
      by_cases own : sub.notifier = n
      · simp [own, fresh]
      · simp [own, Ne.symm own]
    calc (world.unsubscribeEach condition (n :: rest)).1
      _ = (world.unsubscribe n condition).1 +
          ((world.unsubscribe n condition).2.unsubscribeEach condition rest).1 := rfl
      _ = world.subscriptions.countP fun sub =>
          sub.live && (n :: rest).contains sub.notifier && condition sub.key sub.id := by
        rw [own, others]
        exact (List.countP_eq_countP_filter_add _ _ _).symm

/-- Worlds and their switchboards go together while notifiers end subscriptions in turn. -/
theorem Manned.unsubscribeEach {world : World α} (h : world.Manned) (forms : Forms α)
    (condition : Key → Nat → Bool) (notifiers : List Nat) :
    (world.unsubscribeEach condition notifiers).2.Manned ∧
      world.switchboard.unsubscribeEach condition notifiers =
        ((world.unsubscribeEach condition notifiers).1,
          (world.unsubscribeEach condition notifiers).2.switchboard) := by
  induction notifiers generalizing world with
  | nil => exact ⟨h, rfl⟩
  | cons n rest ih =>
    have first : world.switchboard.unsubscribe n condition =
        ((world.unsubscribe n condition).1, (world.unsubscribe n condition).2.switchboard) :=
      Subscriptions.unsubscribe_board h.attached world.nextId n condition
    have manned : (world.unsubscribe n condition).2.Manned :=
      h.deal forms (.step (.unsubscribe n condition)) fun _ asked => nomatch asked
    obtain ⟨last, others⟩ := ih manned
    refine ⟨last, ?_⟩
    simp only [Switchboard.unsubscribeEach, World.unsubscribeEach, first, others]

/-- That a key is ended on the notifiers of feeds, and nothing else. -/
structure Revokes (world : World Update) (feeds : Feeds) (key : Key) : Prop where
  /-- As many subscriptions are ended as have the key and are live there. -/
  counted : (world.revoke feeds key).1 = (world.following feeds key).length
  emptied : (world.revoke feeds key).2.following feeds key = []
  /-- A second time nothing is ended, and nothing changes. -/
  again : (world.revoke feeds key).2.revoke feeds key = (0, (world.revoke feeds key).2)
  /-- Processes with their listeners and notifiers stay as they are, and of the subscriptions those
  with the key are not live any more. -/
  spared : (world.revoke feeds key).2 =
    { world with
      subscriptions :=
        world.subscriptions.map fun sub =>
          if sub ∈ world.following feeds key then sub.cut else sub }
  /-- A subscription with another key, or of a notifier elsewhere, stays as it is. -/
  kept : ∀ sub ∈ world.subscriptions, sub.key ≠ key ∨ sub.notifier ∉ feeds.notifiers →
    sub ∈ (world.revoke feeds key).2.subscriptions
  /-- Whatever happens then, a stream that was ended hands out what it had buffered and no more. -/
  ended : ∀ sub ∈ world.following feeds key, ∀ later,
    ((world.revoke feeds key).2.dealAll Update.forms later).Over sub.id
        (sub.buffer.drop (later.countP (·.takes sub.id))) ∧
      ((∀ dealing ∈ later, dealing.drops sub.id = false) →
        ∃ last ∈ ((world.revoke feeds key).2.dealAll Update.forms later).subscriptions,
          last.id = sub.id)

/-- That the registries of feeds lose their entries with a key one by one, and that the close hooks
of the streams find nothing any more, whatever happens. -/
structure Withdraws (world : World Update) (board : Switchboard Update) (feeds : Feeds)
    (key : Key) : Prop where
  agreed : board.unsubscribeEach (fun k _ => k = key) feeds.notifiers =
    ((world.revoke feeds key).1, (world.revoke feeds key).2.switchboard)
  ended : ∀ sub ∈ world.following feeds key, ∀ later,
    orderly Update.forms (world.revoke feeds key).2 later = true →
      world.nextId + later.countP (·.asked?.isSome) ≤ UInt64.size →
      (Switchboard.dealAll Update.forms (world.revoke feeds key).2
        (board.unsubscribeEach (fun k _ => k = key) feeds.notifiers).2 later).2.Over sub.id

variable {world : World Update}

theorem revoke_fst (world : World Update) (feeds : Feeds) (key : Key) :
    (world.revoke feeds key).1 = (world.following feeds key).length := by
  rw [revoke, unsubscribeEach_fst world _ feeds.nodup_notifiers, List.countP_eq_length_filter]
  rfl

theorem revoke_cut (world : World Update) (feeds : Feeds) (key : Key) :
    (world.revoke feeds key).2 =
      { world with
        subscriptions :=
          world.subscriptions.map fun sub =>
            if sub ∈ world.following feeds key then sub.cut else sub } := by
  rw [revoke_snd]
  congr 1
  apply List.map_congr_left
  intro sub member
  split
  next among =>
    obtain ⟨-, -, own, same⟩ := mem_following.1 among
    simp [own, same, Subscription.cut]
  next other =>
    have stays : (sub.live &&
        !(feeds.notifiers.contains sub.notifier && decide (sub.key = key))) = sub.live := by
      cases live : sub.live with
      | false => rfl
      | true =>
        have apart : sub.notifier ∈ feeds.notifiers → sub.key ≠ key :=
          fun own same => other (mem_following.2 ⟨member, live, own, same⟩)
        simpa [imp_iff_not_or] using apart
    rw [stays]

theorem following_revoke (world : World Update) (feeds : Feeds) (key : Key) :
    (world.revoke feeds key).2.following feeds key = [] := by
  rw [List.eq_nil_iff_forall_not_mem]
  intro after among
  obtain ⟨member, live, own, same⟩ := mem_following.1 among
  rw [revoke_snd] at member
  obtain ⟨sub, -, rfl⟩ := List.mem_map.1 member
  dsimp only at own same live
  simp [own, same] at live

theorem revoke_of_following_eq_nil {feeds : Feeds} {key : Key}
    (nobody : world.following feeds key = []) : world.revoke feeds key = (0, world) := by
  apply Prod.ext
  · rw [revoke_fst, nobody]
    rfl
  · rw [revoke_cut, nobody]
    simp

/-- What was ended has nothing but its buffer left. -/
theorem WellFormed.spent_revoke {feeds : Feeds} {key : Key}
    (after : (world.revoke feeds key).2.WellFormed) {sub : Subscription Update}
    (among : sub ∈ world.following feeds key) :
    (world.revoke feeds key).2.Spent sub.id sub.buffer := by
  have ended : sub.cut ∈ (world.revoke feeds key).2.subscriptions := by
    rw [revoke_cut]
    exact List.mem_map.2 ⟨sub, (mem_following.1 among).1, if_pos among⟩
  have spent := after.spent ended rfl
  exact spent

theorem WellFormed.revokes (h : world.WellFormed) (feeds : Feeds) (key : Key) :
    world.Revokes feeds key where
  counted := revoke_fst world feeds key
  emptied := following_revoke world feeds key
  again := revoke_of_following_eq_nil (following_revoke world feeds key)
  spared := revoke_cut world feeds key
  kept sub member other := by
    have spared : sub ∉ world.following feeds key := by
      rw [mem_following]
      tauto
    rw [revoke_cut]
    exact List.mem_map.2 ⟨sub, member, if_neg spared⟩
  ended sub among later := by
    have after : (world.revoke feeds key).2.WellFormed :=
      h.reaches (reaches_unsubscribeEach Update.forms world _ feeds.notifiers)
    have spent := (after.spent_revoke among).dealAll after Update.forms later
    refine ⟨(after.dealAll Update.forms later).over_of_spent spent, fun stays => ?_⟩
    apply exists_dealAll after Update.forms stays
    refine ⟨sub.cut, ?_, rfl⟩
    rw [revoke_cut]
    exact List.mem_map.2 ⟨sub, (mem_following.1 among).1, if_pos among⟩

theorem Manned.revoke (h : world.Manned) (feeds : Feeds) (key : Key) :
    (world.revoke feeds key).2.Manned ∧
      world.switchboard.unsubscribeEach (fun k _ => k = key) feeds.notifiers =
        ((world.revoke feeds key).1, (world.revoke feeds key).2.switchboard) :=
  h.unsubscribeEach Update.forms _ feeds.notifiers

theorem Manned.withdraws (h : world.Manned) (feeds : Feeds) (key : Key) :
    world.Withdraws world.switchboard feeds key where
  agreed := (h.revoke feeds key).2
  ended sub among later there room := by
    obtain ⟨manned, agreed⟩ := h.revoke feeds key
    have same : (world.revoke feeds key).2.nextId = world.nextId := by
      rw [revoke_snd]
    have spent := manned.wellFormed.spent_revoke among
    rw [agreed]
    obtain ⟨after, eq⟩ := switchboard_dealAll manned there (same ▸ room)
    rw [eq]
    exact after.over_of_spent (spent.dealAll manned.wellFormed Update.forms later)

/-- After any run, ending a key in a process ends the live subscriptions with this key on each of
its ten notifiers, tells how many these are, and changes nothing else; they are over for good. In a
run that asks only notifiers which are there for subscriptions, and for fewer than 2^64 of them,
this is what taking numbers off ten registries does. -/
theorem revoke_exact (dealings : List (Dealing Update)) (feeds : Feeds) (key : Key) :
    (dealAll Update.forms {} dealings).Revokes feeds key ∧
      (orderly Update.forms {} dealings = true →
        dealings.countP (·.asked?.isSome) < UInt64.size →
        (dealAll Update.forms {} dealings).Withdraws
          (Switchboard.dealAll Update.forms {} {} dealings).2 feeds key) := by
  constructor
  · exact (wellFormed_empty.dealAll Update.forms dealings).revokes feeds key
  · intro there few
    obtain ⟨manned, eq⟩ := switchboard_of_run there few
    rw [eq]
    exact manned.withdraws feeds key

/-- A process with ten notifiers that listen to their topics. User 3 is followed twice, user 4 and
chat 3 once, and all of them have been greeted. -/
def followers : List (Dealing Update) :=
  .step .connect :: Topic.all.map (fun topic => .step (.addNotifier 0 topic)) ++
    (List.range 10).map (fun n => .step (.listen n)) ++
    [.step (.subscribe 2 (.user 3)), .step (.subscribe 8 (.user 3)),
      .step (.subscribe 2 (.user 4)), .step (.subscribe 1 (.chat 3)),
      .step (.notifySubscriber 2 (.greeting .account) 1),
      .step (.notifySubscriber 8 (.greeting .online) 2),
      .step (.notifySubscriber 2 (.greeting .account) 3),
      .step (.notifySubscriber 1 (.greeting .message) 4)]

def ten : Feeds :=
  { process := 0, first := 0 }

/-- User 3 is revoked: two subscriptions end, user 4 and chat 3 are followed as before, and a second
time nothing ends. -/
theorem revoke_exact_followers :
    let world := dealAll Update.forms {} followers
    let board := (Switchboard.dealAll Update.forms {} {} followers).2
    let later : List (Dealing Update) :=
      [.step (.publish 2 (.account .createdSubscription) [.user 3])]
    orderly Update.forms {} followers = true ∧
      followers.countP (·.asked?.isSome) < UInt64.size ∧
      (board.unsubscribeEach (fun k _ => k = .user 3) ten.notifiers).1 = 2 ∧
      ((world.revoke ten (.user 3)).2.revoke ten (.user 3)).1 = 0 ∧
      (∀ sub ∈ world.subscriptions, sub.id = 3 ∨ sub.id = 4 →
        sub ∈ (world.revoke ten (.user 3)).2.subscriptions) ∧
      ((world.revoke ten (.user 3)).2.dealAll Update.forms later).Over 1 [.greeting .account] := by
  intro world board later
  have there : orderly Update.forms {} followers = true := by decide +kernel
  have few : followers.countP (·.asked?.isSome) < UInt64.size := by decide +kernel
  obtain ⟨revokes, withdraws⟩ := revoke_exact followers ten (.user 3)
  have two : (world.revoke ten (.user 3)).1 = 2 := by decide +kernel
  have others : ∀ sub ∈ world.subscriptions, sub.id = 3 ∨ sub.id = 4 → sub.key ≠ .user 3 := by
    decide +kernel
  have first : ∃ sub ∈ world.following ten (.user 3),
      sub.id = 1 ∧ sub.buffer = [.greeting .account] := by
    decide +kernel
  obtain ⟨sub, among, number, buffer⟩ := first
  have isOver := (revokes.ended sub among later).1
  rw [number, buffer] at isOver
  refine ⟨there, few, ?_, congrArg Prod.fst revokes.again, fun sub member which => ?_, isOver⟩
  · rw [(withdraws there few).agreed]
    exact two
  · exact revokes.kept sub member (.inl (others sub member which))

end World

end Fanout
