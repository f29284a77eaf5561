import Fanout.Proofs.Bus.Dealings
import Fanout.Proofs.Bus.Ending
import Mathlib.Data.List.Induction

/-!
# Registries and streams in step

In every run, a notifier lists a subscription from when it is opened until something ends it, which
may be the notifier or the consumer. A stream with an empty buffer waits as long as its subscription
is listed, and has ended after that; this is what the stream answers by itself, whatever a task that
has used up its allowance makes of it. No number is given out while it is listed, and no sender that
a registry has is without a receiver (`registries_in_step`).
-/

namespace Fanout

variable {α : Type}

namespace World

variable {forms : Forms α} {world : World α}

/-- Whether a notifier has a live subscription with a key and a number. -/
def Lists (world : World α) (n : Nat) (key : Key) (id : Nat) : Prop :=
  ∃ sub ∈ world.subscriptions,
    sub.id = id ∧ sub.notifier = n ∧ sub.key = key ∧ sub.live = true

/-- A live subscription stays live until something ends it. -/
theorem lists_deal (h : world.WellFormed) (forms : Forms α) (dealing : Dealing α) {n id : Nat}
    {key : Key} :
    (world.deal forms dealing).Lists n key id ↔
      world.Lists n key id ∧ dealing.ends id n key = false ∨
        dealing = .step (.subscribe n key) ∧ world.nextId = id := by
  cases dealing with
  | notify m batch => simp [Lists, deal, Subscriptions.deliver_eq, Dealing.ends, Subscription.push]
  | step taken =>
    simp only [Lists, deal, mem_step h, Dealing.ends, Dealing.step.injEq]
    constructor
    · rintro ⟨after, ⟨sub, before, -, rfl⟩ | new, same⟩
      · obtain ⟨rfl, rfl, rfl, live⟩ := same
        have kept : sub.live = true ∧ taken.ends sub.id sub.notifier sub.key = false := by
          simpa [changed] using live
        exact .inl ⟨⟨sub, before, rfl, rfl, rfl, kept.1⟩, kept.2⟩
      · obtain ⟨m, key', rfl, rfl⟩ := of_mem_opened new
        obtain ⟨rfl, rfl, rfl, -⟩ := same
        exact .inr ⟨rfl, rfl⟩
    · rintro (⟨⟨sub, before, rfl, rfl, rfl, live⟩, kept⟩ | ⟨rfl, rfl⟩)
      · have stays : taken.drops sub.id = false := by
          rw [Bool.eq_false_iff]
          intro dropped
          rw [Step.ends_of_drops dropped] at kept
          cases kept
        exact ⟨world.changed forms taken sub, .inl ⟨sub, before, stays, rfl⟩, rfl, rfl, rfl,
          by simp [changed, live, kept]⟩
      · exact ⟨_, .inr (List.mem_singleton_self _), rfl, rfl, rfl, rfl⟩

/-- A subscription that a run opens, and that nothing ends after that. -/
def Lasting (forms : Forms α) (dealings : List (Dealing α)) (n : Nat) (key : Key) (id : Nat) :
    Prop :=
  ∃ earlier later, dealings = earlier ++ .step (.subscribe n key) :: later ∧
    ((dealAll forms {} earlier).step forms (.subscribe n key)).1 = .number id ∧
    ∀ dealing ∈ later, dealing.ends id n key = false

theorem lasting_concat {dealings : List (Dealing α)} {dealing : Dealing α} {n id : Nat}
    {key : Key} :
    Lasting forms (dealings ++ [dealing]) n key id ↔
      Lasting forms dealings n key id ∧ dealing.ends id n key = false ∨
        dealing = .step (.subscribe n key) ∧ (dealAll forms {} dealings).nextId = id := by
  have answer : ∀ world : World α,
      (world.step forms (.subscribe n key)).1 = .number id ↔ world.nextId = id := by
    simp [World.step, subscribe]
  simp only [Lasting, answer]
  constructor
  · rintro ⟨earlier, later, eq, number, kept⟩
    rcases List.eq_nil_or_concat later with rfl | ⟨rest, last, rfl⟩
    · obtain ⟨rfl, same⟩ := List.append_inj' eq rfl
      exact .inr ⟨List.singleton_inj.1 same, number⟩
    · rw [List.concat_eq_append, ← List.cons_append, ← List.append_assoc] at eq
      obtain ⟨rfl, same⟩ := List.append_inj' eq rfl
      obtain rfl := List.singleton_inj.1 same
      simp only [List.concat_eq_append, List.mem_append, List.mem_singleton] at kept
      exact .inl ⟨⟨earlier, rest, rfl, number, fun other among => kept other (.inl among)⟩,
        kept dealing (.inr rfl)⟩
  · rintro (⟨⟨earlier, later, rfl, number, kept⟩, last⟩ | ⟨rfl, number⟩)
    · refine ⟨earlier, later ++ [dealing], by simp, number, ?_⟩
      intro other among
      rcases List.mem_append.1 among with before | now
      · exact kept other before
      · exact List.mem_singleton.1 now ▸ last
    · exact ⟨dealings, [], rfl, number, by simp⟩

/-- The live subscriptions after a run are those that it opened and did not end. -/
theorem lists_dealAll (forms : Forms α) (dealings : List (Dealing α)) (n : Nat) (key : Key)
    (id : Nat) : (dealAll forms {} dealings).Lists n key id ↔ Lasting forms dealings n key id := by
  induction dealings using List.reverseRecOn with
  | nil => simp [dealAll, Lists, Lasting]
  | append_singleton dealings dealing ih =>
    have step : dealAll forms {} (dealings ++ [dealing]) =
        (dealAll forms {} dealings).deal forms dealing := by
      simp [dealAll]
    rw [step, lists_deal (wellFormed_empty.dealAll forms dealings), ih, lasting_concat]

end World

/-- Registries and streams in step after a run. -/
structure Switchboard.InStep (forms : Forms α) (dealings : List (Dealing α))
    (board : Switchboard α) : Prop where
  /-- A notifier lists the subscriptions that were opened at it and that nothing has ended. -/
  listed : ∀ n id, id ∈ board.listed n ↔ ∃ key, World.Lasting forms dealings n key id
  /-- The count of a notifier is the number of these, and what the world counts. -/
  counted : ∀ n, (board.listed n).Nodup ∧ board.count n = (board.listed n).length ∧
    board.count n = (World.dealAll forms {} dealings).subscriptions.count n
  /-- A stream hands out what the world does. -/
  polled : ∀ stream ∈ board.streams,
    board.poll stream = ((World.dealAll forms {} dealings).next stream.id).1
  /-- A stream with something in its buffer hands out the first of it. -/
  item : ∀ stream ∈ board.streams, ∀ update,
    board.poll stream = .item update ↔ stream.buffer.head? = some update
  /-- A stream with nothing in its buffer waits if its subscription is listed. -/
  pending : ∀ stream ∈ board.streams,
    board.poll stream = .pending ↔ stream.buffer = [] ∧ stream.id ∈ board.listed stream.notifier
  /-- A stream with nothing in its buffer has ended if its subscription is not listed. -/
  ended : ∀ stream ∈ board.streams,
    board.poll stream = .ended ↔ stream.buffer = [] ∧ stream.id ∉ board.listed stream.notifier

namespace World

/-- In every run that asks only notifiers which are there for subscriptions, and for fewer than 2^64
of them, no number is given out while it is listed and no listed subscription has a closed channel;
registries and streams are what the subscriptions of the world say, and they are in step. What a
stream answers is what it answers a task that has allowance left (`collect_of_get?`); to a task that
has none every stream seems pending. -/
theorem registries_in_step (forms : Forms α) (dealings : List (Dealing α))
    (there : orderly forms {} dealings = true)
    (few : dealings.countP (·.asked?.isSome) < UInt64.size) :
    (Switchboard.dealAll forms {} {} dealings).1 = [] ∧
      (Switchboard.dealAll forms {} {} dealings).2 = (dealAll forms {} dealings).switchboard ∧
      (Switchboard.dealAll forms {} {} dealings).2.InStep forms dealings := by
  obtain ⟨manned, eq⟩ := switchboard_of_run there few
  have attached := manned.attached
  have listed : ∀ n id, id ∈ (dealAll forms {} dealings).switchboard.listed n ↔
      ∃ sub ∈ (dealAll forms {} dealings).subscriptions,
        sub.id = id ∧ sub.notifier = n ∧ sub.live = true :=
    fun n id => attached.mem_listed_board
  have live : ∀ sub ∈ (dealAll forms {} dealings).subscriptions,
      sub.id ∈ (dealAll forms {} dealings).switchboard.listed sub.notifier ↔ sub.live = true :=
    fun sub member => attached.listed_iff_live member
  have polled : ∀ sub ∈ (dealAll forms {} dealings).subscriptions,
      (dealAll forms {} dealings).switchboard.poll sub.stream = sub.poll :=
    fun sub member => Subscriptions.poll_board attached member _
  rw [eq]
  refine ⟨rfl, rfl, ?_⟩
  constructor
  case listed =>
    intro n id
    simp only [listed, ← lists_dealAll, Lists]
    constructor
    · rintro ⟨sub, member, same, own, live⟩
      exact ⟨sub.key, sub, member, same, own, rfl, live⟩
    · rintro ⟨key, sub, member, same, own, -, live⟩
      exact ⟨sub, member, same, own, live⟩
  case counted =>
    intro n
    refine ⟨?_, List.length_map (f := Entry.id) |>.symm, attached.count_board _ n⟩
    rw [switchboard, attached.listed_board]
    exact attached.nodup_entries n
  case polled =>
    intro stream member
    obtain ⟨sub, among, rfl⟩ := List.mem_map.1 member
    have answer := next_of_get? (manned.wellFormed.get?_of_mem among)
    rw [polled sub among]
    exact (congrArg Prod.fst answer).symm
  case item =>
    intro stream member update
    obtain ⟨sub, among, rfl⟩ := List.mem_map.1 member
    rw [polled sub among]
    exact Subscription.poll_eq_item_iff
  case pending =>
    intro stream member
    obtain ⟨sub, among, rfl⟩ := List.mem_map.1 member
    rw [polled sub among, Subscription.poll_eq_pending_iff]
    exact and_congr_right fun _ => (live sub among).symm
  case ended =>
    intro stream member
    obtain ⟨sub, among, rfl⟩ := List.mem_map.1 member
    rw [polled sub among, Subscription.poll_eq_ended_iff, ← Bool.not_eq_true]
    exact and_congr_right fun _ => not_congr (live sub among).symm

/-- Of three subscriptions, one is closed by its consumer, who drops the stream later, one is ended
by its notifier, and one stays. -/
def turnover : List (Dealing String) :=
  [.step .connect, .step (.addNotifier 0 .messages), .step (.listen 0),
    .step (.subscribe 0 (.user 7)), .step (.subscribe 0 (.user 8)), .step (.subscribe 0 (.user 7)),
    .step (.publish 0 "hello" [.user 7, .user 8]), .step (.close 1),
    .step (.unsubscribe 0 fun key _ => key = .user 8), .step (.dropStream 1),
    .notify 0 [{ key := .user 7, update := "again" }]]

theorem registries_in_step_turnover :
    orderly (fun _ => .text) {} turnover = true ∧
      turnover.countP (·.asked?.isSome) < UInt64.size ∧
      (Switchboard.dealAll (fun _ => .text) {} {} turnover).1 = [] ∧
      (Switchboard.dealAll (fun _ => .text) {} {} turnover).2.InStep (fun _ => .text) turnover ∧
      (Switchboard.dealAll (fun _ => .text) {} {} turnover).2.listed 0 = [3] ∧
      (Switchboard.dealAll (fun _ => .text) {} {} turnover).2.streams.map Stream.buffer =
        [["hello"], ["hello", "again"]] := by
  have there : orderly (fun _ => .text) {} turnover = true := by decide +kernel
  have few : turnover.countP (·.asked?.isSome) < UInt64.size := by decide
  obtain ⟨safe, -, inStep⟩ := registries_in_step (fun _ => .text) turnover there few
  exact ⟨there, few, safe, inStep, by decide +kernel, by decide +kernel⟩

end World

end Fanout
