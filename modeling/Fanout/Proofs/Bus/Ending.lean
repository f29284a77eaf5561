import Fanout.Proofs.Bus.Streams

/-!
# How streams end

A stream whose subscription is live waits when its buffer is empty. One whose subscription has ended
hands out what it has buffered, gets nothing more whatever happens, and then tells that it has ended
(`WellFormed.ends`, `polls_eq`). A task that asks until it has to wait gets the same answers, as far
as its allowance goes (`collect_of_get?`).
-/

namespace Fanout

variable {α : Type}

namespace Subscription

theorem poll_eq_item_iff {sub : Subscription α} {update : α} :
    sub.poll = .item update ↔ sub.buffer.head? = some update := by
  unfold poll
  cases sub.buffer with
  | nil => cases sub.live <;> simp
  | cons first rest => simp

theorem poll_eq_pending_iff {sub : Subscription α} :
    sub.poll = .pending ↔ sub.buffer = [] ∧ sub.live = true := by
  unfold poll
  cases sub.buffer with
  | nil => cases sub.live <;> simp
  | cons first rest => simp

theorem poll_eq_ended_iff {sub : Subscription α} :
    sub.poll = .ended ↔ sub.buffer = [] ∧ sub.live = false := by
  unfold poll
  cases sub.buffer with
  | nil => cases sub.live <;> simp
  | cons first rest => simp

end Subscription

namespace World

variable {forms : Forms α} {world : World α}

theorem next_of_get? {id : Nat} {sub : Subscription α}
    (found : world.subscriptions.get? id = some sub) :
    world.next id =
      (sub.poll,
        { world with subscriptions := world.subscriptions.modify id Subscription.pop }) := by
  rw [next, found]

theorem get?_next {id : Nat} {sub : Subscription α}
    (found : world.subscriptions.get? id = some sub) :
    (world.next id).2.subscriptions.get? id = some sub.pop := by
  have same : sub.id = id := by simpa using List.find?_some found
  have keeps : (fun other : Subscription α => other.id == id) ∘
      (fun other => if other.id = id then other.pop else other) = (·.id == id) := by
    funext other
    by_cases hit : other.id = id <;> simp [hit, Subscription.pop]
  rw [next_of_get? found]
  simp only [Subscriptions.get?, Subscriptions.modify, List.find?_map, keeps] at found ⊢
  simp [found, same]

/-- The answers of a stream that is asked for its next update a number of times. -/
def polls (world : World α) (id : Nat) : Nat → List (Poll α)
  | 0 => []
  | count + 1 => (world.next id).1 :: (world.next id).2.polls id count

/-- A stream hands out what it has buffered, and then waits or has ended. -/
theorem polls_eq {id : Nat} {sub : Subscription α}
    (found : world.subscriptions.get? id = some sub) (more : Nat) :
    world.polls id (sub.buffer.length + more) =
      sub.buffer.map .item ++ List.replicate more (if sub.live then .pending else .ended) := by
  induction buffered : sub.buffer generalizing world sub with
  | nil =>
    induction more generalizing world sub with
    | zero => rfl
    | succ more ih =>
      have rest := ih (get?_next found) (by simp [Subscription.pop, buffered])
      simp only [List.length_nil, Nat.zero_add, List.map_nil, List.nil_append] at rest ⊢
      rw [polls, rest, next_of_get? found, List.replicate_succ, Subscription.poll, buffered]
      rfl
  | cons update updates ih =>
    have rest := ih (get?_next found) (by simp [Subscription.pop, buffered])
    rw [List.length_cons, Nat.add_right_comm, polls, rest, next_of_get? found, Subscription.poll,
      buffered]
    rfl

/-- A task takes what is in the buffer as far as its allowance goes. With allowance left it learns
whether the stream has ended, and an end costs it one answer more. -/
theorem collect_of_get? {id : Nat} {sub : Subscription α}
    (found : world.subscriptions.get? id = some sub) (allowance : Nat) :
    let (updates, ended, left, after) := world.collect allowance id
    updates = sub.buffer.take allowance ∧
      ended = (decide (sub.buffer.length < allowance) && !sub.live) ∧
      left = allowance - sub.buffer.length - ended.toNat ∧
      after.subscriptions.get? id = some { sub with buffer := sub.buffer.drop allowance } := by
  induction allowance generalizing world sub with
  | zero => simp [collect, found]
  | succ allowance ih =>
    have asked := get?_next found
    rw [next_of_get? found] at asked
    rw [collect, next_of_get? found]
    cases buffered : sub.buffer with
    | cons update updates =>
      have rest := ih asked
      simp only [Subscription.pop, buffered, List.tail_cons] at rest
      simpa [Subscription.poll, buffered] using rest
    | nil =>
      cases live : sub.live with
      | true => simpa [Subscription.poll, Subscription.pop, buffered, live] using asked
      | false => simpa [Subscription.poll, Subscription.pop, buffered, live] using asked

/-- What is left of a list when things are done one after the other, some of which take the first of
it. -/
theorem drop_countP_cons {β γ : Type} (takes : β → Bool) (first : β) (rest : List β)
    (items : List γ) :
    items.drop ((first :: rest).countP takes) =
      (if takes first then items.tail else items).drop (rest.countP takes) := by
  cases took : takes first with
  | false => simp [took]
  | true => simp [took]

/-- A number that no stream can get any more, and the updates that are left in the stream that has
it, which has ended. -/
structure Spent (world : World α) (id : Nat) (updates : List α) : Prop where
  old : id < world.nextId
  left : ∀ sub ∈ world.subscriptions, sub.id = id → sub.live = false ∧ sub.buffer = updates

theorem Spent.step {id : Nat} {updates : List α} (spent : world.Spent id updates)
    (h : world.WellFormed) (step : Step α) :
    (world.step forms step).2.2.Spent id (if step.takes id then updates.tail else updates) where
  old := by
    rw [step_nextId h]
    exact Nat.lt_add_right _ spent.old
  left := by
    intro after member same
    rcases (mem_step h).1 member with ⟨sub, before, -, rfl⟩ | new
    · obtain ⟨dead, rfl⟩ := spent.left sub before same
      obtain rfl : sub.id = id := same
      constructor
      · simp [changed, dead]
      · simp [changed, dead]
    · obtain ⟨n, key, -, rfl⟩ := of_mem_opened new
      exact absurd same (Nat.ne_of_gt spent.old)

/-- Nothing but taking changes what is left in a stream that has ended. -/
theorem Spent.run {id : Nat} {updates : List α} (spent : world.Spent id updates)
    (h : world.WellFormed) (steps : List (Step α)) :
    (world.run forms steps).Spent id (updates.drop (steps.countP (·.takes id))) := by
  induction steps generalizing world updates with
  | nil => exact spent
  | cons step steps ih =>
    rw [drop_countP_cons]
    exact ih (spent.step h step) (h.step step)

theorem WellFormed.spent (h : world.WellFormed) {sub : Subscription α}
    (member : sub ∈ world.subscriptions) (dead : sub.live = false) :
    world.Spent sub.id sub.buffer where
  old := h.fresh sub member
  left := by
    intro other among same
    rw [h.eq_of_id among member same]
    exact ⟨dead, rfl⟩

/-- A stream that gets nothing more, whatever happens, and tells that it has ended once what it has
buffered is taken. -/
def Ends (forms : Forms α) (world : World α) (sub : Subscription α) : Prop :=
  ∀ steps, ∀ later ∈ (world.run forms steps).subscriptions, later.id = sub.id →
    later.live = false ∧ later.buffer <:+ sub.buffer ∧
      (world.run forms steps).polls sub.id (later.buffer.length + 1) =
        later.buffer.map .item ++ [.ended]

/-- The stream of a subscription that is not live ends. -/
theorem WellFormed.ends (h : world.WellFormed) {sub : Subscription α}
    (member : sub ∈ world.subscriptions) (dead : sub.live = false) : world.Ends forms sub := by
  intro steps later among same
  obtain ⟨ended, left⟩ := ((h.spent member dead).run h steps).left later among same
  have suffix : later.buffer <:+ sub.buffer := left ▸ List.drop_suffix _ _
  have polled := polls_eq ((h.run forms steps).get?_of_mem among) 1
  rw [ended, same] at polled
  exact ⟨ended, suffix, polled⟩

end World

end Fanout
