import Fanout.Proofs.Bus.Streams

/-!
# Exact delivery

A record of a subscription is kept from the steps of a run and the answers to them alone, without
looking at the list of subscriptions: it is opened by the step that is answered with the
subscription's number, and from then on collects what is addressed to the subscription until a step
ends it, and what is taken from its stream. In every run, what was taken from a stream and what it
still has buffered are together what was addressed to its subscription (`exact_delivery`).
-/

namespace Fanout

variable {α : Type}

/-- What is known of a subscription from the steps of a run and their answers. -/
structure Record (α : Type) where
  notifier : Nat
  key : Key
  /-- Whether no step has ended the subscription. -/
  live : Bool := true
  /-- What was addressed to the subscription while it was live, oldest first. -/
  addressed : List α := []
  /-- What was taken from its stream, oldest first. -/
  taken : List α := []

/-- The update that an answer hands out. -/
def Answer.items : Answer α → List α
  | .polled (.item update) => [update]
  | _ => []

namespace Record

/-- A record after a step with its answer. -/
def after (forms : Forms α) (world : World α) (id : Nat) (step : Step α) (answer : Answer α)
    (record : Record α) : Record α :=
  { record with
    live := record.live && !step.ends id record.notifier record.key
    addressed :=
      record.addressed ++
        if record.live then world.addressed forms id record.notifier record.key step else []
    taken := record.taken ++ if step.takes id then answer.items else [] }

/-- A record that a step with its answer opens. -/
def opened? (id : Nat) : Step α → Answer α → Option (Record α)
  | .subscribe n key, .number i => if i = id then some { notifier := n, key } else none
  | _, _ => none

/-- Whether a record fits a subscription. -/
structure Fits (record : Record α) (sub : Subscription α) : Prop where
  notifier : record.notifier = sub.notifier
  key : record.key = sub.key
  live : record.live = sub.live
  exact : record.taken ++ sub.buffer = record.addressed

end Record

namespace World

variable {forms : Forms α} {world : World α}

/-- The record of the subscription with a number after a step, if there is one. -/
def recorded (forms : Forms α) (world : World α) (id : Nat) (step : Step α)
    (record? : Option (Record α)) : Option (Record α) :=
  match record? with
  | some record => some (record.after forms world id step (world.step forms step).1)
  | none => Record.opened? id step (world.step forms step).1

/-- The record of the subscription with a number after a run. -/
def chronicle (forms : Forms α) (id : Nat) :
    World α → Option (Record α) → List (Step α) → Option (Record α)
  | _, record?, [] => record?
  | world, record?, step :: steps =>
    chronicle forms id (world.step forms step).2.2 (world.recorded forms id step record?) steps

/-- Every subscription has a record that fits it, and nothing else has one. -/
structure Recorded (world : World α) (records : Nat → Option (Record α)) : Prop where
  wellFormed : world.WellFormed
  fits : ∀ sub ∈ world.subscriptions, ∃ record, records sub.id = some record ∧ record.Fits sub
  unopened : ∀ id, world.nextId ≤ id → records id = none

theorem recorded_empty : ({} : World α).Recorded fun _ => none where
  wellFormed := wellFormed_empty
  fits := by simp
  unopened := fun _ _ => rfl

/-- A stream that is asked for its next update hands out the first of its buffer. -/
theorem items_next (h : world.WellFormed) {sub : Subscription α}
    (member : sub ∈ world.subscriptions) :
    (world.next sub.id).1 = sub.poll := by
  rw [next, h.get?_of_mem member]

/-- Taking moves an update from the buffer of a stream to what was taken from it. -/
theorem items_append (forms : Forms α) (h : world.WellFormed) (step : Step α) {sub : Subscription α}
    (member : sub ∈ world.subscriptions) :
    ((if step.takes sub.id then (world.step forms step).1.items else []) ++
      if step.takes sub.id then sub.buffer.tail else sub.buffer) = sub.buffer := by
  cases step with
  | next id =>
    by_cases same : id = sub.id
    · subst same
      have answer : (world.step forms (.next sub.id)).1 = .polled sub.poll := by
        rw [← items_next h member]
        rfl
      rw [answer]
      simp only [Subscription.poll]
      cases sub.buffer with
      | nil => cases sub.live <;> simp [Answer.items, Step.takes]
      | cons first rest => simp [Answer.items, Step.takes]
    · simp [Step.takes, same]
  | _ => rfl

/-- A record that fits a subscription fits it after any step. -/
theorem fits_after (h : world.WellFormed) (step : Step α)
    {sub : Subscription α} (member : sub ∈ world.subscriptions) {record : Record α}
    (fits : record.Fits sub) :
    (record.after forms world sub.id step (world.step forms step).1).Fits
      (world.changed forms step sub) where
  notifier := fits.notifier
  key := fits.key
  live := by simp only [Record.after, changed, fits.live, fits.notifier, fits.key]
  exact := by
    have moved := items_append forms h step member
    simp only [Record.after, changed, fits.live, fits.notifier, fits.key]
    rw [← fits.exact, ← List.append_assoc, List.append_assoc record.taken, moved]

theorem Recorded.step {records : Nat → Option (Record α)} (h : world.Recorded records)
    (step : Step α) :
    (world.step forms step).2.2.Recorded
      fun id => world.recorded forms id step (records id) where
  wellFormed := h.wellFormed.step step
  fits := by
    intro after member
    rcases (mem_step h.wellFormed).1 member with ⟨sub, before, -, rfl⟩ | new
    · obtain ⟨record, at_, fits⟩ := h.fits sub before
      refine ⟨_, ?_, fits_after h.wellFormed step before fits⟩
      show world.recorded forms sub.id step (records sub.id) = _
      rw [at_]
      rfl
    · obtain ⟨n, key, rfl, rfl⟩ := of_mem_opened new
      refine ⟨{ notifier := n, key }, ?_, rfl, rfl, rfl, rfl⟩
      show world.recorded forms world.nextId (.subscribe n key) (records world.nextId) = _
      rw [h.unopened world.nextId (Nat.le_refl _)]
      simp [recorded, World.step, subscribe, Record.opened?]
  unopened := by
    intro id later
    rw [step_nextId h.wellFormed] at later
    have none_ : records id = none := h.unopened id (Nat.le_of_add_right_le later)
    show world.recorded forms id step (records id) = none
    rw [none_]
    cases step with
    | subscribe n key =>
      have other : world.nextId ≠ id := Nat.ne_of_lt later
      simp [recorded, World.step, subscribe, Record.opened?, other]
    | _ => rfl

/-- Records that fit before a run fit after it. -/
theorem Recorded.run {records : Nat → Option (Record α)} (h : world.Recorded records)
    (forms : Forms α) (steps : List (Step α)) :
    (world.run forms steps).Recorded
      fun id => chronicle forms id world (records id) steps := by
  induction steps generalizing world records with
  | nil => exact h
  | cons step steps ih => exact ih (h.step step)

/-- In every run and for every stream that still exists after it, the subscription was opened, and
what was taken from the stream so far followed by what is still buffered in it is exactly what the
steps addressed to the subscription, in their order, between its opening and its end. -/
theorem exact_delivery (forms : Forms α) (steps : List (Step α)) (sub : Subscription α)
    (member : sub ∈ (World.run forms {} steps).subscriptions) :
    ∃ record, chronicle forms sub.id {} none steps = some record ∧
      record.notifier = sub.notifier ∧ record.key = sub.key ∧ record.live = sub.live ∧
      record.taken ++ sub.buffer = record.addressed := by
  obtain ⟨record, at_, fits⟩ := (recorded_empty.run forms steps).fits sub member
  exact ⟨record, at_, fits.notifier, fits.key, fits.live, fits.exact⟩

/-- A notifier hears its own batch, of which one of two updates is for the subscription, and sends
it another update directly; the first of the two is taken. -/
def greeting : List (Step String) :=
  [.connect, .addNotifier 0 .messages, .listen 0, .subscribe 0 (.user 7),
    .publish 0 "welcome" [.user 7, .user 8], .notifySubscriber 0 "hello" 1, .next 1]

def greeted : Subscription String :=
  { id := 1, notifier := 0, key := .user 7, buffer := ["hello"] }

theorem exact_delivery_greeting :
    greeted ∈ (World.run (fun _ => .text) {} greeting).subscriptions ∧
      ∃ record, chronicle (fun _ => .text) 1 {} none greeting = some record ∧
        record.notifier = 0 ∧ record.key = .user 7 ∧ record.live = true ∧
        record.taken ++ ["hello"] = record.addressed := by
  have member : greeted ∈ (World.run (fun _ => .text) {} greeting).subscriptions := by
    decide +kernel
  exact ⟨member, exact_delivery (fun _ => .text) greeting greeted member⟩

end World

end Fanout
