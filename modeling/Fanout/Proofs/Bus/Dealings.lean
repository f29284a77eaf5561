import Fanout.Proofs.Bus.Halves
import Fanout.Proofs.Bus.Ownership

/-!
# A switchboard along with a world

A switchboard goes along with a world: it is told which notifiers are made and dropped, which
batches the buses bring to notifiers, and what clients do with their subscriptions and streams.
Whatever is done, no mishap occurs, and the subscriptions of the world say exactly what is in the
switchboard (`switchboard_dealAll`).
-/

namespace Fanout

variable {α : Type}

inductive Dealing (α : Type)
  | step (step : Step α)
  /-- Hands a batch to a notifier as it is. -/
  | notify (n : Nat) (batch : List (Notice α))

namespace Dealing

/-- Whether it ends a subscription, given by number, notifier and key. -/
def ends (id n : Nat) (key : Key) : Dealing α → Bool
  | .step taken => taken.ends id n key
  | .notify .. => false

def takes (id : Nat) : Dealing α → Bool
  | .step taken => taken.takes id
  | .notify .. => false

def drops (id : Nat) : Dealing α → Bool
  | .step taken => taken.drops id
  | .notify .. => false

/-- The notifier that is asked for a subscription. -/
def asked? : Dealing α → Option Nat
  | .step (.subscribe n _) => some n
  | _ => none

end Dealing

namespace World

variable {forms : Forms α} {world : World α}

def deal (forms : Forms α) (world : World α) : Dealing α → World α
  | .step step => (world.step forms step).2.2
  | .notify n batch => { world with subscriptions := world.subscriptions.deliver n batch }

def dealAll (forms : Forms α) (world : World α) (dealings : List (Dealing α)) : World α :=
  dealings.foldl (deal forms) world

/-- Whether subscriptions are asked for only at notifiers that are there. -/
def orderly (forms : Forms α) : World α → List (Dealing α) → Bool
  | _, [] => true
  | world, dealing :: dealings =>
    dealing.asked?.all (fun n => (world.notifier? n).isSome) &&
      orderly forms (world.deal forms dealing) dealings

/-- The batches that a broadcast brings to notifiers, in order. -/
def called (forms : Forms α) (world : World α) (p : Nat) (topic : Topic) (payload : Bytes) :
    List (Nat × List (Notice α)) :=
  match world.processes[p]? with
  | some process =>
    if process.connected then
      (world.targets process.bus topic).filterMap fun target =>
        match target.2 with
        | .recorder _ => none
        | .notifier n => some (n, world.understood forms n payload)
    else []
  | none => []

/-- The batches that publishing brings to notifiers, in order. -/
def calledBy (forms : Forms α) (world : World α) (n : Nat) (update : α) (keys : List Key) :
    List (Nat × List (Notice α)) :=
  match world.notifier? n with
  | some sender =>
    if keys.isEmpty then []
    else
      world.called forms sender.process sender.topic
        ((Notice.batch (forms sender.topic)).encode (Notice.toEach update keys))
  | none => []

end World

namespace Switchboard

/-- What a step of a world does to a switchboard. The world tells only which notifiers are called
with what. -/
def step (forms : Forms α) (world : World α) (board : Switchboard α) :
    Step α → List Mishap × Switchboard α
  | .addNotifier _ _ => ([], board.attach)
  | .dropNotifier n => ([], board.detach n)
  | .subscribe n key => board.subscribe n key
  | .unsubscribe n condition => ([], (board.unsubscribe n condition).2)
  | .shutdown n => ([], (board.unsubscribe n fun _ _ => true).2)
  | .broadcast p topic payload => board.deliverEach (world.called forms p topic payload)
  | .publish n update keys => board.deliverEach (world.calledBy forms n update keys)
  | .notifyPayload n payload => board.deliver n (world.understood forms n payload)
  | .notifySubscriber n update id => (board.deliverTo n id update).2
  | .notifyOrPublish n update id key =>
    let (sent, mishaps, board) := board.deliverTo n id update
    if sent then (mishaps, board)
    else
      let (more, board) := board.deliverEach (world.calledBy forms n update [key])
      (mishaps ++ more, board)
  | .next id => ([], (board.next id).2)
  | .close id => ([], board.close id)
  | .dropStream id => ([], board.drop id)
  | .connect | .standalone | .release _ | .disconnect _ | .reconnect _ | .record .. | .unrecord ..
  | .listen _ => ([], board)

def deal (forms : Forms α) (world : World α) (board : Switchboard α) :
    Dealing α → List Mishap × Switchboard α
  | .step step => board.step forms world step
  | .notify n batch => board.deliver n batch

/-- What a list of dealings does to a switchboard that goes along with a world. -/
def dealAll (forms : Forms α) : World α → Switchboard α → List (Dealing α) →
    List Mishap × Switchboard α
  | _, board, [] => ([], board)
  | world, board, dealing :: dealings =>
    let (mishaps, board) := board.deal forms world dealing
    let (more, board) := dealAll forms (world.deal forms dealing) board dealings
    (mishaps ++ more, board)

end Switchboard

namespace World

variable {forms : Forms α} {world : World α}

def gone (world : World α) : List Bool :=
  world.notifiers.map Notifier.dropped

/-- What the subscriptions of a world say about registries and streams. -/
def switchboard (world : World α) : Switchboard α :=
  world.subscriptions.board world.gone world.nextId

theorem gone_eq_false {n : Nat} :
    world.gone[n]? = some false ↔ (world.notifier? n).isSome = true := by
  simp only [gone, List.getElem?_map, notifier?]
  cases world.notifiers[n]? with
  | none => simp
  | some notifier => cases dropped : notifier.dropped <;> simp [dropped]

/-- A well-formed world in which live subscriptions belong to notifiers that are there. -/
structure Manned (world : World α) : Prop where
  wellFormed : world.WellFormed
  manned : ∀ sub ∈ world.subscriptions, sub.live = true → world.gone[sub.notifier]? = some false

theorem manned_empty : ({} : World α).Manned where
  wellFormed := wellFormed_empty
  manned := by simp

theorem Manned.attached (h : world.Manned) : world.subscriptions.Attached world.gone where
  opens := h.wellFormed.opens
  distinct := h.wellFormed.distinct
  manned := h.manned

theorem gone_step (h : world.WellFormed) (forms : Forms α) (step : Step α) :
    (world.step forms step).2.2.gone =
      match step with
      | .addNotifier _ _ => world.gone ++ [false]
      | .dropNotifier n => world.gone.modify n fun _ => true
      | _ => world.gone := by
  have marked := map_notifiers_step Notifier.dropped (fun _ _ => rfl) h forms step
  cases step with
  | dropNotifier n =>
    have kept := map_notifiers_shutdown Notifier.dropped (fun _ _ => rfl) world n
    refine marked.trans ?_
    rw [gone, ← kept]
    apply List.ext_getElem?
    intro m
    simp only [List.getElem?_map, List.getElem?_modify]
    cases (world.shutdown n).notifiers[m]? with
    | none => rfl
    | some notifier => by_cases same : n = m <;> simp [same]
  | _ => exact marked

theorem broadcast_subscriptions (forms : Forms α) (world : World α) (p : Nat) (topic : Topic)
    (payload : Bytes) :
    (world.broadcast forms p topic payload).2.subscriptions =
      (world.called forms p topic payload).foldl (fun subs call => subs.deliver call.1 call.2)
        world.subscriptions := by
  -- Which batch a notifier understands does not depend on subscriptions, and nothing else changes.
  have each : ∀ (targets : List (Nat × Listener)) (other : World α),
      other.notifiers = world.notifiers →
      (callNotifiers forms payload targets other).subscriptions =
        (targets.filterMap fun target =>
          match target.2 with
          | .recorder _ => none
          | .notifier n => some (n, world.understood forms n payload)).foldl
            (fun subs call => subs.deliver call.1 call.2) other.subscriptions := by
    intro targets
    induction targets with
    | nil => exact fun _ _ => rfl
    | cons target targets ih =>
      intro other same
      obtain ⟨q, listener⟩ := target
      cases listener with
      | recorder tag => exact ih other same
      | notifier n =>
        have understood_ : other.understood forms n payload = world.understood forms n payload := by
          simp only [understood, notifier?, same]
        have next := ih (other.notifyPayload forms n payload) (by rw [notifyPayload_deliver, same])
        rw [callNotifiers, List.foldl_cons, ← callNotifiers, next, notifyPayload_deliver,
          understood_]
        rfl
  unfold broadcast called
  cases world.processes[p]? with
  | none => rfl
  | some process =>
    cases connected : process.connected with
    | false => simp [connected]
    | true =>
      simp only [connected, if_true]
      exact each _ _ rfl

theorem publish_subscriptions (forms : Forms α) (world : World α) (n : Nat) (update : α)
    (keys : List Key) :
    (world.publish forms n update keys).2.subscriptions =
      (world.calledBy forms n update keys).foldl (fun subs call => subs.deliver call.1 call.2)
        world.subscriptions := by
  unfold publish calledBy
  cases world.notifier? n with
  | none => rfl
  | some sender =>
    cases keys.isEmpty with
    | true => rfl
    | false => exact broadcast_subscriptions forms world sender.process sender.topic _

theorem switchboard_of {gone : List Bool} {subs : Subscriptions α} {nextId : Nat}
    (sameGone : world.gone = gone) (sameSubs : world.subscriptions = subs)
    (sameId : world.nextId = nextId) : world.switchboard = subs.board gone nextId := by
  rw [switchboard, sameGone, sameSubs, sameId]

/-- A direct delivery succeeds in the registry when it does in the world. -/
theorem Manned.deliverTo_switchboard (h : world.Manned) (n id : Nat) (update : α) :
    world.switchboard.deliverTo n id update =
      match world.notifySubscriber n update id with
      | .ok delivered => (true, [], delivered.switchboard)
      | .error _ => (false, [], world.switchboard) := by
  rw [switchboard, Subscriptions.deliverTo_board h.attached, notifySubscriber]
  cases world.subscriptions.deliverTo? n id update <;> rfl

/-- The registries of the notifiers that are called deliver what the world does. -/
theorem Manned.publish_switchboard (h : world.Manned) (forms : Forms α) (n : Nat) (update : α)
    (keys : List Key) :
    world.switchboard.deliverEach (world.calledBy forms n update keys) =
      ([], (world.publish forms n update keys).2.switchboard) := by
  have after := switchboard_of (gone_step h.wellFormed forms (.publish n update keys))
    (publish_subscriptions forms world n update keys)
    (step_nextId h.wellFormed (.publish n update keys))
  exact (Subscriptions.deliverEach_board h.attached world.nextId _).trans
    (congrArg (Prod.mk []) after.symm)

theorem Manned.notifySubscriber_switchboard (h : world.Manned) (forms : Forms α) (n : Nat)
    (update : α) (id : Nat) :
    world.switchboard.step forms world (.notifySubscriber n update id) =
      ([], (world.step forms (.notifySubscriber n update id)).2.2.switchboard) := by
  rw [Switchboard.step, h.deliverTo_switchboard, World.step]
  cases world.notifySubscriber n update id <;> rfl

/-- What the registry refuses is published, as it is in the world. -/
theorem Manned.notifyOrPublish_switchboard (h : world.Manned) (forms : Forms α) (n : Nat)
    (update : α) (id : Nat) (key : Key) :
    world.switchboard.step forms world (.notifyOrPublish n update id key) =
      ([], (world.notifyOrPublish forms n update id key).2.switchboard) := by
  rw [Switchboard.step, h.deliverTo_switchboard, notifyOrPublish]
  cases world.notifySubscriber n update id with
  | ok delivered => rfl
  | error fault => simp [h.publish_switchboard]

theorem Manned.next_switchboard (h : world.Manned) (id : Nat) :
    world.switchboard.next id = ((world.next id).1, (world.next id).2.switchboard) := by
  rw [switchboard, Subscriptions.next_board h.attached, next]
  cases world.subscriptions.get? id <;> rfl

/-- Steps of a world and of its switchboard go together. -/
theorem switchboard_step (h : world.Manned) (step : Step α)
    (there : ∀ n key, step = .subscribe n key → (world.notifier? n).isSome = true)
    (room : world.nextId + (world.opened step).length ≤ UInt64.size) :
    world.switchboard.step forms world step = ([], (world.step forms step).2.2.switchboard) := by
  have attached := h.attached
  -- Only three parts of the world show in the switchboard, and two of them are known for any step.
  have after := fun subs (same : (world.step forms step).2.2.subscriptions = subs) =>
    switchboard_of (gone_step h.wellFormed forms step) same (step_nextId h.wellFormed step)
  cases step with
  | connect | standalone | release | disconnect | reconnect | unrecord =>
    exact congrArg (Prod.mk []) (after world.subscriptions rfl).symm
  | record p topic tag =>
    obtain ⟨processes, eq⟩ := world.register_snd p topic (.recorder tag)
    exact congrArg (Prod.mk []) (after world.subscriptions (by simp [World.step, eq])).symm
  | listen n =>
    obtain ⟨processes, notifiers, eq⟩ := world.listen_snd n
    exact congrArg (Prod.mk []) (after world.subscriptions (by simp [World.step, eq])).symm
  | addNotifier p topic =>
    rw [after world.subscriptions rfl]
    exact congrArg (Prod.mk []) (Subscriptions.attach_board attached world.nextId)
  | dropNotifier n =>
    rw [after _ (world.shutdown_remove n)]
    exact congrArg (Prod.mk []) (Subscriptions.detach_board world.gone _ world.nextId n)
  | shutdown n =>
    rw [after _ (world.shutdown_remove n), switchboard, Switchboard.step,
      Subscriptions.unsubscribe_board attached]
    rfl
  | subscribe n key =>
    rw [after _ rfl]
    exact Subscriptions.subscribe_board key (gone_eq_false.2 (there n key rfl))
      h.wellFormed.fresh room
  | unsubscribe n condition =>
    rw [after _ rfl, switchboard, Switchboard.step, Subscriptions.unsubscribe_board attached]
    rfl
  | broadcast p topic payload =>
    rw [after _ (broadcast_subscriptions forms world p topic payload)]
    exact Subscriptions.deliverEach_board attached world.nextId _
  | publish n update keys => exact h.publish_switchboard forms n update keys
  | notifyPayload n payload =>
    rw [after _ (congrArg subscriptions (notifyPayload_deliver forms world n payload))]
    exact Subscriptions.deliver_board attached world.nextId n _
  | notifySubscriber n update id => exact h.notifySubscriber_switchboard forms n update id
  | notifyOrPublish n update id key => exact h.notifyOrPublish_switchboard forms n update id key
  | next id => exact congrArg (fun answer => ([], answer.2)) (h.next_switchboard id)
  | close id =>
    rw [after _ rfl]
    exact congrArg (Prod.mk []) (Subscriptions.close_board attached world.nextId id)
  | dropStream id =>
    rw [after _ rfl]
    exact congrArg (Prod.mk []) (Subscriptions.drop_board attached world.nextId id)

/-- A notifier is there until it is dropped, which ends its subscriptions. -/
theorem gone_eq_false_step (h : world.WellFormed) {step : Step α} {id n : Nat} {key : Key}
    (present : world.gone[n]? = some false) (kept : step.ends id n key = false) :
    (world.step forms step).2.2.gone[n]? = some false := by
  rw [gone_step h]
  cases step with
  | addNotifier p topic =>
    have inside := (List.getElem?_eq_some_iff.1 present).1
    simpa [List.getElem?_append_left inside] using present
  | dropNotifier m =>
    have other : m ≠ n := by simpa [Step.ends] using kept
    simpa [List.getElem?_modify, other] using present
  | _ => exact present

theorem Manned.step (h : world.Manned) (step : Step α)
    (there : ∀ n key, step = .subscribe n key → (world.notifier? n).isSome = true) :
    (world.step forms step).2.2.Manned where
  wellFormed := h.wellFormed.step step
  manned := by
    intro after member live
    rcases (mem_step h.wellFormed).1 member with ⟨sub, before, -, rfl⟩ | new
    · have kept : sub.live = true ∧ step.ends sub.id sub.notifier sub.key = false := by
        simpa [changed] using live
      exact gone_eq_false_step h.wellFormed (h.manned sub before kept.1) kept.2
    · obtain ⟨n, key, rfl, rfl⟩ := of_mem_opened new
      rw [gone_step h.wellFormed]
      exact gone_eq_false.2 (there n key rfl)

theorem WellFormed.deal (h : world.WellFormed) (forms : Forms α) (dealing : Dealing α) :
    (world.deal forms dealing).WellFormed := by
  cases dealing with
  | step taken => exact h.step taken
  | notify n batch =>
    refine ⟨h.home.of_eq rfl rfl, ?_, ?_, ?_⟩
    · simpa [World.deal, Subscriptions.deliver_eq, Subscription.IsOpen, Subscription.push]
        using h.opens
    · simpa [World.deal, Subscriptions.deliver_eq, Function.comp_def, Subscription.push]
        using h.distinct
    · simpa [World.deal, Subscriptions.deliver_eq, Subscription.push] using h.fresh

theorem WellFormed.dealAll (h : world.WellFormed) (forms : Forms α) (dealings : List (Dealing α)) :
    (world.dealAll forms dealings).WellFormed := by
  induction dealings generalizing world with
  | nil => exact h
  | cons dealing dealings ih => exact ih (h.deal forms dealing)

theorem Manned.deal (h : world.Manned) (forms : Forms α) (dealing : Dealing α)
    (there : ∀ n ∈ dealing.asked?, (world.notifier? n).isSome = true) :
    (world.deal forms dealing).Manned := by
  cases dealing with
  | step taken =>
    apply h.step taken
    rintro n key rfl
    exact there n rfl
  | notify n batch => exact ⟨h.wellFormed.deal forms _, (h.attached.deliver n batch).manned⟩

theorem nextId_deal (h : world.WellFormed) (forms : Forms α) (dealing : Dealing α) :
    (world.deal forms dealing).nextId = world.nextId + if dealing.asked?.isSome then 1 else 0 := by
  cases dealing with
  | notify n batch => rfl
  | step taken =>
    rw [deal, step_nextId h]
    cases taken <;> rfl

/-- Dealings with a world and with its switchboard go together. -/
theorem switchboard_deal (h : world.Manned) (dealing : Dealing α)
    (there : ∀ n ∈ dealing.asked?, (world.notifier? n).isSome = true)
    (room : (world.deal forms dealing).nextId ≤ UInt64.size) :
    world.switchboard.deal forms world dealing = ([], (world.deal forms dealing).switchboard) := by
  cases dealing with
  | step taken =>
    apply switchboard_step h taken
    · rintro n key rfl
      exact there n rfl
    · rwa [deal, step_nextId h.wellFormed] at room
  | notify n batch => exact Subscriptions.deliver_board h.attached world.nextId n batch

/-- While a world has a list of dealings done with it, no mishap occurs, and it ends with what its
subscriptions say about registries and streams. -/
theorem switchboard_dealAll (h : world.Manned) {dealings : List (Dealing α)}
    (there : orderly forms world dealings = true)
    (few : world.nextId + dealings.countP (·.asked?.isSome) ≤ UInt64.size) :
    (world.dealAll forms dealings).Manned ∧
      Switchboard.dealAll forms world world.switchboard dealings =
        ([], (world.dealAll forms dealings).switchboard) := by
  induction dealings generalizing world with
  | nil => exact ⟨h, rfl⟩
  | cons dealing dealings ih =>
    obtain ⟨asked, later⟩ := Bool.and_eq_true_iff.1 there
    have first : ∀ n ∈ dealing.asked?, (world.notifier? n).isSome = true := by
      intro n here
      rwa [Option.mem_def.1 here] at asked
    have number := nextId_deal h.wellFormed forms dealing
    have room : (world.deal forms dealing).nextId + dealings.countP (·.asked?.isSome) ≤
        UInt64.size := by
      rw [List.countP_cons] at few
      rw [number]
      omega
    obtain ⟨manned, rest⟩ := ih (h.deal forms dealing first) later room
    refine ⟨manned, ?_⟩
    rw [Switchboard.dealAll, switchboard_deal h dealing first (Nat.le_of_add_right_le room)]
    simp only [rest]
    rfl

/-- What a run from the empty world does to the empty switchboard. -/
theorem switchboard_of_run {dealings : List (Dealing α)} (there : orderly forms {} dealings = true)
    (few : dealings.countP (·.asked?.isSome) < UInt64.size) :
    (dealAll forms {} dealings).Manned ∧
      Switchboard.dealAll forms {} {} dealings = ([], (dealAll forms {} dealings).switchboard) := by
  have room : ({} : World α).nextId + dealings.countP (·.asked?.isSome) ≤ UInt64.size := by
    rw [Nat.add_comm]
    exact few
  exact switchboard_dealAll manned_empty there room

end World

end Fanout
