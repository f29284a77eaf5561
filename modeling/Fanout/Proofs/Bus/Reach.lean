import Fanout.Proofs.Bus.Listening
import Fanout.Proofs.Places

/-!
# What a broadcast brings to a subscription

A payload that is handed to a notifier is read as a batch, and each of the notifier's live
subscriptions gets what the batch addresses to its key. A broadcast hands its payload to the
notifiers that hear it, to each of them once (`broadcast_snd`).
-/

namespace Fanout

variable {α : Type}

namespace Subscription

/-- A subscription that is live is one whose stream the consumer has not closed. -/
def IsOpen (sub : Subscription α) : Prop :=
  sub.live = true → sub.receiving = true

@[simp] theorem push_nil (sub : Subscription α) : sub.push [] = sub := by
  simp [push]

@[simp] theorem push_push (first second : List α) (sub : Subscription α) :
    (sub.push first).push second = sub.push (first ++ second) := by
  simp [push]

@[simp] theorem addressed_nil (key : Key) : addressed ([] : List (Notice α)) key = [] := rfl

theorem reachable_eq {sub : Subscription α} (h : sub.IsOpen) (n : Nat) :
    sub.reachable n = (sub.notifier == n && sub.live) := by
  simp only [reachable]
  cases live : sub.live with
  | false => simp
  | true => simp [h live]

end Subscription

namespace Subscriptions

theorem deliver_eq (n : Nat) (batch : List (Notice α)) (subs : Subscriptions α) :
    subs.deliver n batch =
      subs.map fun sub =>
        sub.push (if sub.reachable n then Subscription.addressed batch sub.key else []) := by
  apply List.map_congr_left
  intro sub _
  split <;> simp

@[simp] theorem deliver_nil (n : Nat) (subs : Subscriptions α) : subs.deliver n [] = subs := by
  simp [deliver_eq]

end Subscriptions

namespace World

variable {forms : Forms α} {world : World α}

/-- The batch that a notifier reads from a payload; without one it is empty. -/
def understood (forms : Forms α) (world : World α) (n : Nat) (payload : Bytes) :
    List (Notice α) :=
  match world.notifier? n with
  | some notifier => ((Notice.batch (forms notifier.topic)).decode? payload).getD []
  | none => []

/-- What a listener that is called with a payload brings to a subscription. -/
def relayed (forms : Forms α) (world : World α) (payload : Bytes) (sub : Subscription α) :
    Listener → List α
  | .recorder _ => []
  | .notifier n =>
    if sub.reachable n then Subscription.addressed (world.understood forms n payload) sub.key
    else []

@[simp] theorem relayed_push (forms : Forms α) (world : World α) (payload : Bytes)
    (updates : List α) (sub : Subscription α) (listener : Listener) :
    world.relayed forms payload (sub.push updates) listener =
      world.relayed forms payload sub listener := rfl

/-- What a listener brings depends on the notifiers and on nothing else in the world. -/
@[simp] theorem relayed_subscriptions (forms : Forms α) (world : World α)
    (subscriptions : Subscriptions α) :
    ({ world with subscriptions } : World α).relayed forms = world.relayed forms := rfl

theorem notifyPayload_deliver (forms : Forms α) (world : World α) (n : Nat) (payload : Bytes) :
    world.notifyPayload forms n payload =
      { world with
        subscriptions := world.subscriptions.deliver n (world.understood forms n payload) } := by
  simp only [notifyPayload, understood]
  cases world.notifier? n with
  | none => simp
  | some notifier =>
    dsimp only
    cases (Notice.batch (forms notifier.topic)).decode? payload with
    | none => simp
    | some batch => rfl

theorem notifyPayload_eq (forms : Forms α) (world : World α) (n : Nat) (payload : Bytes) :
    world.notifyPayload forms n payload =
      { world with
        subscriptions :=
          world.subscriptions.map fun sub =>
            sub.push (world.relayed forms payload sub (.notifier n)) } := by
  rw [notifyPayload_deliver, Subscriptions.deliver_eq]
  rfl

theorem callNotifiers_eq (forms : Forms α) (payload : Bytes) (targets : List (Nat × Listener))
    (world : World α) :
    callNotifiers forms payload targets world =
      { world with
        subscriptions :=
          world.subscriptions.map fun sub =>
            sub.push (targets.flatMap fun target =>
              world.relayed forms payload sub target.2) } := by
  simp only [callNotifiers]
  induction targets generalizing world with
  | nil => simp
  | cons target targets ih =>
    rw [List.foldl_cons, ih]
    obtain ⟨p, listener⟩ := target
    cases listener with
    | recorder tag => rfl
    | notifier n => simp [notifyPayload_eq]

/-- Whether a batch that a process broadcasts on a topic is handed to a notifier: the process and
the notifier's own are connected to the same bus, and the notifier is the listener there. -/
def hears (world : World α) (p : Nat) (topic : Topic) (n : Nat) : Bool :=
  match world.processes[p]?, world.notifier? n with
  | some sender, some notifier =>
    match world.processes[notifier.process]? with
    | some receiver =>
      sender.connected && receiver.bus == sender.bus && receiver.connected &&
        Table.get? receiver.listeners topic == some (.notifier n)
    | none => false
  | _, _ => false

theorem hears_iff {p n : Nat} {topic : Topic} :
    world.hears p topic n = true ↔
      ∃ sender notifier receiver, world.processes[p]? = some sender ∧
        world.notifier? n = some notifier ∧
        world.processes[notifier.process]? = some receiver ∧ sender.connected = true ∧
        receiver.bus = sender.bus ∧ receiver.connected = true ∧
        Table.get? receiver.listeners topic = some (.notifier n) := by
  simp only [hears]
  constructor
  · intro h
    split at h
    next sender notifier atSender found =>
      split at h
      next receiver atReceiver =>
        simp only [Bool.and_eq_true, beq_iff_eq] at h
        obtain ⟨⟨⟨sends, bus⟩, receives⟩, listed⟩ := h
        exact ⟨sender, notifier, receiver, atSender, found, atReceiver, sends, bus, receives,
          listed⟩
      next => cases h
    next => cases h
  · rintro ⟨sender, notifier, receiver, atSender, found, atReceiver, sends, bus, receives, listed⟩
    simp [atSender, found, atReceiver, sends, bus, receives, listed]

/-- A notifier hears only batches on its own topic. -/
theorem notifier?_of_hears (home : world.ListensAtHome) {p n : Nat} {topic : Topic}
    (h : world.hears p topic n = true) :
    ∃ notifier, world.notifier? n = some notifier ∧ notifier.topic = topic := by
  obtain ⟨-, notifier, receiver, -, found, at_, -, -, -, listed⟩ := hears_iff.1 h
  obtain ⟨owner, owned, -, topic⟩ :=
    home notifier.process topic n (by simp [listener?, at_, listed])
  rw [(notifier?_eq_some.1 found).1, Option.some.injEq] at owned
  exact ⟨notifier, found, owned ▸ topic⟩

theorem isHeld_of_notifier? {n : Nat} {notifier : Notifier}
    (h : world.notifier? n = some notifier) (process : notifier.process < world.processes.length) :
    world.isHeld notifier.process = true := by
  have ⟨at_, present⟩ := notifier?_eq_some.1 h
  rw [isHeld, List.getElem?_eq_getElem process]
  simp only [Bool.or_eq_true, List.any_eq_true, Bool.and_eq_true, beq_iff_eq]
  exact .inr ⟨notifier, List.mem_of_getElem? at_, rfl, by simpa using present⟩

theorem relayed_eq (payload : Bytes) {sub : Subscription α} (h : sub.IsOpen)
    (listener : Listener) :
    world.relayed forms payload sub listener =
      if sub.live = true ∧ listener = .notifier sub.notifier then
        Subscription.addressed (world.understood forms sub.notifier payload) sub.key
      else [] := by
  cases listener with
  | recorder tag => simp [relayed]
  | notifier n =>
    rw [relayed, Subscription.reachable_eq h]
    by_cases same : sub.notifier = n
    · subst same
      simp
    · simp [same, Ne.symm same]

/-- What a payload that a process broadcasts on a topic brings to a subscription. -/
def brought (forms : Forms α) (world : World α) (p : Nat) (topic : Topic) (payload : Bytes)
    (n : Nat) (key : Key) : List α :=
  if world.hears p topic n then Subscription.addressed (world.understood forms n payload) key
  else []

/-- Whom a bus calls in one process. -/
def target? (world : World α) (bus : Nat) (topic : Topic) (p : Nat) : Option (Nat × Listener) :=
  match world.processes[p]? with
  | some process =>
    if process.bus == bus && process.connected && world.isHeld p then
      (Table.get? process.listeners topic).map (p, ·)
    else
      none
  | none => none

theorem targets_eq (bus : Nat) (topic : Topic) :
    world.targets bus topic =
      (List.range world.processes.length).filterMap (world.target? bus topic) := rfl

theorem hears_eq {p n : Nat} {process : Process} {notifier : Notifier}
    (at_ : world.processes[p]? = some process) (connected : process.connected = true)
    (found : world.notifier? n = some notifier) (topic : Topic) :
    world.hears p topic n =
      decide (world.target? process.bus topic notifier.process =
        some (notifier.process, .notifier n)) := by
  unfold hears target?
  rw [at_, found]
  dsimp only
  cases at' : world.processes[notifier.process]? with
  | none => simp
  | some receiver =>
    have inside := (List.getElem?_eq_some_iff.1 at').1
    rw [Bool.eq_iff_iff]
    simp [isHeld_of_notifier? found inside, connected]

/-- A notifier is found in its own process or not at all. -/
theorem process_of_target? (home : world.ListensAtHome) {bus p n : Nat} {topic : Topic}
    {notifier : Notifier} (found : world.notifier? n = some notifier) {target : Nat × Listener}
    (h : world.target? bus topic p = some target) (same : target.2 = .notifier n) :
    p = notifier.process := by
  simp only [target?] at h
  split at h
  next process at_ =>
    split at h
    · obtain ⟨listener, listed, rfl⟩ := Option.map_eq_some_iff.1 h
      obtain rfl : listener = .notifier n := same
      obtain ⟨owner, owned, rfl, -⟩ := home p topic n (by simp [listener?, at_, listed])
      rw [(notifier?_eq_some.1 found).1] at owned
      rw [Option.some.inj owned]
    · contradiction
  next => contradiction

/-- Going through the targets of a bus finds the notifier of a subscription once if it hears the
broadcast, and otherwise not at all. -/
theorem flatMap_targets (home : world.ListensAtHome) {p : Nat} {process : Process}
    (at_ : world.processes[p]? = some process) (connected : process.connected = true)
    (topic : Topic) (payload : Bytes) {sub : Subscription α} (h : sub.IsOpen) :
    ((world.targets process.bus topic).flatMap fun target =>
        world.relayed forms payload sub target.2) =
      if sub.live then world.brought forms p topic payload sub.notifier sub.key else [] := by
  simp only [relayed_eq payload h]
  cases live : sub.live with
  | false => simp
  | true =>
    simp only [brought]
    cases found : world.notifier? sub.notifier with
    | none => simp [understood, found]
    | some notifier =>
      have elsewhere : ∀ q, q ≠ notifier.process → ∀ target,
          world.target? process.bus topic q = some target → target.2 ≠ .notifier sub.notifier :=
        fun q differs target h same => differs (process_of_target? home found h same)
      have outside : ¬ notifier.process < world.processes.length →
          world.target? process.bus topic notifier.process = none := by
        intro outside
        rw [target?, List.getElem?_eq_none (Nat.not_lt.1 outside)]
      have here : ∀ target, world.target? process.bus topic notifier.process = some target →
          target.1 = notifier.process := by
        intro target h
        simp only [target?] at h
        split at h
        · split at h
          · obtain ⟨listener, -, rfl⟩ := Option.map_eq_some_iff.1 h
            rfl
          · contradiction
        · contradiction
      rw [hears_eq at_ connected found, targets_eq, flatMap_filterMap,
        flatMap_range_eq _ notifier.process]
      · cases target : world.target? process.bus topic notifier.process with
        | none => simp
        | some target' =>
          rw [if_pos (Decidable.byContradiction fun h => by simp [outside h] at target)]
          have first := here target' target
          obtain ⟨q, listener⟩ := target'
          simp_all
      · intro q differs
        cases target : world.target? process.bus topic q with
        | none => rfl
        | some target' => simp [elsewhere q differs target' target]

/-- A process that is connected to its bus adds one to the batches that reached it. -/
theorem broadcast_snd (home : world.ListensAtHome) (opens : ∀ sub ∈ world.subscriptions, sub.IsOpen)
    (forms : Forms α) (p : Nat) (topic : Topic) (payload : Bytes) :
    ∃ buses, (world.broadcast forms p topic payload).2 =
      { world with
        buses
        subscriptions :=
          world.subscriptions.map fun sub =>
            sub.push
              (if sub.live then world.brought forms p topic payload sub.notifier sub.key
              else []) } := by
  simp only [broadcast]
  cases at_ : world.processes[p]? with
  | none => exact ⟨world.buses, by simp [brought, hears, at_]⟩
  | some process =>
    cases connected : process.connected with
    | false =>
      have silent : ∀ n, world.hears p topic n = false := by
        intro n
        rw [hears, at_]
        cases world.notifier? n with
        | none => rfl
        | some notifier =>
          simp only [connected, Bool.false_and]
          split <;> rfl
      exact ⟨world.buses, by simp [brought, silent, connected]⟩
    | true =>
      refine ⟨world.buses.modify process.bus (· + 1), ?_⟩
      simp only [connected, if_true, callNotifiers_eq]
      congr 1
      apply List.map_congr_left
      intro sub member
      rw [← flatMap_targets home at_ connected topic payload (opens sub member)]
      rfl

end World

end Fanout
