import Fanout.Proofs.Bus.Ownership

/-!
# What listens is there

Listeners may be removed by hand, so a notifier may believe that it owns a listener that is not its
own any more. The other direction holds in every run: a notifier that is registered as a listener
owns it and was not dropped (`Attended.run`, `Attended.notifier?_of_listener?`).
-/

namespace Fanout.World

variable {α : Type} {forms : Forms α} {world other : World α}

/-- A notifier that is registered owns its listener, and one that was dropped owns none. -/
structure Attended (world : World α) : Prop where
  owns : ∀ (p : Nat) (topic : Topic) (n : Nat) (notifier : Notifier),
    world.listener? p topic = some (.notifier n) → world.notifiers[n]? = some notifier →
      notifier.ownsListener = true
  released : ∀ (n : Nat) (notifier : Notifier), world.notifiers[n]? = some notifier →
    notifier.dropped = true → notifier.ownsListener = false

/-- Fewer listeners are attended too. -/
theorem Attended.mono (h : world.Attended)
    (listeners : ∀ p topic n, other.listener? p topic = some (.notifier n) →
      world.listener? p topic = some (.notifier n))
    (notifiers : other.notifiers = world.notifiers) : other.Attended where
  owns p topic n notifier listens at_ :=
    h.owns p topic n notifier (listeners p topic n listens) (notifiers ▸ at_)
  released n notifier at_ := h.released n notifier (notifiers ▸ at_)

/-- A notifier that is registered was not dropped. -/
theorem Attended.notifier?_of_listener? (h : world.Attended) (home : world.ListensAtHome)
    {p n : Nat} {topic : Topic} (listens : world.listener? p topic = some (.notifier n)) :
    ∃ notifier, world.notifier? n = some notifier ∧ notifier.process = p ∧
      notifier.topic = topic := by
  obtain ⟨notifier, at_, process, own⟩ := home p topic n listens
  have owner := h.owns p topic n notifier listens at_
  have kept : notifier.dropped = false := by
    cases dropped : notifier.dropped with
    | false => rfl
    | true => simp [h.released n notifier at_ dropped] at owner
  exact ⟨notifier, notifier?_eq_some.2 ⟨at_, kept⟩, process, own⟩

theorem Attended.modifyProcess (h : world.Attended) (p : Nat) (change : Process → Process)
    (keeps : ∀ process, (change process).listeners = process.listeners) :
    (world.modifyProcess p change).Attended := by
  refine h.mono (fun q topic n listens => ?_) rfl
  rw [listener?_modifyProcess] at listens
  refine Eq.trans (congrArg (Option.bind world.processes[q]?) (funext fun process => ?_)) listens
  split
  · rw [keeps]
  · rfl

theorem Attended.addProcess (h : world.Attended) (bus : Nat) (buses : List Nat) :
    ({ world with buses, processes := world.processes ++ [{ bus }] } : World α).Attended := by
  refine h.mono (fun p topic n listens => ?_) rfl
  obtain ⟨process, at_, listed⟩ := Option.bind_eq_some_iff.1 listens
  rcases getElem?_concat_eq_some.1 at_ with old | ⟨-, rfl⟩
  · exact Option.bind_eq_some_iff.2 ⟨process, old, listed⟩
  · cases listed

theorem Attended.record (h : world.Attended) (p : Nat) (topic : Topic) (tag : String) :
    (world.register p topic (.recorder tag)).2.Attended := by
  refine h.mono (fun q followed n listens => ?_) (register_notifiers world p topic _)
  rw [listener?_register] at listens
  split at listens
  · cases listens
  · exact listens

theorem Attended.unregister (h : world.Attended) (p : Nat) (topic : Topic) :
    (world.unregister p topic).Attended := by
  refine h.mono (fun q followed n listens => ?_) rfl
  rw [listener?_unregister] at listens
  split at listens
  · cases listens
  · exact listens

theorem Attended.addNotifier (h : world.Attended) (home : world.ListensAtHome) (p : Nat)
    (topic : Topic) : (world.addNotifier p topic).Attended where
  owns q followed n notifier listens at_ := by
    obtain ⟨present, at', -, -⟩ := home q followed n listens
    rcases getElem?_concat_eq_some.1 at_ with old | ⟨rfl, -⟩
    · exact h.owns q followed n notifier listens old
    · simp at at'
  released n notifier at_ dropped := by
    rcases getElem?_concat_eq_some.1 at_ with old | ⟨-, rfl⟩
    · exact h.released n notifier old dropped
    · rfl

theorem Attended.listen (h : world.Attended) (n : Nat) : (world.listen n).2.Attended := by
  cases found : world.notifier? n with
  | none =>
    simp only [World.listen, found]
    exact h
  | some listener =>
    obtain ⟨present, kept⟩ := notifier?_eq_some.1 found
    cases free : world.vacant listener.process listener.topic with
    | false =>
      apply h.mono
      · intro p topic m listens
        rw [listener?_listen found, free] at listens
        simpa using listens
      · simp [listen_notifiers found, free]
    | true =>
      constructor
      · intro p topic m notifier listens at_
        rw [listener?_listen found] at listens
        simp only [listen_notifiers found, free, if_true] at at_
        rcases getElem?_modify_eq_some.1 at_ with ⟨-, old, -, rfl⟩ | ⟨differs, atOld⟩
        · rfl
        · split at listens
          · exact absurd (Listener.notifier.inj (Option.some.inj listens)) differs
          · exact h.owns p topic m notifier listens atOld
      · intro m notifier at_ dropped
        simp only [listen_notifiers found, free, if_true] at at_
        rcases getElem?_modify_eq_some.1 at_ with ⟨rfl, old, atOld, rfl⟩ | ⟨-, atOld⟩
        · rw [present, Option.some.injEq] at atOld
          subst atOld
          simp [kept] at dropped
        · exact h.released m notifier atOld dropped

theorem Attended.releaseListener (h : world.Attended) (home : world.ListensAtHome) (n : Nat) :
    (world.releaseListener n).Attended ∧
      ∀ notifier, (world.releaseListener n).notifiers[n]? = some notifier →
        notifier.ownsListener = false := by
  rcases world.releaseListener_cases n with ⟨same, free⟩ | ⟨owner, found, -, eq⟩
  · rw [same]
    refine ⟨h, fun notifier at_ => ?_⟩
    cases dropped : notifier.dropped with
    | true => exact h.released n notifier at_ dropped
    | false => exact free notifier (notifier?_eq_some.2 ⟨at_, dropped⟩)
  · have present := (notifier?_eq_some.1 found).1
    rw [eq]
    refine ⟨⟨?_, ?_⟩, ?_⟩
    · intro p topic m notifier listens at_
      rw [listener?_modifyNotifier, listener?_unregister] at listens
      split at listens
      · cases listens
      next elsewhere =>
        rcases getElem?_modify_eq_some.1 at_ with ⟨rfl, -⟩ | ⟨-, atOld⟩
        · -- A notifier listens at home only, where it has just been removed.
          obtain ⟨own, at', process, followed⟩ := home p topic n listens
          obtain rfl : owner = own := Option.some.inj (present.symm.trans at')
          exact absurd ⟨process, followed⟩ elsewhere
        · exact h.owns p topic m notifier listens atOld
    · intro m notifier at_ dropped
      rcases getElem?_modify_eq_some.1 at_ with ⟨-, old, -, rfl⟩ | ⟨-, atOld⟩
      · rfl
      · exact h.released m notifier atOld dropped
    · intro notifier at_
      rcases getElem?_modify_eq_some.1 at_ with ⟨-, old, -, rfl⟩ | ⟨differs, -⟩
      · rfl
      · exact absurd rfl differs

theorem Attended.dropNotifier (h : world.Attended) (home : world.ListensAtHome) (n : Nat) :
    (world.dropNotifier n).Attended := by
  have ended : (world.unsubscribe n fun _ _ => true).2.Attended :=
    h.mono (fun _ _ _ listens => listens) rfl
  obtain ⟨shut, free⟩ := ended.releaseListener (home.of_eq rfl rfl) n
  constructor
  · intro p topic m notifier listens at_
    rcases getElem?_modify_eq_some.1 at_ with ⟨rfl, old, atOld, rfl⟩ | ⟨-, atOld⟩
    · exact shut.owns p topic n old listens atOld
    · exact shut.owns p topic m notifier listens atOld
  · intro m notifier at_ dropped
    rcases getElem?_modify_eq_some.1 at_ with ⟨rfl, old, atOld, rfl⟩ | ⟨-, atOld⟩
    · exact free old atOld
    · exact shut.released m notifier atOld dropped

theorem Attended.step (h : world.Attended) (wellFormed : world.WellFormed) (step : Step α) :
    (world.step forms step).2.2.Attended := by
  have sent := step_of_delivers wellFormed forms step
  cases step with
  | connect => exact h.addProcess 0 world.buses
  | standalone => exact h.addProcess world.buses.length (world.buses ++ [0])
  | release p | disconnect p | reconnect p => exact h.modifyProcess p _ fun _ => rfl
  | broadcast | publish | notifyPayload | notifySubscriber | notifyOrPublish =>
    rw [(sent rfl).choose_spec]
    exact h.mono (fun _ _ _ listens => listens) rfl
  | record p topic tag => exact h.record p topic tag
  | unrecord p topic => exact h.unregister p topic
  | addNotifier p topic => exact h.addNotifier wellFormed.home p topic
  | listen n => exact h.listen n
  | shutdown n =>
    have ended : (world.unsubscribe n fun _ _ => true).2.Attended :=
      h.mono (fun _ _ _ listens => listens) rfl
    exact (ended.releaseListener (wellFormed.home.of_eq rfl rfl) n).1
  | dropNotifier n => exact h.dropNotifier wellFormed.home n
  | subscribe | unsubscribe | close | dropStream => exact h.mono (fun _ _ _ listens => listens) rfl
  | next id =>
    simp only [World.step, next]
    split
    · exact h.mono (fun _ _ _ listens => listens) rfl
    · exact h

theorem Attended.run (h : world.Attended) (wellFormed : world.WellFormed) (forms : Forms α)
    (steps : List (Step α)) : (world.run forms steps).Attended := by
  induction steps generalizing world with
  | nil => exact h
  | cons step steps ih => exact ih (h.step wellFormed step) (wellFormed.step step)

end Fanout.World
