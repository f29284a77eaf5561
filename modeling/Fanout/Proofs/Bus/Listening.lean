import Fanout.World.Step

/-!
# Who listens in a world

A notifier is a listener only in its own process and only for its own topic (`ListensAtHome`). What
registers or removes listeners, makes processes or notifiers, or changes one of them keeps it so. A
broadcast therefore finds a notifier at most once.
-/

namespace Fanout.World

variable {α : Type} {forms : Forms α} {world other : World α}

/-- A notifier is a listener only in its own process and only for its own topic. -/
def ListensAtHome (world : World α) : Prop :=
  ∀ p topic n, world.listener? p topic = some (.notifier n) →
    ∃ notifier, world.notifiers[n]? = some notifier ∧ notifier.process = p ∧ notifier.topic = topic

theorem notifier?_eq_some {n : Nat} {notifier : Notifier} :
    world.notifier? n = some notifier ↔
      world.notifiers[n]? = some notifier ∧ notifier.dropped = false := by
  simp only [notifier?]
  cases world.notifiers[n]? with
  | none => simp
  | some present =>
    simp only [Option.ite_none_left_eq_some, Option.some.injEq, Bool.not_eq_true]
    exact ⟨fun ⟨kept, same⟩ => ⟨same, same ▸ kept⟩, fun ⟨same, kept⟩ => ⟨same ▸ kept, same⟩⟩

/-- A world may have fewer notifiers listening and more notifiers altogether. -/
theorem ListensAtHome.mono (h : world.ListensAtHome)
    (listeners : ∀ p topic n, other.listener? p topic = some (.notifier n) →
      world.listener? p topic = some (.notifier n))
    (notifiers : ∀ (n : Nat) (notifier : Notifier), world.notifiers[n]? = some notifier →
      ∃ later : Notifier, other.notifiers[n]? = some later ∧ later.process = notifier.process ∧
        later.topic = notifier.topic) :
    other.ListensAtHome := by
  intro p topic n found
  obtain ⟨notifier, at_, process, topic⟩ := h p topic n (listeners p topic n found)
  obtain ⟨later, stays, sameProcess, sameTopic⟩ := notifiers n notifier at_
  exact ⟨later, stays, sameProcess.trans process, sameTopic.trans topic⟩

theorem ListensAtHome.of_eq (h : world.ListensAtHome)
    (processes : other.processes = world.processes)
    (notifiers : other.notifiers = world.notifiers) : other.ListensAtHome := by
  simp only [ListensAtHome, listener?] at *
  rw [processes, notifiers]
  exact h

theorem listensAtHome_empty : ({} : World α).ListensAtHome := by
  intro p topic n found
  simp [listener?] at found

theorem listener?_modifyProcess (p q : Nat) (topic : Topic) (change : Process → Process) :
    (world.modifyProcess p change).listener? q topic =
      world.processes[q]?.bind fun process =>
        Table.get? (if p = q then change process else process).listeners topic := by
  simp only [listener?, modifyProcess]
  rw [List.getElem?_modify]
  cases world.processes[q]? <;> rfl

theorem ListensAtHome.modifyProcess (h : world.ListensAtHome) (p : Nat)
    (change : Process → Process)
    (keeps : ∀ process topic n, Table.get? (change process).listeners topic = some (.notifier n) →
      Table.get? process.listeners topic = some (.notifier n)) :
    (world.modifyProcess p change).ListensAtHome := by
  refine h.mono (fun q topic n found => ?_) (fun n notifier at_ => ⟨notifier, at_, rfl, rfl⟩)
  rw [listener?_modifyProcess] at found
  obtain ⟨process, at_, found⟩ := Option.bind_eq_some_iff.1 found
  refine Option.bind_eq_some_iff.2 ⟨process, at_, ?_⟩
  split at found
  · exact keeps process topic n found
  · exact found

theorem ListensAtHome.modifyNotifier (h : world.ListensAtHome) (n : Nat)
    (change : Notifier → Notifier)
    (process : ∀ notifier, (change notifier).process = notifier.process)
    (topic : ∀ notifier, (change notifier).topic = notifier.topic) :
    (world.modifyNotifier n change).ListensAtHome := by
  refine h.mono (fun _ _ _ found => found) (fun m notifier at_ => ?_)
  refine ⟨if n = m then change notifier else notifier, ?_, ?_, ?_⟩
  · simp only [World.modifyNotifier, List.getElem?_modify, at_]
    rfl
  · split <;> simp [process]
  · split <;> simp [topic]

theorem ListensAtHome.addProcess (h : world.ListensAtHome) (bus : Nat) (buses : List Nat) :
    ({ world with buses, processes := world.processes ++ [{ bus }] } : World α).ListensAtHome := by
  refine h.mono (fun p topic n found => ?_) (fun n notifier at_ => ⟨notifier, at_, rfl, rfl⟩)
  simp only [listener?] at found ⊢
  rcases Nat.lt_trichotomy p world.processes.length with inside | rfl | outside
  · rwa [List.getElem?_append_left inside] at found
  · simp at found
  · rw [List.getElem?_eq_none (by simp; omega)] at found
    simp at found

theorem ListensAtHome.addNotifier (h : world.ListensAtHome) (p : Nat) (topic : Topic) :
    (world.addNotifier p topic).ListensAtHome := by
  refine h.mono (fun _ _ _ found => found) (fun n notifier at_ => ⟨notifier, ?_, rfl, rfl⟩)
  have inside := (List.getElem?_eq_some_iff.1 at_).1
  rwa [World.addNotifier, List.getElem?_append_left inside]

theorem ListensAtHome.unregister (h : world.ListensAtHome) (p : Nat) (topic : Topic) :
    (world.unregister p topic).ListensAtHome := by
  apply h.modifyProcess p _
  intro process other n found
  rw [Listeners.get?_unregister] at found
  split at found
  · contradiction
  · exact found

theorem ListensAtHome.register (h : world.ListensAtHome) (p : Nat) (topic : Topic)
    (listener : Listener)
    (own : ∀ n, listener = .notifier n → ∃ notifier, world.notifiers[n]? = some notifier ∧
      notifier.process = p ∧ notifier.topic = topic) :
    (world.register p topic listener).2.ListensAtHome := by
  simp only [World.register]
  split
  next process at_ =>
    intro q other n found
    have kept : ∀ present, world.processes[q]? = some present →
        Table.get? present.listeners other = some (.notifier n) →
        ∃ notifier, world.notifiers[n]? = some notifier ∧ notifier.process = q ∧
          notifier.topic = other :=
      fun present at' listed => h q other n (Option.bind_eq_some_iff.2 ⟨present, at', listed⟩)
    rw [listener?_modifyProcess] at found
    obtain ⟨present, at', listed⟩ := Option.bind_eq_some_iff.1 found
    by_cases same : p = q
    · subst same
      obtain rfl : process = present := by simpa [at_] using at'
      simp only [Listeners.register, ↓reduceIte] at listed
      split at listed
      · exact kept process at_ listed
      · rw [Table.get?_set] at listed
        by_cases hit : topic = other
        · subst hit
          rw [if_pos rfl, Option.some.injEq] at listed
          exact own n listed
        · rw [if_neg hit] at listed
          exact kept process at_ listed
    · rw [if_neg same] at listed
      exact kept present at' listed
  next => exact h

theorem ListensAtHome.listen (h : world.ListensAtHome) (n : Nat) :
    (world.listen n).2.ListensAtHome := by
  simp only [World.listen]
  cases found : world.notifier? n with
  | none => exact h
  | some notifier =>
    have own := (notifier?_eq_some.1 found).1
    have registered :
        (world.register notifier.process notifier.topic (.notifier n)).2.ListensAtHome := by
      apply h.register _ _ _
      intro m same
      obtain rfl := Listener.notifier.inj same
      exact ⟨notifier, own, rfl, rfl⟩
    dsimp only
    split
    · exact registered.modifyNotifier n _ (fun _ => rfl) (fun _ => rfl)
    · exact registered

theorem ListensAtHome.releaseListener (h : world.ListensAtHome) (n : Nat) :
    (world.releaseListener n).ListensAtHome := by
  simp only [World.releaseListener]
  split
  next notifier found =>
    split
    · exact (h.unregister notifier.process notifier.topic).modifyNotifier n _ (fun _ => rfl)
        (fun _ => rfl)
    · exact h
  next => exact h

theorem ListensAtHome.shutdown (h : world.ListensAtHome) (n : Nat) :
    (world.shutdown n).ListensAtHome :=
  (h.of_eq rfl rfl : (world.unsubscribe n fun _ _ => true).2.ListensAtHome).releaseListener n

end Fanout.World
