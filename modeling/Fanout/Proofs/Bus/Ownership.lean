import Fanout.Proofs.Bus.Streams

/-!
# Who owns a listener

A notifier remembers whether the listener of its topic is one that it registered, and its process
remembers what is registered there. Listening, shutting down and dropping change the two one after
the other, on any number of notifiers that want the same topic. As long as nobody else removes
listeners, they agree: a notifier owns the listener of its topic exactly when it is that listener,
and a notifier that was dropped owns nothing (`Owned.run`).
-/

namespace Fanout

variable {α : Type}

/-- Whether a step removes a listener without asking who registered it. -/
def Step.unrecords : Step α → Bool
  | .unrecord .. => true
  | _ => false

namespace World

variable {forms : Forms α} {world other : World α}

/-- Whether a process is there and has no listener for a topic. -/
def vacant (world : World α) (p : Nat) (topic : Topic) : Bool :=
  match world.processes[p]? with
  | some process => !process.listeners.contains topic
  | none => false

theorem vacant_iff {p : Nat} {topic : Topic} :
    world.vacant p topic = true ↔
      p < world.processes.length ∧ world.listener? p topic = none := by
  unfold vacant listener?
  cases at_ : world.processes[p]? with
  | none => simpa using at_
  | some process =>
    have inside := (List.getElem?_eq_some_iff.1 at_).1
    simp [inside, Listeners.contains, Table.has]

theorem listener?_of_vacant {p : Nat} {topic : Topic} (h : world.vacant p topic = true) :
    world.listener? p topic = none :=
  (vacant_iff.1 h).2

theorem register_fst (world : World α) (p : Nat) (topic : Topic) (listener : Listener) :
    (world.register p topic listener).1 = world.vacant p topic := by
  unfold register vacant
  cases world.processes[p]? with
  | none => rfl
  | some process =>
    cases present : process.listeners.contains topic <;> simp [Listeners.register, present]

theorem register_notifiers (world : World α) (p : Nat) (topic : Topic) (listener : Listener) :
    (world.register p topic listener).2.notifiers = world.notifiers := by
  obtain ⟨processes, eq⟩ := world.register_snd p topic listener
  rw [eq]

theorem listener?_register (world : World α) (p q : Nat) (topic followed : Topic)
    (listener : Listener) :
    (world.register p topic listener).2.listener? q followed =
      if world.vacant p topic = true ∧ p = q ∧ topic = followed then some listener
      else world.listener? q followed := by
  unfold register vacant
  cases at_ : world.processes[p]? with
  | none => simp
  | some process =>
    simp only [listener?_modifyProcess]
    by_cases here : p = q
    · subst here
      simp only [listener?, at_, Option.bind_some, if_true, true_and]
      cases present : process.listeners.contains topic with
      | true => simp [Listeners.register_of_contains listener present]
      | false => simp [Listeners.get?_register present]
    · simp [here, listener?]

theorem listener?_unregister (world : World α) (p q : Nat) (topic followed : Topic) :
    (world.unregister p topic).listener? q followed =
      if p = q ∧ topic = followed then none else world.listener? q followed := by
  rw [unregister, listener?_modifyProcess]
  by_cases here : p = q
  · cases at_ : world.processes[q]? with
    | none => simp [listener?, at_]
    | some process => simp [listener?, at_, here, Listeners.get?_unregister]
  · simp [here, listener?]

theorem listener?_modifyNotifier (world : World α) (n p : Nat) (topic : Topic)
    (change : Notifier → Notifier) :
    (world.modifyNotifier n change).listener? p topic = world.listener? p topic := rfl

/-- A notifier owns the listener of its topic exactly when it is registered there, and none that
was dropped does. -/
structure Owned (world : World α) : Prop where
  owns : ∀ (n : Nat) (notifier : Notifier), world.notifiers[n]? = some notifier →
    (notifier.ownsListener = true ↔
      world.listener? notifier.process notifier.topic = some (.notifier n))
  released : ∀ (n : Nat) (notifier : Notifier), world.notifiers[n]? = some notifier →
    notifier.dropped = true → notifier.ownsListener = false

theorem owned_empty : ({} : World α).Owned where
  owns := by simp
  released := by simp

theorem Owned.of_eq (h : world.Owned)
    (listeners : ∀ p topic, other.listener? p topic = world.listener? p topic)
    (notifiers : other.notifiers = world.notifiers) : other.Owned where
  owns n notifier at_ := by
    rw [listeners]
    exact h.owns n notifier (notifiers ▸ at_)
  released n notifier at_ := h.released n notifier (notifiers ▸ at_)

/-- Two notifiers of one process and topic do not both own its listener. -/
theorem Owned.eq_of_owns (h : world.Owned) {n m : Nat} {first second : Notifier}
    (atFirst : world.notifiers[n]? = some first) (atSecond : world.notifiers[m]? = some second)
    (ownsFirst : first.ownsListener = true) (ownsSecond : second.ownsListener = true)
    (process : first.process = second.process) (topic : first.topic = second.topic) : n = m := by
  have registered := (h.owns n first atFirst).1 ownsFirst
  have also := (h.owns m second atSecond).1 ownsSecond
  rw [process, topic, also, Option.some.injEq, Listener.notifier.injEq] at registered
  exact registered.symm

/-- A notifier that is registered was not dropped. -/
theorem Owned.notifier?_of_listener? (h : world.Owned) (home : world.ListensAtHome) {p n : Nat}
    {topic : Topic} (listens : world.listener? p topic = some (.notifier n)) :
    (world.notifier? n).isSome = true := by
  obtain ⟨notifier, at_, rfl, rfl⟩ := home p topic n listens
  have owns := (h.owns n notifier at_).2 listens
  have kept : notifier.dropped = false := by
    cases dropped : notifier.dropped with
    | false => rfl
    | true => simp [h.released n notifier at_ dropped] at owns
  rw [notifier?_eq_some.2 ⟨at_, kept⟩]
  rfl

theorem Owned.addProcess (h : world.Owned) (bus : Nat) (buses : List Nat) :
    ({ world with buses, processes := world.processes ++ [{ bus }] } : World α).Owned := by
  refine h.of_eq (fun p topic => ?_) rfl
  simp only [listener?]
  rcases Nat.lt_trichotomy p world.processes.length with inside | rfl | outside
  · rw [List.getElem?_append_left inside]
  · simp
  · rw [List.getElem?_eq_none (by simp; omega), List.getElem?_eq_none (Nat.le_of_lt outside)]

theorem Owned.modifyProcess (h : world.Owned) (p : Nat) (change : Process → Process)
    (keeps : ∀ process, (change process).listeners = process.listeners) :
    (world.modifyProcess p change).Owned := by
  refine h.of_eq (fun q topic => ?_) rfl
  rw [listener?_modifyProcess, listener?]
  congr 1
  funext process
  split
  · rw [keeps]
  · rfl

theorem Owned.record (h : world.Owned) (p : Nat) (topic : Topic) (tag : String) :
    (world.register p topic (.recorder tag)).2.Owned where
  owns n notifier at_ := by
    rw [register_notifiers] at at_
    rw [listener?_register, h.owns n notifier at_]
    split
    next taken =>
      -- The topic was vacant, so nobody owned its listener.
      obtain ⟨free, rfl, rfl⟩ := taken
      simp [listener?_of_vacant free]
    next => rfl
  released n notifier at_ := h.released n notifier (register_notifiers world _ _ _ ▸ at_)

theorem Owned.addNotifier (h : world.Owned) (home : world.ListensAtHome) (p : Nat)
    (topic : Topic) : (world.addNotifier p topic).Owned where
  owns n notifier at_ := by
    rcases getElem?_concat_eq_some.1 at_ with old | ⟨rfl, rfl⟩
    · exact h.owns n notifier old
    · constructor
      · intro owns
        cases owns
      · intro listens
        obtain ⟨before, at', -, -⟩ := home p topic _ listens
        simp at at'
  released n notifier at_ dropped := by
    rcases getElem?_concat_eq_some.1 at_ with old | ⟨rfl, rfl⟩
    · exact h.released n notifier old dropped
    · rfl

theorem listen_fst {n : Nat} {notifier : Notifier} (found : world.notifier? n = some notifier) :
    (world.listen n).1 = world.vacant notifier.process notifier.topic := by
  have answer := world.register_fst notifier.process notifier.topic (.notifier n)
  simp only [listen, found]
  rw [← answer]
  split
  next done => exact done.symm
  next refused => exact (Bool.eq_false_iff.2 refused).symm

theorem listener?_listen {n : Nat} {notifier : Notifier}
    (found : world.notifier? n = some notifier) (p : Nat) (topic : Topic) :
    (world.listen n).2.listener? p topic =
      if world.vacant notifier.process notifier.topic = true ∧ notifier.process = p ∧
          notifier.topic = topic then some (.notifier n)
      else world.listener? p topic := by
  rw [← listener?_register]
  simp only [listen, found]
  split
  · exact listener?_modifyNotifier _ n p topic _
  · rfl

theorem listen_notifiers {n : Nat} {notifier : Notifier}
    (found : world.notifier? n = some notifier) :
    (world.listen n).2.notifiers =
      if world.vacant notifier.process notifier.topic = true then
        world.notifiers.modify n fun notifier => { notifier with ownsListener := true }
      else world.notifiers := by
  have answer := world.register_fst notifier.process notifier.topic (.notifier n)
  have kept := world.register_notifiers notifier.process notifier.topic (.notifier n)
  simp only [listen, found]
  rw [← answer]
  split
  · simp only [World.modifyNotifier, kept]
  · exact kept

theorem Owned.listen (h : world.Owned) (n : Nat) : (world.listen n).2.Owned := by
  cases found : world.notifier? n with
  | none =>
    simp only [World.listen, found]
    exact h
  | some notifier =>
    obtain ⟨at_, kept⟩ := notifier?_eq_some.1 found
    cases free : world.vacant notifier.process notifier.topic with
    | false =>
      apply h.of_eq
      · intro p topic
        simp [listener?_listen found, free]
      · simp [listen_notifiers found, free]
    | true =>
      have nobody := listener?_of_vacant free
      constructor
      · intro m later at'
        rw [listener?_listen found]
        simp only [listen_notifiers found, free, if_true, true_and] at at' ⊢
        rcases getElem?_modify_eq_some.1 at' with ⟨rfl, old, atOld, rfl⟩ | ⟨differs, atOld⟩
        · rw [at_, Option.some.injEq] at atOld
          subst atOld
          simp
        · rw [h.owns m later atOld]
          split
          next same =>
            -- Both want the topic, which had no listener and now has the other one.
            rw [← same.1, ← same.2, nobody]
            simp [differs]
          next => rfl
      · intro m later at' dropped
        simp only [listen_notifiers found, free, if_true] at at'
        rcases getElem?_modify_eq_some.1 at' with ⟨rfl, old, atOld, rfl⟩ | ⟨differs, atOld⟩
        · rw [at_, Option.some.injEq] at atOld
          subst atOld
          simp [kept] at dropped
        · exact h.released m later atOld dropped

/-- What releasing a listener does. -/
theorem releaseListener_cases (world : World α) (n : Nat) :
    (world.releaseListener n = world ∧
      ∀ notifier, world.notifier? n = some notifier → notifier.ownsListener = false) ∨
    ∃ notifier, world.notifier? n = some notifier ∧ notifier.ownsListener = true ∧
      world.releaseListener n =
        (world.unregister notifier.process notifier.topic).modifyNotifier n
          fun notifier => { notifier with ownsListener := false } := by
  unfold releaseListener
  cases world.notifier? n with
  | none => simp
  | some notifier => cases owner : notifier.ownsListener <;> simp [owner]

theorem Owned.releaseListener (h : world.Owned) (n : Nat) :
    (world.releaseListener n).Owned := by
  rcases world.releaseListener_cases n with ⟨same, -⟩ | ⟨notifier, found, owner, eq⟩
  · rw [same]
    exact h
  · have present := (notifier?_eq_some.1 found).1
    have listens := (h.owns n notifier present).1 owner
    rw [eq]
    constructor
    · intro m later at_
      rw [listener?_modifyNotifier, listener?_unregister]
      rcases getElem?_modify_eq_some.1 at_ with ⟨rfl, old, atOld, rfl⟩ | ⟨differs, atOld⟩
      · obtain rfl : notifier = old := Option.some.inj (present.symm.trans atOld)
        simp
      · rw [h.owns m later atOld]
        split
        next same =>
          -- The listener that is given up was not this one's.
          rw [← same.1, ← same.2, listens]
          simp [differs]
        next => rfl
    · intro m later at_ dropped
      rcases getElem?_modify_eq_some.1 at_ with ⟨rfl, old, atOld, rfl⟩ | ⟨differs, atOld⟩
      · rfl
      · exact h.released m later atOld dropped

/-- A notifier that has released its listener owns none. -/
theorem Owned.released_of_releaseListener (h : world.Owned) {n : Nat} {notifier : Notifier}
    (at_ : (world.releaseListener n).notifiers[n]? = some notifier) :
    notifier.ownsListener = false := by
  rcases world.releaseListener_cases n with ⟨same, free⟩ | ⟨owner, found, owns, eq⟩
  · rw [same] at at_
    cases dropped : notifier.dropped with
    | true => exact h.released n notifier at_ dropped
    | false => exact free notifier (notifier?_eq_some.2 ⟨at_, dropped⟩)
  · rw [eq] at at_
    rcases getElem?_modify_eq_some.1 at_ with ⟨-, old, -, rfl⟩ | ⟨differs, -⟩
    · rfl
    · exact absurd rfl differs

theorem Owned.shutdown (h : world.Owned) (n : Nat) : (world.shutdown n).Owned := by
  have ended : (world.unsubscribe n fun _ _ => true).2.Owned := h.of_eq (fun _ _ => rfl) rfl
  exact ended.releaseListener n

theorem Owned.dropNotifier (h : world.Owned) (n : Nat) : (world.dropNotifier n).Owned := by
  have shut : (world.unsubscribe n fun _ _ => true).2.Owned := h.of_eq (fun _ _ => rfl) rfl
  have released := h.shutdown n
  constructor
  · intro m later at_
    rw [World.dropNotifier, listener?_modifyNotifier]
    rcases getElem?_modify_eq_some.1 at_ with ⟨rfl, old, atOld, rfl⟩ | ⟨differs, atOld⟩
    · exact released.owns n old atOld
    · exact released.owns m later atOld
  · intro m later at_ dropped
    rcases getElem?_modify_eq_some.1 at_ with ⟨rfl, old, atOld, rfl⟩ | ⟨differs, atOld⟩
    · show old.ownsListener = false
      exact shut.released_of_releaseListener atOld
    · exact released.released m later atOld dropped

theorem Owned.step (h : world.Owned) (wellFormed : world.WellFormed) (step : Step α)
    (kept : step.unrecords = false) : (world.step forms step).2.2.Owned := by
  have sent := step_of_delivers wellFormed forms step
  cases step with
  | connect => exact h.addProcess 0 world.buses
  | standalone => exact h.addProcess world.buses.length (world.buses ++ [0])
  | release p | disconnect p | reconnect p => exact h.modifyProcess p _ fun _ => rfl
  | broadcast | publish | notifyPayload | notifySubscriber | notifyOrPublish =>
    rw [(sent rfl).choose_spec]
    exact h.of_eq (fun _ _ => rfl) rfl
  | record p topic tag => exact h.record p topic tag
  | unrecord p topic => cases kept
  | addNotifier p topic => exact h.addNotifier wellFormed.home p topic
  | listen n => exact h.listen n
  | shutdown n => exact h.shutdown n
  | dropNotifier n => exact h.dropNotifier n
  | subscribe | unsubscribe | close | dropStream => exact h.of_eq (fun _ _ => rfl) rfl
  | next id =>
    simp only [World.step, next]
    split
    · exact h.of_eq (fun _ _ => rfl) rfl
    · exact h

/-- Whatever is done from a world in which notifiers own what they listen to, they do so after. -/
theorem Owned.run (h : world.Owned) (wellFormed : world.WellFormed) (forms : Forms α)
    {steps : List (Step α)} (kept : ∀ step ∈ steps, step.unrecords = false) :
    (world.run forms steps).Owned := by
  induction steps generalizing world with
  | nil => exact h
  | cons step steps ih =>
    have first := kept step List.mem_cons_self
    have rest := fun later member => kept later (List.mem_cons_of_mem step member)
    exact ih (h.step wellFormed step first) (wellFormed.step step) rest

/-- Shutting down a notifier removes the listener of its topic if it owns that, and no other. -/
theorem listener?_shutdown {n : Nat} {notifier : Notifier}
    (found : world.notifier? n = some notifier) (p : Nat) (topic : Topic) :
    (world.shutdown n).listener? p topic =
      if notifier.ownsListener = true ∧ notifier.process = p ∧ notifier.topic = topic then none
      else world.listener? p topic := by
  let ended := (world.unsubscribe n fun _ _ => true).2
  have still : ended.notifier? n = some notifier := found
  rcases ended.releaseListener_cases n with ⟨same, free⟩ | ⟨owner, found', owns, eq⟩
  · rw [World.shutdown, same, free notifier still]
    simp
    rfl
  · obtain rfl : notifier = owner := Option.some.inj (still.symm.trans found')
    rw [World.shutdown, eq, listener?_modifyNotifier, listener?_unregister, owns]
    simp only [true_and]
    rfl

theorem listener?_dropNotifier (world : World α) (n p : Nat) (topic : Topic) :
    (world.dropNotifier n).listener? p topic = (world.shutdown n).listener? p topic := rfl

theorem length_processes_shutdown (world : World α) (n : Nat) :
    (world.shutdown n).processes.length = world.processes.length := by
  let ended := (world.unsubscribe n fun _ _ => true).2
  rcases ended.releaseListener_cases n with ⟨same, -⟩ | ⟨notifier, -, -, eq⟩
  · rw [World.shutdown, same]
    rfl
  · rw [World.shutdown, eq]
    exact List.length_modify ..

/-- An owner that shuts down leaves its topic vacant. -/
theorem vacant_shutdown {n : Nat} {notifier : Notifier} (found : world.notifier? n = some notifier)
    (owner : notifier.ownsListener = true)
    (listens : world.listener? notifier.process notifier.topic = some (.notifier n)) :
    (world.shutdown n).vacant notifier.process notifier.topic = true := by
  rw [vacant_iff]
  constructor
  · obtain ⟨process, at_, -⟩ := Option.bind_eq_some_iff.1 listens
    have inside := (List.getElem?_eq_some_iff.1 at_).1
    rwa [length_processes_shutdown]
  · rw [listener?_shutdown found]
    simp [owner]

section

variable {β : Type} (f : Notifier → β)

theorem map_notifiers_listen
    (blind : ∀ notifier owns, f { notifier with ownsListener := owns } = f notifier)
    (world : World α) (n : Nat) :
    (world.listen n).2.notifiers.map f = world.notifiers.map f := by
  cases found : world.notifier? n with
  | none => simp [World.listen, found]
  | some notifier =>
    rw [listen_notifiers found]
    split
    · exact map_modify f _ (fun notifier => blind notifier true) world.notifiers n
    · rfl

theorem map_notifiers_shutdown
    (blind : ∀ notifier owns, f { notifier with ownsListener := owns } = f notifier)
    (world : World α) (n : Nat) :
    (world.shutdown n).notifiers.map f = world.notifiers.map f := by
  let ended := (world.unsubscribe n fun _ _ => true).2
  rcases ended.releaseListener_cases n with ⟨same, -⟩ | ⟨notifier, -, -, eq⟩
  · rw [World.shutdown, same]
    rfl
  · rw [World.shutdown, eq]
    exact map_modify f _ (fun notifier => blind notifier false) world.notifiers n

/-- Beside what notifiers own, steps only make notifiers and mark those that are dropped. -/
theorem map_notifiers_step
    (blind : ∀ notifier owns, f { notifier with ownsListener := owns } = f notifier)
    (h : world.WellFormed) (forms : Forms α) (step : Step α) :
    (world.step forms step).2.2.notifiers.map f =
      match step with
      | .addNotifier process topic => world.notifiers.map f ++ [f { process, topic }]
      | .dropNotifier n =>
        ((world.shutdown n).notifiers.modify n fun notifier =>
          { notifier with dropped := true }).map f
      | _ => world.notifiers.map f := by
  have sent := step_of_delivers h forms step
  cases step with
  | connect | standalone | release | disconnect | reconnect | unrecord | subscribe | unsubscribe
  | close | dropStream | dropNotifier => rfl
  | broadcast | publish | notifyPayload | notifySubscriber | notifyOrPublish =>
    rw [(sent rfl).choose_spec]
  | record p topic tag =>
    exact congrArg (List.map f) (world.register_notifiers p topic (.recorder tag))
  | addNotifier p topic => exact List.map_append
  | listen n => exact map_notifiers_listen f blind world n
  | shutdown n => exact map_notifiers_shutdown f blind world n
  | next id =>
    simp only [World.step, next]
    split <;> rfl

end

end World

end Fanout
