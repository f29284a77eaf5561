import Fanout.Feeds
import Fanout.Proofs.Bus.Ownership

/-!
# Bootstrapping feeds next to others

Several feeds and other listeners may share a process. The feeds that are bootstrapped take exactly
the topics that nobody listened to, and after that every topic has a listener (`bootstrap_fst`,
`listener?_bootstrap`). Together with what is known of owners, this tells who listens in every run
in which nobody removes listeners by hand (`listeners_owned`).
-/

namespace Fanout.World

variable {α : Type} {forms : Forms α} {world : World α} {feeds : Feeds}

/-- Feeds whose process is there and whose notifiers have not been dropped. -/
structure Holds (world : World α) (feeds : Feeds) : Prop where
  process : feeds.process < world.processes.length
  notifiers : ∀ topic, ∃ notifier, world.notifier? (feeds.notifier topic) = some notifier ∧
    notifier.process = feeds.process ∧ notifier.topic = topic

theorem listen_processes (world : World α) (n : Nat) :
    (world.listen n).2.processes.length = world.processes.length := by
  have registered : ∀ p topic listener,
      (world.register p topic listener).2.processes.length = world.processes.length := by
    intro p topic listener
    unfold register
    split
    · simp [modifyProcess]
    · rfl
  unfold listen
  split
  · dsimp only
    split <;> exact registered _ _ _
  · rfl

theorem vacant_listen {n : Nat} {notifier : Notifier} (found : world.notifier? n = some notifier)
    (p : Nat) (topic : Topic) :
    (world.listen n).2.vacant p topic =
      (world.vacant p topic && !decide (notifier.process = p ∧ notifier.topic = topic)) := by
  rw [Bool.eq_iff_iff]
  simp only [Bool.and_eq_true, Bool.not_eq_true', decide_eq_false_iff_not, vacant_iff,
    listen_processes, listener?_listen found]
  by_cases own : notifier.process = p ∧ notifier.topic = topic
  · obtain ⟨rfl, rfl⟩ := own
    by_cases free : notifier.process < world.processes.length ∧
        world.listener? notifier.process notifier.topic = none
    · simp [free]
    · simp [free]
  · simp [own]

/-- Listening keeps every notifier in its process and with its topic. -/
theorem notifier?_listen {n m : Nat} {notifier : Notifier}
    (found : world.notifier? m = some notifier) :
    ∃ later, (world.listen n).2.notifier? m = some later ∧ later.process = notifier.process ∧
      later.topic = notifier.topic := by
  obtain ⟨at_, kept⟩ := notifier?_eq_some.1 found
  cases asked : world.notifier? n with
  | none => exact ⟨notifier, by simpa [listen, asked] using found, rfl, rfl⟩
  | some listener =>
    cases free : world.vacant listener.process listener.topic with
    | false =>
      refine ⟨notifier, notifier?_eq_some.2 ⟨?_, kept⟩, rfl, rfl⟩
      simpa [listen_notifiers asked, free] using at_
    | true =>
      refine ⟨if n = m then { notifier with ownsListener := true } else notifier,
        notifier?_eq_some.2 ⟨?_, ?_⟩, ?_, ?_⟩
      · simp [listen_notifiers asked, free, List.getElem?_modify, at_]
      all_goals split <;> simp [kept]

theorem Holds.listen (h : world.Holds feeds) (n : Nat) : (world.listen n).2.Holds feeds where
  process := by
    rw [listen_processes]
    exact h.process
  notifiers topic := by
    obtain ⟨notifier, found, process, own⟩ := h.notifiers topic
    obtain ⟨later, found', process', own'⟩ := notifier?_listen (n := n) found
    exact ⟨later, found', process'.trans process, own'.trans own⟩

/-- Feeds take the topics among some that nobody listens to, one after the other. -/
theorem listenEach_topics (h : world.Holds feeds) {topics : List Topic} (distinct : topics.Nodup) :
    (world.listenEach (topics.map feeds.notifier)).1 =
        topics.countP (world.vacant feeds.process) ∧
      (world.listenEach (topics.map feeds.notifier)).2.Holds feeds ∧
      ∀ topic, (world.listenEach (topics.map feeds.notifier)).2.vacant feeds.process topic =
        (world.vacant feeds.process topic && !decide (topic ∈ topics)) := by
  induction topics generalizing world with
  | nil => simp [listenEach, h]
  | cons first topics ih =>
    obtain ⟨fresh, distinct⟩ := List.nodup_cons.1 distinct
    obtain ⟨notifier, found, process, own⟩ := h.notifiers first
    obtain ⟨count, holds, vacant⟩ := ih (h.listen (feeds.notifier first)) distinct
    have after := vacant_listen found feeds.process
    simp only [process, own, true_and] at after
    -- The topics that come later are not the one that has just been taken.
    have later : topics.countP ((world.listen (feeds.notifier first)).2.vacant feeds.process) =
        topics.countP (world.vacant feeds.process) := by
      apply List.countP_congr
      intro topic member
      have differs : first ≠ topic := fun same => fresh (same ▸ member)
      simp [after, differs]
    have answer := listen_fst found
    rw [process, own] at answer
    simp only [List.map_cons, listenEach]
    refine ⟨?_, holds, fun topic => ?_⟩
    · rw [count, later, answer, List.countP_cons]
      split <;> simp_all
    · rw [vacant, after]
      by_cases same : first = topic
      · simp [same]
      · simp [same, Ne.symm same]

/-- Bootstrapping feeds tells how many topics nobody listened to. -/
theorem bootstrap_fst (h : world.Holds feeds) :
    (world.bootstrap feeds).1 = Topic.all.countP (world.vacant feeds.process) :=
  (listenEach_topics h (by decide)).1

/-- After feeds have been bootstrapped, every topic has a listener in their process. -/
theorem listener?_bootstrap (h : world.Holds feeds) (topic : Topic) :
    ((world.bootstrap feeds).2.listener? feeds.process topic).isSome = true := by
  obtain ⟨-, holds, vacant⟩ := listenEach_topics h (by decide : Topic.all.Nodup)
  have taken := vacant topic
  rw [decide_eq_true topic.mem_all, Bool.not_true, Bool.and_false, Bool.eq_false_iff, ne_eq,
    vacant_iff] at taken
  rw [Option.isSome_iff_ne_none]
  exact fun none_ => taken ⟨holds.process, none_⟩

/-- Who listens, and what follows for those that want to. -/
structure ListenersOwned (world : World α) : Prop where
  /-- At most one notifier owns the listener of a topic in a process. -/
  alone : ∀ (n m : Nat) (first second : Notifier), world.notifiers[n]? = some first →
    world.notifiers[m]? = some second → first.ownsListener = true →
    second.ownsListener = true → first.process = second.process → first.topic = second.topic →
    n = m
  /-- A notifier owns the listener of its topic exactly when it is the one that is registered. -/
  owns : ∀ (n : Nat) (notifier : Notifier), world.notifiers[n]? = some notifier →
    (notifier.ownsListener = true ↔
      world.listener? notifier.process notifier.topic = some (.notifier n))
  /-- What is registered was not dropped. -/
  alive : ∀ p topic n, world.listener? p topic = some (.notifier n) →
    (world.notifier? n).isSome = true
  /-- Listening succeeds exactly when the topic has no listener. -/
  listens : ∀ (n : Nat) (notifier : Notifier), world.notifier? n = some notifier →
    (world.listen n).1 = world.vacant notifier.process notifier.topic
  /-- A notifier that owns no listener removes none by shutting down or being dropped. -/
  spares : ∀ (n : Nat) (notifier : Notifier), world.notifier? n = some notifier →
    notifier.ownsListener = false → ∀ p topic,
      (world.shutdown n).listener? p topic = world.listener? p topic ∧
        (world.dropNotifier n).listener? p topic = world.listener? p topic
  /-- The owner of a listener leaves its topic vacant by shutting down or being dropped. -/
  frees : ∀ (n : Nat) (notifier : Notifier), world.notifier? n = some notifier →
    notifier.ownsListener = true →
      (world.shutdown n).vacant notifier.process notifier.topic = true ∧
        (world.dropNotifier n).vacant notifier.process notifier.topic = true
  /-- Feeds that are bootstrapped take the topics that are vacant, and leave none vacant. -/
  fills : ∀ feeds, world.Holds feeds →
    (world.bootstrap feeds).1 = Topic.all.countP (world.vacant feeds.process) ∧
      ∀ topic, ((world.bootstrap feeds).2.listener? feeds.process topic).isSome = true

/-- In every run in which nobody removes listeners by hand, notifiers own what they listen to. -/
theorem listeners_owned (forms : Forms α) (steps : List (Step α))
    (kept : ∀ step ∈ steps, step.unrecords = false) :
    (World.run forms {} steps).ListenersOwned := by
  have wellFormed := wellFormed_empty.run forms steps
  have owned := owned_empty.run wellFormed_empty forms kept
  constructor
  case alone =>
    intro n m first second atFirst atSecond
    exact owned.eq_of_owns atFirst atSecond
  case owns => exact owned.owns
  case alive =>
    intro p topic n
    exact owned.notifier?_of_listener? wellFormed.home
  case listens =>
    intro n notifier found
    exact listen_fst found
  case spares =>
    intro n notifier found free p topic
    rw [listener?_dropNotifier, listener?_shutdown found]
    simp [free]
  case frees =>
    intro n notifier found owner
    have listens := (owned.owns n notifier (notifier?_eq_some.1 found).1).1 owner
    exact ⟨vacant_shutdown found owner listens, vacant_shutdown found owner listens⟩
  case fills =>
    intro feeds holds
    exact ⟨bootstrap_fst holds, listener?_bootstrap holds⟩

/-- Two sets of feeds in one process, of which the second takes over a topic after its owner was
dropped; another topic is taken by a recorder. -/
def rivals : List (Step String) :=
  [.connect] ++ Topic.all.map (.addNotifier 0) ++ Topic.all.map (.addNotifier 0) ++
    [.listen 0, .listen 10, .record 0 .chats "tap", .shutdown 10, .dropNotifier 0, .listen 10]

theorem listeners_owned_rivals :
    (∀ step ∈ rivals, step.unrecords = false) ∧
      (World.run (fun _ => .text) {} rivals).Holds { process := 0, first := 10 } ∧
      (World.run (fun _ => .text) {} rivals).listener? 0 .messages = some (.notifier 10) ∧
      ((World.run (fun _ => .text) {} rivals).bootstrap { process := 0, first := 10 }).1 = 8 := by
  have kept : ∀ step ∈ rivals, step.unrecords = false := by decide
  have owned := listeners_owned (fun _ => .text) rivals kept
  have holds : (World.run (fun _ => .text) {} rivals).Holds { process := 0, first := 10 } := by
    have every : ∀ topic ∈ Topic.all,
        ∃ notifier ∈ (World.run (fun _ => .text) {} rivals).notifier?
            (Feeds.notifier { process := 0, first := 10 } topic),
          notifier.process = 0 ∧ notifier.topic = topic := by
      decide +kernel
    exact ⟨by decide +kernel, fun topic => every topic topic.mem_all⟩
  have registered : (World.run (fun _ => .text) {} rivals).listener? 0 .messages =
      some (.notifier 10) := by
    decide +kernel
  have vacant : Topic.all.countP ((World.run (fun _ => .text) {} rivals).vacant 0) = 8 := by
    decide +kernel
  exact ⟨kept, holds, registered, (owned.fills _ holds).1.trans vacant⟩

end Fanout.World
