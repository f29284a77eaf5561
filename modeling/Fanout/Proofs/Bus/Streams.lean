import Fanout.Proofs.Bus.Reach
import Mathlib.Data.List.Nodup

/-!
# What a step does to streams

A step opens at most one subscription, drops at most one stream, and changes every other
subscription on its own: it may end it, close its stream, take from its buffer, or add to it what
the step addresses to it (`step_subscriptions`). This holds in well-formed worlds, and steps lead
from these to these only (`WellFormed.step`).
-/

namespace Fanout

variable {α : Type}

namespace Step

/-- Whether a step ends a subscription, given by number, notifier and key. -/
def ends (id n : Nat) (key : Key) : Step α → Bool
  | .unsubscribe m condition => m == n && condition key id
  | .shutdown m | .dropNotifier m => m == n
  | .close i | .dropStream i => i == id
  | _ => false

def closes (id : Nat) : Step α → Bool
  | .close i => i == id
  | _ => false

theorem ends_of_closes {step : Step α} {id n : Nat} {key : Key} (h : step.closes id = true) :
    step.ends id n key = true := by
  cases step with
  | close i => exact h
  | _ => cases h

def takes (id : Nat) : Step α → Bool
  | .next i => i == id
  | _ => false

def drops (id : Nat) : Step α → Bool
  | .dropStream i => i == id
  | _ => false

theorem ends_of_drops {step : Step α} {id n : Nat} {key : Key} (h : step.drops id = true) :
    step.ends id n key = true := by
  cases step with
  | dropStream i => exact h
  | _ => cases h

/-- Whether a step can add to the buffers of streams. -/
def delivers : Step α → Bool
  | .broadcast .. | .publish .. | .notifyPayload .. | .notifySubscriber .. | .notifyOrPublish .. =>
    true
  | _ => false

end Step

namespace World

variable {forms : Forms α} {world : World α}

/-- Whether an update can be delivered straight to a subscription of a notifier. -/
def accepts (world : World α) (n : Nat) (update : α) (id : Nat) : Bool :=
  (world.notifySubscriber n update id).isOk

/-- What is published to keys by a notifier and brought to a subscription, given by notifier and
key. -/
def announced (forms : Forms α) (world : World α) (m : Nat) (update : α) (keys : List Key)
    (n : Nat) (key : Key) : List α :=
  match world.notifier? m with
  | some sender =>
    if keys.isEmpty then []
    else
      world.brought forms sender.process sender.topic
        ((Notice.batch (forms sender.topic)).encode (Notice.toEach update keys)) n key
  | none => []

/-- What a step addresses to a live subscription, given by number, notifier and key. -/
def addressed (forms : Forms α) (world : World α) (id n : Nat) (key : Key) : Step α → List α
  | .broadcast p topic payload => world.brought forms p topic payload n key
  | .publish m update keys => world.announced forms m update keys n key
  | .notifyPayload m payload =>
    if m = n then Subscription.addressed (world.understood forms n payload) key else []
  | .notifySubscriber m update i => if i = id ∧ world.accepts m update i then [update] else []
  | .notifyOrPublish m update i fallback =>
    if world.accepts m update i then if i = id then [update] else []
    else world.announced forms m update [fallback] n key
  | _ => []

def changed (forms : Forms α) (world : World α) (step : Step α) (sub : Subscription α) :
    Subscription α :=
  { sub with
    live := sub.live && !step.ends sub.id sub.notifier sub.key
    receiving := sub.receiving && !step.closes sub.id
    buffer :=
      (if step.takes sub.id then sub.buffer.tail else sub.buffer) ++
        if sub.live then world.addressed forms sub.id sub.notifier sub.key step else [] }

def opened (world : World α) : Step α → Subscriptions α
  | .subscribe n key => [{ id := world.nextId, notifier := n, key }]
  | _ => []

/-- What every step can rely on. -/
structure WellFormed (world : World α) : Prop where
  home : world.ListensAtHome
  opens : ∀ sub ∈ world.subscriptions, sub.IsOpen
  distinct : (world.subscriptions.map Subscription.id).Nodup
  fresh : ∀ sub ∈ world.subscriptions, sub.id < world.nextId

theorem wellFormed_empty : ({} : World α).WellFormed where
  home := listensAtHome_empty
  opens := by simp
  distinct := by simp
  fresh := by simp

theorem WellFormed.eq_of_id (h : world.WellFormed) {first second : Subscription α}
    (memFirst : first ∈ world.subscriptions) (memSecond : second ∈ world.subscriptions)
    (same : first.id = second.id) : first = second :=
  List.inj_on_of_nodup_map h.distinct memFirst memSecond same

theorem WellFormed.get?_of_mem (h : world.WellFormed) {sub : Subscription α}
    (member : sub ∈ world.subscriptions) : world.subscriptions.get? sub.id = some sub := by
  rw [Subscriptions.get?]
  cases found : world.subscriptions.find? (·.id == sub.id) with
  | none => simpa using List.find?_eq_none.1 found sub member
  | some other =>
    have same : other.id = sub.id := by simpa using List.find?_some found
    rw [h.eq_of_id (List.mem_of_find?_eq_some found) member same]

theorem accepts_iff {n id : Nat} {update : α} :
    world.accepts n update id = true ↔
      ∃ sub ∈ world.subscriptions, sub.id = id ∧ sub.reachable n = true := by
  simp only [accepts, notifySubscriber, Subscriptions.deliverTo?]
  by_cases found : (world.subscriptions.any fun sub => sub.id == id && sub.reachable n) = true
  · rw [if_pos found]
    simp only [List.any_eq_true, Bool.and_eq_true, beq_iff_eq] at found
    simpa [Except.isOk, Except.toBool] using found
  · rw [if_neg found]
    simp only [List.any_eq_true, Bool.and_eq_true, beq_iff_eq] at found
    simpa [Except.isOk, Except.toBool] using found

theorem notifySubscriber_of_accepts (h : world.WellFormed) {n id : Nat} {update : α}
    (accepted : world.accepts n update id = true) :
    world.notifySubscriber n update id =
      .ok { world with
        subscriptions :=
          world.subscriptions.map fun sub =>
            sub.push (if sub.live then if id = sub.id then [update] else [] else []) } := by
  obtain ⟨target, member, sameId, reachable⟩ := accepts_iff.1 accepted
  have found : (world.subscriptions.any fun sub => sub.id == id && sub.reachable n) = true :=
    List.any_eq_true.2 ⟨target, member, by simp [sameId, reachable]⟩
  simp only [notifySubscriber, Subscriptions.deliverTo?]
  rw [if_pos found]
  refine congrArg (fun subscriptions => Except.ok { world with subscriptions })
    (List.map_congr_left fun sub memSub => ?_)
  by_cases same : sub.id = id
  · obtain rfl := h.eq_of_id memSub member (same.trans sameId.symm)
    have live : sub.live = true := by
      simp only [Subscription.reachable] at reachable
      simp_all
    simp [same, reachable, live]
  · simp [same, Ne.symm same]

theorem notifySubscriber_of_not_accepts {n id : Nat} {update : α}
    (refused : world.accepts n update id = false) :
    world.notifySubscriber n update id = .error (.unknownSubscription id) := by
  simp only [accepts] at refused
  cases result : world.notifySubscriber n update id with
  | ok other => simp [result, Except.isOk, Except.toBool] at refused
  | error fault =>
    simp only [notifySubscriber] at result
    split at result
    · contradiction
    · exact result.symm

theorem publish_snd (h : world.WellFormed) (forms : Forms α) (m : Nat) (update : α)
    (keys : List Key) :
    ∃ buses, (world.publish forms m update keys).2 =
      { world with
        buses
        subscriptions :=
          world.subscriptions.map fun sub =>
            sub.push
              (if sub.live then world.announced forms m update keys sub.notifier sub.key
              else []) } := by
  simp only [publish, announced]
  cases world.notifier? m with
  | none => exact ⟨world.buses, by simp⟩
  | some sender =>
    cases keys.isEmpty with
    | true => exact ⟨world.buses, by simp⟩
    | false => exact broadcast_snd h.home h.opens forms sender.process sender.topic _

theorem register_snd (world : World α) (p : Nat) (topic : Topic) (listener : Listener) :
    ∃ processes, (world.register p topic listener).2 = { world with processes } := by
  simp only [register]
  split
  · exact ⟨_, rfl⟩
  · exact ⟨world.processes, rfl⟩

theorem listen_snd (world : World α) (n : Nat) :
    ∃ processes notifiers, (world.listen n).2 = { world with processes, notifiers } := by
  simp only [listen]
  cases world.notifier? n with
  | none => exact ⟨world.processes, world.notifiers, rfl⟩
  | some notifier =>
    obtain ⟨processes, eq⟩ :=
      world.register_snd notifier.process notifier.topic (.notifier n)
    dsimp only
    rw [eq]
    split
    · exact ⟨processes, _, rfl⟩
    · exact ⟨processes, world.notifiers, rfl⟩

theorem releaseListener_eq (world : World α) (n : Nat) :
    ∃ processes notifiers, world.releaseListener n = { world with processes, notifiers } := by
  simp only [releaseListener]
  split
  · split
    · exact ⟨_, _, rfl⟩
    · exact ⟨world.processes, world.notifiers, rfl⟩
  · exact ⟨world.processes, world.notifiers, rfl⟩

theorem shutdown_eq (world : World α) (n : Nat) :
    ∃ processes notifiers, world.shutdown n =
      { (world.unsubscribe n fun _ _ => true).2 with processes, notifiers } :=
  (world.unsubscribe n fun _ _ => true).2.releaseListener_eq n

theorem remove_snd (n : Nat) (condition : Key → Nat → Bool) (subs : Subscriptions α) :
    (subs.remove n condition).2 =
      subs.map fun sub =>
        { sub with live := sub.live && !(n == sub.notifier && condition sub.key sub.id) } := by
  apply List.map_congr_left
  intro sub _
  obtain ⟨id, m, key, live, receiving, buffer⟩ := sub
  have swap : (m == n) = (n == m) := BEq.comm
  cases live <;> cases matches_ : n == m && condition key id <;>
    simp_all [Subscriptions.matched, Subscription.cut]

theorem shutdown_remove (world : World α) (n : Nat) :
    (world.shutdown n).subscriptions = (world.subscriptions.remove n fun _ _ => true).2 := by
  obtain ⟨processes, notifiers, eq⟩ := world.shutdown_eq n
  simp only [eq, unsubscribe]

theorem shutdown_subscriptions (world : World α) (n : Nat) :
    (world.shutdown n).subscriptions =
      world.subscriptions.map fun sub => { sub with live := sub.live && !(n == sub.notifier) } := by
  simp only [shutdown_remove, remove_snd, Bool.and_true]

theorem next_subscriptions (world : World α) (id : Nat) :
    (world.next id).2.subscriptions =
      world.subscriptions.map fun sub =>
        { sub with buffer := if id = sub.id then sub.buffer.tail else sub.buffer } := by
  simp only [next]
  cases found : world.subscriptions.get? id with
  | none =>
    have absent := List.find?_eq_none.1 found
    have other : ∀ sub ∈ world.subscriptions, ¬ id = sub.id := by
      intro sub member same
      simpa [same] using absent sub member
    refine (List.map_id' _).symm.trans (List.map_congr_left fun sub member => ?_)
    rw [if_neg (other sub member)]
  | some first =>
    apply List.map_congr_left
    intro sub _
    by_cases same : sub.id = id
    · simp [same, Subscription.pop]
    · simp [same, Ne.symm same]

/-- A step that delivers adds to the buffers of live subscriptions and does nothing else to
processes, notifiers and streams. -/
theorem step_of_delivers (h : world.WellFormed) (forms : Forms α) (step : Step α)
    (delivers : step.delivers = true) :
    ∃ buses, (world.step forms step).2.2 =
      { world with
        buses
        subscriptions :=
          world.subscriptions.map fun sub =>
            sub.push
              (if sub.live then
                world.addressed forms sub.id sub.notifier sub.key step
              else []) } := by
  cases step with
  | broadcast p topic payload => exact broadcast_snd h.home h.opens forms p topic payload
  | publish n update keys => exact publish_snd h forms n update keys
  | notifyPayload n payload =>
    refine ⟨world.buses, (notifyPayload_eq forms world n payload).trans ?_⟩
    congr 1
    apply List.map_congr_left
    intro sub member
    rw [relayed_eq payload (h.opens sub member), addressed]
    by_cases same : n = sub.notifier <;> cases live : sub.live <;> simp [same]
  | notifySubscriber n update id =>
    refine ⟨world.buses, ?_⟩
    cases accepted : world.accepts n update id with
    | true => simp [World.step, notifySubscriber_of_accepts h accepted, addressed, accepted]
    | false => simp [World.step, notifySubscriber_of_not_accepts accepted, addressed, accepted]
  | notifyOrPublish n update id fallback =>
    cases accepted : world.accepts n update id with
    | true =>
      refine ⟨world.buses, ?_⟩
      simp [World.step, notifyOrPublish, notifySubscriber_of_accepts h accepted, addressed,
        accepted]
    | false =>
      obtain ⟨buses, eq⟩ := publish_snd h forms n update [fallback]
      refine ⟨buses, ?_⟩
      simp [World.step, notifyOrPublish, notifySubscriber_of_not_accepts accepted, eq, addressed,
        accepted]
  | _ => cases delivers

/-- A step that neither opens nor drops a stream changes each subscription on its own. -/
theorem subscriptions_of_map {step : Step α} {after : Subscriptions α}
    (change : Subscription α → Subscription α) (eq : after = world.subscriptions.map change)
    (same : ∀ sub, change sub = world.changed forms step sub)
    (drops : ∀ id, step.drops id = false) (opened : world.opened step = []) :
    after =
      ((world.subscriptions.map (world.changed forms step)).filter fun sub =>
        !step.drops sub.id) ++ world.opened step := by
  have everywhere : change = world.changed forms step := funext same
  rw [eq, everywhere, opened, List.append_nil]
  simp [drops]

/-- All that a step can do to subscriptions. -/
theorem step_subscriptions (h : world.WellFormed) (step : Step α) :
    (world.step forms step).2.2.subscriptions =
      ((world.subscriptions.map (world.changed forms step)).filter fun sub =>
        !step.drops sub.id) ++ world.opened step := by
  have sent := step_of_delivers h forms step
  cases step with
  | connect | standalone | release | disconnect | reconnect | unrecord | addNotifier =>
    refine subscriptions_of_map id (by rw [List.map_id]; rfl) ?_ (fun _ => rfl) rfl
    intro sub
    simp [changed, addressed, Step.ends, Step.closes, Step.takes]
  | record p topic tag =>
    obtain ⟨processes, eq⟩ := world.register_snd p topic (.recorder tag)
    refine subscriptions_of_map id (by simp [World.step, eq]) ?_ (fun _ => rfl) rfl
    intro sub
    simp [changed, addressed, Step.ends, Step.closes, Step.takes]
  | listen n =>
    obtain ⟨processes, notifiers, eq⟩ := world.listen_snd n
    refine subscriptions_of_map id (by simp [World.step, eq]) ?_ (fun _ => rfl) rfl
    intro sub
    simp [changed, addressed, Step.ends, Step.closes, Step.takes]
  | broadcast | publish | notifyPayload | notifySubscriber | notifyOrPublish =>
    refine subscriptions_of_map _ (congrArg World.subscriptions (sent rfl).choose_spec) ?_
      (fun _ => rfl) rfl
    intro sub
    simp [changed, Step.ends, Step.closes, Step.takes, Subscription.push]
  | subscribe n key =>
    have same : world.changed forms (.subscribe n key) = id := by
      funext sub
      simp [changed, addressed, Step.ends, Step.closes, Step.takes]
    rw [same, List.map_id]
    simp [World.step, subscribe, opened, Step.drops]
  | unsubscribe n condition =>
    refine subscriptions_of_map _ (remove_snd n condition world.subscriptions) ?_ (fun _ => rfl) rfl
    intro sub
    simp [changed, addressed, Step.ends, Step.closes, Step.takes]
  | shutdown n =>
    refine subscriptions_of_map _ (world.shutdown_subscriptions n) ?_ (fun _ => rfl) rfl
    intro sub
    simp [changed, addressed, Step.ends, Step.closes, Step.takes]
  | dropNotifier n =>
    refine subscriptions_of_map _ (world.shutdown_subscriptions n) ?_ (fun _ => rfl) rfl
    intro sub
    simp [changed, addressed, Step.ends, Step.closes, Step.takes]
  | next id =>
    refine subscriptions_of_map _ (world.next_subscriptions id) ?_ (fun _ => rfl) rfl
    intro sub
    simp [changed, addressed, Step.ends, Step.closes, Step.takes]
  | close id =>
    refine subscriptions_of_map _ rfl ?_ (fun _ => rfl) rfl
    intro sub
    by_cases same : sub.id = id
    · simp [changed, addressed, Step.ends, Step.closes, Step.takes, same, Subscription.cut]
    · have other : (id == sub.id) = false := beq_eq_false_iff_ne.2 (Ne.symm same)
      simp [changed, addressed, Step.ends, Step.closes, Step.takes, same, other]
  | dropStream id =>
    have untouched : ∀ sub ∈ world.subscriptions.filter fun sub => !(id == sub.id),
        sub = world.changed forms (.dropStream id) sub := by
      intro sub member
      have other : (id == sub.id) = false := by simpa using (List.mem_filter.1 member).2
      simp [changed, addressed, Step.ends, Step.closes, Step.takes, other]
    calc world.subscriptions.filter (fun sub => sub.id ≠ id)
      _ = world.subscriptions.filter fun sub => !(id == sub.id) :=
        List.filter_congr fun sub _ => by rw [BEq.comm (a := id)]; simp; rfl
      _ = (world.subscriptions.filter fun sub => !(id == sub.id)).map
          (world.changed forms (.dropStream id)) :=
        (List.map_id' _).symm.trans (List.map_congr_left untouched)
      _ = ((world.subscriptions.map (world.changed forms (.dropStream id))).filter fun sub =>
          !Step.drops sub.id (Step.dropStream id : Step α)) ++ world.opened (.dropStream id) := by
        rw [List.filter_map]
        exact (List.append_nil _).symm

theorem step_nextId (h : world.WellFormed) (step : Step α) :
    (world.step forms step).2.2.nextId = world.nextId + (world.opened step).length := by
  have sent := step_of_delivers h forms step
  cases step with
  | connect | standalone | release | disconnect | reconnect | unrecord | addNotifier | unsubscribe
  | close | dropStream | subscribe => rfl
  | record p topic tag =>
    obtain ⟨processes, eq⟩ := world.register_snd p topic (.recorder tag)
    simp [World.step, eq, opened]
  | listen n =>
    obtain ⟨processes, notifiers, eq⟩ := world.listen_snd n
    simp [World.step, eq, opened]
  | broadcast | publish | notifyPayload | notifySubscriber | notifyOrPublish =>
    rw [(sent rfl).choose_spec]
    rfl
  | shutdown n | dropNotifier n =>
    obtain ⟨processes, notifiers, eq⟩ := world.shutdown_eq n
    simp only [World.step, dropNotifier, modifyNotifier, eq, unsubscribe, opened]
    rfl
  | next id =>
    simp only [World.step, next, opened]
    split <;> rfl

theorem ListensAtHome.step (h : world.WellFormed) (step : Step α) :
    (world.step forms step).2.2.ListensAtHome := by
  have sent := step_of_delivers h forms step
  cases step with
  | connect => exact h.home.addProcess 0 world.buses
  | standalone => exact h.home.addProcess world.buses.length (world.buses ++ [0])
  | release p | disconnect p | reconnect p =>
    exact h.home.modifyProcess p _ fun _ _ _ found => found
  | broadcast | publish | notifyPayload | notifySubscriber | notifyOrPublish =>
    rw [(sent rfl).choose_spec]
    exact h.home.of_eq rfl rfl
  | record p topic tag => exact h.home.register p topic _ fun n same => by cases same
  | unrecord p topic => exact h.home.unregister p topic
  | addNotifier p topic => exact h.home.addNotifier p topic
  | listen n => exact h.home.listen n
  | shutdown n => exact h.home.shutdown n
  | dropNotifier n => exact (h.home.shutdown n).modifyNotifier n _ (fun _ => rfl) (fun _ => rfl)
  | subscribe | unsubscribe | close | dropStream => exact h.home.of_eq rfl rfl
  | next id =>
    simp only [World.step, next]
    split
    · exact h.home.of_eq rfl rfl
    · exact h.home

theorem mem_step (h : world.WellFormed) {step : Step α} {after : Subscription α} :
    after ∈ (world.step forms step).2.2.subscriptions ↔
      (∃ sub ∈ world.subscriptions, step.drops sub.id = false ∧
        world.changed forms step sub = after) ∨ after ∈ world.opened step := by
  rw [step_subscriptions h, List.mem_append, List.mem_filter, List.mem_map]
  refine or_congr_left ⟨?_, ?_⟩
  · rintro ⟨⟨sub, member, rfl⟩, kept⟩
    exact ⟨sub, member, by simpa [changed] using kept, rfl⟩
  · rintro ⟨sub, member, kept, rfl⟩
    exact ⟨⟨sub, member, rfl⟩, by simpa [changed] using kept⟩

theorem of_mem_opened {step : Step α} {sub : Subscription α} (h : sub ∈ world.opened step) :
    ∃ n key, step = .subscribe n key ∧ sub = { id := world.nextId, notifier := n, key } := by
  cases step with
  | subscribe n key => exact ⟨n, key, rfl, List.mem_singleton.1 h⟩
  | _ => cases h

theorem WellFormed.step (h : world.WellFormed) (step : Step α) :
    (world.step forms step).2.2.WellFormed where
  home := ListensAtHome.step h step
  opens := by
    intro after member
    rcases (mem_step h).1 member with ⟨sub, before, -, rfl⟩ | new
    · intro live
      have kept : sub.live = true ∧ step.ends sub.id sub.notifier sub.key = false := by
        simpa [changed] using live
      have receiving := h.opens sub before kept.1
      cases closed : step.closes sub.id with
      | true => simp [Step.ends_of_closes closed] at kept
      | false => simp [changed, receiving, closed]
    · obtain ⟨n, key, -, rfl⟩ := of_mem_opened new
      exact fun _ => rfl
  distinct := by
    rw [step_subscriptions h, List.map_append]
    refine List.nodup_append.2 ⟨?_, ?_, ?_⟩
    · have same : (world.subscriptions.map (world.changed forms step)).map Subscription.id =
          world.subscriptions.map Subscription.id := by
        rw [List.map_map]
        rfl
      exact (same ▸ h.distinct).sublist (List.filter_sublist.map _)
    · cases step <;> simp [opened]
    · intro id old other new same
      subst same
      obtain ⟨after, member, rfl⟩ := List.mem_map.1 old
      obtain ⟨sub, before, rfl⟩ := List.mem_map.1 (List.mem_filter.1 member).1
      obtain ⟨added, addedMem, same⟩ := List.mem_map.1 new
      obtain ⟨n, key, -, rfl⟩ := of_mem_opened addedMem
      have older : sub.id < world.nextId := h.fresh sub before
      exact absurd same (Nat.ne_of_gt older)
  fresh := by
    intro after member
    rw [step_nextId h]
    rcases (mem_step h).1 member with ⟨sub, before, -, rfl⟩ | new
    · exact Nat.lt_of_lt_of_le (h.fresh sub before) (Nat.le_add_right ..)
    · have added := List.length_pos_of_mem new
      obtain ⟨n, key, -, rfl⟩ := of_mem_opened new
      exact Nat.lt_add_of_pos_right added

theorem WellFormed.run (h : world.WellFormed) (forms : Forms α) (steps : List (Step α)) :
    (world.run forms steps).WellFormed := by
  induction steps generalizing world with
  | nil => exact h
  | cons step steps ih => exact ih (h.step step)

/-- A run leads from one world to another. -/
def Reaches (forms : Forms α) (world later : World α) : Prop :=
  ∃ steps, world.run forms steps = later

/-- A run leads from the empty world to this one. -/
def Reachable (forms : Forms α) (world : World α) : Prop :=
  Reaches forms {} world

theorem Reaches.refl (forms : Forms α) (world : World α) : world.Reaches forms world :=
  ⟨[], rfl⟩

theorem Reaches.trans {later last : World α} (first : world.Reaches forms later)
    (second : later.Reaches forms last) : world.Reaches forms last := by
  obtain ⟨steps, rfl⟩ := first
  obtain ⟨more, rfl⟩ := second
  exact ⟨steps ++ more, run_append forms world steps more⟩

theorem reaches_step (forms : Forms α) (world : World α) (step : Step α) :
    world.Reaches forms (world.step forms step).2.2 :=
  ⟨[step], rfl⟩

theorem WellFormed.reaches {later : World α} (h : world.WellFormed)
    (reached : world.Reaches forms later) : later.WellFormed := by
  obtain ⟨steps, rfl⟩ := reached
  exact h.run forms steps

theorem Reachable.wellFormed (h : world.Reachable forms) : world.WellFormed :=
  wellFormed_empty.reaches h

end World

end Fanout
