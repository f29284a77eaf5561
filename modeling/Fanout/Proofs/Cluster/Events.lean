import Fanout.Proofs.Bus.Ownership
import Fanout.Proofs.Cluster.Runs

/-!
# What can happen to a cluster

Beside the steps of a cluster, anything else may be done in the world that its nodes are in:
notifiers and listeners of other kinds may come and go, and the notifiers of the nodes may be used
one by one. Whatever happens, a notifier stays in the process that it was made for and with its
topic (`posts_reaches`), so the ten notifiers of a node stand at the places that their topics give
them (`allMade_watch`).
-/

namespace Fanout

/-- Where a notifier stands. -/
def Notifier.post (notifier : Notifier) : Nat × Topic :=
  (notifier.process, notifier.topic)

namespace World

variable {α : Type} {forms : Forms α} {world later : World α} {feeds : Feeds}

/-- The process and the topic of each notifier. -/
def posts (world : World α) : List (Nat × Topic) :=
  world.notifiers.map Notifier.post

theorem posts_addNotifier (world : World α) (p : Nat) (topic : Topic) :
    (world.addNotifier p topic).posts = world.posts ++ [(p, topic)] := by
  simp [posts, addNotifier, Notifier.post]

theorem posts_addNotifiers (world : World α) (p : Nat) (topics : List Topic) :
    (world.addNotifiers p topics).posts = world.posts ++ topics.map (p, ·) := by
  induction topics generalizing world with
  | nil => simp [addNotifiers]
  | cons topic topics ih => simp [addNotifiers, ih, posts_addNotifier]

/-- A step can only add posts. -/
theorem posts_step (h : world.WellFormed) (step : Step α) :
    world.posts <+: (world.step forms step).2.2.posts := by
  have posted := map_notifiers_step Notifier.post (fun _ _ => rfl) h forms step
  cases step with
  | addNotifier p topic => exact ⟨_, posted.symm⟩
  | dropNotifier n =>
    have same : (world.dropNotifier n).posts = world.posts :=
      (map_modify Notifier.post (fun notifier => { notifier with dropped := true }) (fun _ => rfl)
        _ n).trans (map_notifiers_shutdown Notifier.post (fun _ _ => rfl) world n)
    exact ⟨[], (List.append_nil _).trans same.symm⟩
  | _ => exact ⟨[], (List.append_nil _).trans posted.symm⟩

theorem posts_reaches (h : world.WellFormed) (reached : world.Reaches forms later) :
    world.posts <+: later.posts := by
  obtain ⟨steps, rfl⟩ := reached
  induction steps generalizing world with
  | nil => exact List.prefix_rfl
  | cons step steps ih => exact (posts_step h step).trans (ih (h.step step))

/-- Feeds whose notifiers stand at the places that their topics give them. -/
def Made (world : World α) (feeds : Feeds) : Prop :=
  ∀ topic, world.posts[feeds.notifier topic]? = some (feeds.process, topic)

/-- A notifier stays where it was made. -/
theorem getElem?_posts {n : Nat} {post : Nat × Topic} (at_ : world.posts[n]? = some post)
    (more : world.posts <+: later.posts) : later.posts[n]? = some post := by
  obtain ⟨inside, same⟩ := List.getElem?_eq_some_iff.1 at_
  rw [List.prefix_iff_getElem?.1 more n inside, same]

theorem topic_of_post {n p : Nat} {topic : Topic} (at_ : world.posts[n]? = some (p, topic))
    {notifier : Notifier} (found : world.notifier? n = some notifier) : notifier.topic = topic := by
  simp only [posts, Notifier.post, List.getElem?_map, (notifier?_eq_some.1 found).1,
    Option.map_some, Option.some.injEq, Prod.mk.injEq] at at_
  exact at_.2

theorem Made.of_posts (h : world.Made feeds) (more : world.posts <+: later.posts) :
    later.Made feeds :=
  fun topic => getElem?_posts (h topic) more

theorem Made.topic_eq (h : world.Made feeds) {topic : Topic} {notifier : Notifier}
    (found : world.notifier? (feeds.notifier topic) = some notifier) : notifier.topic = topic :=
  topic_of_post (h topic) found

theorem made_addFeeds (world : World α) : world.addFeeds.2.Made world.addFeeds.1 := by
  intro topic
  have inside : Topic.all.idxOf topic < Topic.all.length :=
    List.idxOf_lt_length_of_mem topic.mem_all
  rw [addFeeds, posts_addNotifiers, Feeds.notifier]
  rw [List.getElem?_append_right (by simp [posts, connect])]
  simp [posts, connect, inside]

end World

namespace Cluster

inductive Event
  | step (step : Step)
  /-- A step of the world that the nodes are in. -/
  | beside (step : Fanout.Step Update)

def after (cluster : Cluster) : Event → Cluster
  | .step step => (cluster.step step).2.2
  | .beside step => (cluster.inWorld step).2.2

def watch (cluster : Cluster) (events : List Event) : Cluster :=
  events.foldl after cluster

theorem watch_map_step (cluster : Cluster) (steps : List Step) :
    cluster.watch (steps.map .step) = cluster.run steps := by
  rw [watch, List.foldl_map]
  rfl

theorem reaches_after (cluster : Cluster) (event : Event) :
    cluster.world.Reaches Update.forms (cluster.after event).world := by
  cases event with
  | step step => exact cluster.reaches_step step
  | beside step => exact World.reaches_step Update.forms cluster.world step

theorem reaches_watch (cluster : Cluster) (events : List Event) :
    cluster.world.Reaches Update.forms (cluster.watch events).world := by
  induction events generalizing cluster with
  | nil => exact .refl _ cluster.world
  | cons event events ih => exact (cluster.reaches_after event).trans (ih _)

theorem nodes_atNode (cluster : Cluster) (node : Nat)
    (use : World Update → Feeds → Answer Update × List Heard × World Update) :
    (cluster.atNode node use).2.2.nodes = cluster.nodes := by
  unfold atNode
  split <;> rfl

/-- Only a node that is started is added to the nodes. -/
theorem mem_nodes_after {cluster : Cluster} {event : Event} {feeds : Feeds}
    (member : feeds ∈ (cluster.after event).nodes) :
    feeds ∈ cluster.nodes ∨ event = .step .start ∧ feeds = cluster.world.addFeeds.1 := by
  cases event with
  | beside step => exact .inl member
  | step step =>
    cases step with
    | start =>
      rcases List.mem_append.1 member with old | new
      · exact .inl old
      · exact .inr ⟨rfl, List.mem_singleton.1 new⟩
    | next | close | dropStream => exact .inl member
    | _ =>
      simp only [after, step, nodes_atNode] at member
      exact .inl member

/-- The feeds of every node stand where they were made. -/
def AllMade (cluster : Cluster) : Prop :=
  ∀ feeds ∈ cluster.nodes, cluster.world.Made feeds

theorem AllMade.after {cluster : Cluster} (h : cluster.AllMade)
    (wellFormed : cluster.world.WellFormed) (event : Event) : (cluster.after event).AllMade := by
  intro feeds member
  rcases mem_nodes_after member with old | ⟨rfl, rfl⟩
  · exact (h feeds old).of_posts (World.posts_reaches wellFormed (cluster.reaches_after event))
  · exact World.made_addFeeds cluster.world

theorem AllMade.watch {cluster : Cluster} (h : cluster.AllMade)
    (wellFormed : cluster.world.WellFormed) (events : List Event) :
    (cluster.watch events).AllMade := by
  induction events generalizing cluster with
  | nil => exact h
  | cons event events ih =>
    exact ih (h.after wellFormed event) (wellFormed.reaches (cluster.reaches_after event))

theorem wellFormed_watch (events : List Event) : (watch {} events).world.WellFormed :=
  World.wellFormed_empty.reaches (reaches_watch {} events)

theorem allMade_watch (events : List Event) : (watch {} events).AllMade :=
  AllMade.watch (by simp [AllMade]) World.wellFormed_empty events

theorem allMade_run (steps : List Step) : (run {} steps).AllMade :=
  watch_map_step {} steps ▸ allMade_watch _

end Cluster

end Fanout
