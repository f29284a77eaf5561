import Fanout.Cluster
import Fanout.Proofs.Bus.Streams

/-!
# Runs of a cluster are runs of its world

Whatever a cluster does is done by steps of the world that its nodes are in (`reaches_step`). What
holds in every reachable world therefore holds in the world of every cluster.
-/

namespace Fanout

namespace World

variable {α : Type} {forms : Forms α}

theorem reaches_addNotifiers (forms : Forms α) (world : World α) (p : Nat) (topics : List Topic) :
    world.Reaches forms (world.addNotifiers p topics) := by
  induction topics generalizing world with
  | nil => exact .refl forms world
  | cons topic topics ih => exact (reaches_step forms world (.addNotifier p topic)).trans (ih _)

theorem reaches_addFeeds (forms : Forms α) (world : World α) :
    world.Reaches forms world.addFeeds.2 :=
  (reaches_step forms world .connect).trans (reaches_addNotifiers forms _ _ _)

theorem reaches_listenEach (forms : Forms α) (world : World α) (notifiers : List Nat) :
    world.Reaches forms (world.listenEach notifiers).2 := by
  induction notifiers generalizing world with
  | nil => exact .refl forms world
  | cons n notifiers ih => exact (reaches_step forms world (.listen n)).trans (ih _)

theorem reaches_unsubscribeEach (forms : Forms α) (world : World α)
    (condition : Key → Nat → Bool) (notifiers : List Nat) :
    world.Reaches forms (world.unsubscribeEach condition notifiers).2 := by
  induction notifiers generalizing world with
  | nil => exact .refl forms world
  | cons n notifiers ih =>
    exact (reaches_step forms world (.unsubscribe n condition)).trans (ih _)

theorem reaches_foldl {use : World α → Nat → World α}
    (each : ∀ world n, Reaches forms world (use world n)) (world : World α)
    (notifiers : List Nat) : world.Reaches forms (notifiers.foldl use world) := by
  induction notifiers generalizing world with
  | nil => exact .refl forms world
  | cons n notifiers ih => exact (each world n).trans (ih _)

theorem reaches_shutdownFeeds (forms : Forms α) (world : World α) (feeds : Feeds) :
    world.Reaches forms (world.shutdownFeeds feeds) :=
  reaches_foldl (fun world n => reaches_step forms world (.shutdown n)) world feeds.notifiers

theorem reaches_dropFeeds (forms : Forms α) (world : World α) (feeds : Feeds) :
    world.Reaches forms (world.dropFeeds feeds) :=
  (reaches_foldl (fun world n => reaches_step forms world (.dropNotifier n)) world
    feeds.notifiers).trans (reaches_step forms _ (.release feeds.process))

variable (world : World Update) (feeds : Feeds)

theorem reaches_follow (wish : Follow) :
    world.Reaches Update.forms (world.follow feeds wish).2 := by
  have opened := reaches_step Update.forms world
    (.subscribe (feeds.notifier wish.topic) wish.key)
  simp only [follow]
  split
  next greeted delivered =>
    have greets := reaches_step Update.forms
      (world.subscribe (feeds.notifier wish.topic) wish.key).2
      (.notifySubscriber (feeds.notifier wish.topic) (.greeting wish.topic.kind) world.nextId)
    simp only [World.step, subscribe] at greets delivered
    rw [delivered] at greets
    exact opened.trans greets
  next => exact opened

theorem reaches_bringAbout (effect : Effect) :
    world.Reaches Update.forms (world.bringAbout feeds effect).2.2 := by
  cases effect with
  | publish topic update keys => exact reaches_step _ world (.publish _ update keys)
  | revoke key =>
    simp only [bringAbout, revoke]
    exact reaches_unsubscribeEach _ world _ feeds.notifiers

theorem reaches_bringAboutAll (effects : List Effect) :
    world.Reaches Update.forms (world.bringAboutAll feeds effects).2.2 := by
  induction effects generalizing world with
  | nil => exact .refl _ world
  | cons effect effects ih => exact (reaches_bringAbout world feeds effect).trans (ih _)

end World

namespace Cluster

theorem reaches_atNode (cluster : Cluster) (node : Nat)
    {use : World Update → Feeds → Answer Update × List Heard × World Update}
    (uses : ∀ world feeds, World.Reaches Update.forms world (use world feeds).2.2) :
    cluster.world.Reaches Update.forms (cluster.atNode node use).2.2.world := by
  simp only [atNode]
  cases cluster.nodes[node]? with
  | none => exact .refl _ cluster.world
  | some feeds => exact uses cluster.world feeds

theorem reaches_step (cluster : Cluster) (step : Step) :
    cluster.world.Reaches Update.forms (cluster.step step).2.2.world := by
  -- Uses of feeds are first reduced to the world that they leave; unification would otherwise
  -- compute with all ten notifiers.
  cases step with
  | start => exact World.reaches_addFeeds _ cluster.world
  | next id => exact World.reaches_step Update.forms cluster.world (.next id)
  | close id => exact World.reaches_step Update.forms cluster.world (.close id)
  | dropStream id => exact World.reaches_step Update.forms cluster.world (.dropStream id)
  | stop node =>
    apply cluster.reaches_atNode node
    intro world feeds
    dsimp only
    exact World.reaches_dropFeeds _ world feeds
  | bootstrap node =>
    apply cluster.reaches_atNode node
    intro world feeds
    simp only [World.bootstrap]
    exact World.reaches_listenEach _ world feeds.notifiers
  | shutdown node =>
    apply cluster.reaches_atNode node
    intro world feeds
    dsimp only
    exact World.reaches_shutdownFeeds _ world feeds
  | disconnect node =>
    apply cluster.reaches_atNode node
    intro world feeds
    dsimp only
    exact World.reaches_step _ world (.disconnect feeds.process)
  | reconnect node =>
    apply cluster.reaches_atNode node
    intro world feeds
    dsimp only
    exact World.reaches_step _ world (.reconnect feeds.process)
  | follow node wish =>
    apply cluster.reaches_atNode node
    intro world feeds
    dsimp only
    exact World.reaches_follow world feeds wish
  | revoke node key =>
    apply cluster.reaches_atNode node
    intro world feeds
    simp only [World.revoke]
    exact World.reaches_unsubscribeEach _ world _ feeds.notifiers
  | publish node topic update keys =>
    apply cluster.reaches_atNode node
    intro world feeds
    dsimp only
    exact World.reaches_step _ world (.publish (feeds.notifier topic) update keys)
  | notifyPayload node topic payload =>
    apply cluster.reaches_atNode node
    intro world feeds
    dsimp only
    exact World.reaches_step _ world (.notifyPayload (feeds.notifier topic) payload)
  | unsubscribe node topic condition =>
    apply cluster.reaches_atNode node
    intro world feeds
    dsimp only
    exact World.reaches_step _ world (.unsubscribe (feeds.notifier topic) condition)
  | announce node directory change =>
    apply cluster.reaches_atNode node
    intro world feeds
    dsimp only
    exact World.reaches_bringAboutAll world feeds (change.effects directory)

theorem reaches_run (cluster : Cluster) (steps : List Step) :
    cluster.world.Reaches Update.forms (cluster.run steps).world := by
  induction steps generalizing cluster with
  | nil => exact .refl _ cluster.world
  | cons step steps ih => exact (cluster.reaches_step step).trans (ih _)

theorem reachable_run (steps : List Step) : (run {} steps).world.Reachable Update.forms :=
  reaches_run {} steps

end Cluster

end Fanout
