import Fanout.Proofs.Cluster.Told

/-!
# What streams hold

Starting nodes, stopping them, and everything that makes notifiers listen or ends subscriptions
leaves in the streams what they hold (`contents_step`). A client that follows a feed gets a new
stream, which holds the greeting, and the others stay as they are (`follow_eq`).
-/

namespace Fanout

variable {α : Type}

/-- What a stream holds, and for whom, whether or not its subscription is live. -/
def Subscription.content (sub : Subscription α) : Nat × Nat × Key × List α :=
  (sub.id, sub.notifier, sub.key, sub.buffer)

namespace World

/-- The number that the next stream gets, and what the streams hold. -/
def contents (world : World α) : Nat × List (Nat × Nat × Key × List α) :=
  (world.nextId, world.subscriptions.map Subscription.content)

theorem contents_of_map (world : World α) {later : World α}
    {change : Subscription α → Subscription α} (nextId : later.nextId = world.nextId)
    (subscriptions : later.subscriptions = world.subscriptions.map change)
    (same : ∀ sub, (change sub).content = sub.content) : later.contents = world.contents := by
  rw [contents, contents, nextId, subscriptions, List.map_map]
  exact congrArg _ (List.map_congr_left fun sub _ => same sub)

def ids (world : World α) : List Nat :=
  world.subscriptions.map Subscription.id

theorem ids_of_contents {world later : World α} (same : later.contents = world.contents) :
    later.ids = world.ids := by
  have told : ∀ world : World α, world.ids = world.contents.2.map Prod.fst := by
    intro world
    simp [ids, contents, Subscription.content]
  rw [told, told, same]

theorem contents_listen (world : World α) (n : Nat) :
    (world.listen n).2.contents = world.contents := by
  obtain ⟨processes, notifiers, eq⟩ := world.listen_snd n
  rw [eq]
  rfl

theorem contents_listenEach (world : World α) (notifiers : List Nat) :
    (world.listenEach notifiers).2.contents = world.contents := by
  induction notifiers generalizing world with
  | nil => rfl
  | cons n notifiers ih => exact (ih _).trans (world.contents_listen n)

theorem contents_addNotifiers (world : World α) (p : Nat) (topics : List Topic) :
    (world.addNotifiers p topics).contents = world.contents := by
  induction topics generalizing world with
  | nil => rfl
  | cons topic topics ih => exact ih _

theorem contents_shutdown (world : World α) (n : Nat) :
    (world.shutdown n).contents = world.contents := by
  obtain ⟨processes, notifiers, eq⟩ := world.shutdown_eq n
  rw [eq]
  exact world.contents_of_map rfl (remove_snd n _ world.subscriptions) fun _ => rfl

theorem contents_release (world : World α) (p : Nat) :
    (world.release p).contents = world.contents := rfl

theorem contents_foldl {use : World α → Nat → World α}
    (each : ∀ world n, (use world n).contents = world.contents) (world : World α)
    (notifiers : List Nat) : (notifiers.foldl use world).contents = world.contents := by
  induction notifiers generalizing world with
  | nil => rfl
  | cons n notifiers ih => exact (ih _).trans (each world n)

theorem contents_shutdownFeeds (world : World α) (feeds : Feeds) :
    (world.shutdownFeeds feeds).contents = world.contents :=
  contents_foldl contents_shutdown world feeds.notifiers

theorem contents_dropFeeds (world : World α) (feeds : Feeds) :
    (world.dropFeeds feeds).contents = world.contents := by
  have each : ∀ (world : World α) (n : Nat), (world.dropNotifier n).contents = world.contents :=
    fun world n => world.contents_shutdown n
  rw [dropFeeds, contents_release]
  exact contents_foldl each world feeds.notifiers

theorem contents_unsubscribe (world : World α) (n : Nat) (condition : Key → Nat → Bool) :
    (world.unsubscribe n condition).2.contents = world.contents :=
  world.contents_of_map rfl (remove_snd n condition world.subscriptions) fun _ => rfl

theorem contents_revoke (world : World α) (feeds : Feeds) (key : Key) :
    (world.revoke feeds key).2.contents = world.contents := by
  rw [revoke_snd]
  exact world.contents_of_map rfl rfl fun _ => rfl

theorem contents_close (world : World α) (id : Nat) :
    (world.close id).contents = world.contents := by
  refine world.contents_of_map rfl rfl fun sub => ?_
  split <;> rfl

/-- A client that follows a feed gets a new stream, and it is greeted. -/
theorem follow_eq {world : World Update} (h : world.WellFormed) (feeds : Feeds) (wish : Follow) :
    world.follow feeds wish =
      (world.nextId,
        { world with
          subscriptions := world.subscriptions ++
            [{ id := world.nextId, notifier := feeds.notifier wish.topic, key := wish.key,
               buffer := [.greeting wish.topic.kind] }]
          nextId := world.nextId + 1 }) := by
  have opened : (world.subscribe (feeds.notifier wish.topic) wish.key).2.WellFormed :=
    h.reaches (reaches_step Update.forms world (.subscribe _ wish.key))
  have accepted : (world.subscribe (feeds.notifier wish.topic) wish.key).2.accepts
      (feeds.notifier wish.topic) (.greeting wish.topic.kind) world.nextId = true := by
    refine accepts_iff.2 ⟨_, List.mem_append_right _ (List.mem_singleton_self _), rfl, ?_⟩
    simp [Subscription.reachable]
  have greeted := notifySubscriber_of_accepts opened accepted
  simp only [subscribe] at greeted
  -- Streams that were there before have smaller numbers and are not greeted again.
  have older : ∀ sub ∈ world.subscriptions,
      sub.push (if sub.live then
        if world.nextId = sub.id then [Update.greeting wish.topic.kind] else [] else []) = sub := by
    intro sub member
    rw [if_neg (Nat.ne_of_gt (h.fresh sub member)), ite_self, Subscription.push_nil]
  rw [follow]
  simp only [subscribe, greeted, List.map_append, List.map_congr_left older, List.map_id']
  simp [Subscription.push]

end World

namespace Cluster

/-- Whether a step leaves in all streams what they hold. -/
def Step.quiet : Step → Bool
  | .follow .. | .publish .. | .notifyPayload .. | .announce .. | .next _ | .dropStream _ => false
  | _ => true

theorem contents_atNode (cluster : Cluster) (node : Nat)
    {use : World Update → Feeds → Answer Update × List Heard × World Update}
    (same : ∀ world feeds, (use world feeds).2.2.contents = world.contents) :
    (cluster.atNode node use).2.2.world.contents = cluster.world.contents := by
  unfold atNode
  split
  · exact same _ _
  · rfl

theorem contents_step (cluster : Cluster) {step : Step} (quiet : step.quiet = true) :
    (cluster.step step).2.2.world.contents = cluster.world.contents := by
  -- As for `reaches_step`, uses of feeds are first reduced to the world that they leave.
  cases step with
  | start => exact World.contents_addNotifiers cluster.world.connect _ _
  | close id => exact World.contents_close cluster.world id
  | stop node =>
    apply cluster.contents_atNode node
    intro world feeds
    dsimp only
    exact world.contents_dropFeeds feeds
  | bootstrap node =>
    apply cluster.contents_atNode node
    intro world feeds
    dsimp only
    exact world.contents_listenEach feeds.notifiers
  | shutdown node =>
    apply cluster.contents_atNode node
    intro world feeds
    dsimp only
    exact world.contents_shutdownFeeds feeds
  | disconnect node | reconnect node => exact cluster.contents_atNode node fun _ _ => rfl
  | revoke node key =>
    apply cluster.contents_atNode node
    intro world feeds
    dsimp only
    exact world.contents_revoke feeds key
  | unsubscribe node topic condition =>
    apply cluster.contents_atNode node
    intro world feeds
    dsimp only
    exact world.contents_unsubscribe _ condition
  | follow | publish | notifyPayload | announce | next | dropStream => cases quiet

end Cluster

end Fanout
