import Fanout.Proofs.Bus.Publishing
import Fanout.Proofs.Cluster.Nodes
import Fanout.Proofs.Cluster.Recipients
import Fanout.Proofs.Cluster.Runs

/-!
# What an announcement brings to streams

A node brings about the effects of an announcement one after the other. In a cluster, this gives
every live subscription of a connected node the news as often as its key is among the recipients on
its topic, and no other subscription anything (`announce_exact`).
-/

namespace Fanout

namespace World

variable {world : World Update} {bus : Nat} {nodes : List Feeds} {feeds node : Feeds}

/-- What an effect brings to a live subscription, given by notifier and key. -/
def brings (world : World Update) (feeds : Feeds) (n : Nat) (key : Key) : Effect → List Update
  | .publish topic update keys =>
    world.announced Update.forms (feeds.notifier topic) update keys n key
  | .revoke _ => []

/-- What effects of feeds bring to a subscription. -/
def arrivals (world : World Update) (feeds : Feeds) (effects : List Effect)
    (sub : Subscription Update) : List Update :=
  if sub.live then effects.flatMap (world.brings feeds sub.notifier sub.key) else []

/-- A subscription after effects of feeds, if what they published comes before what they revoked. -/
def affected (world : World Update) (feeds : Feeds) (effects : List Effect)
    (sub : Subscription Update) : Subscription Update :=
  { sub with
    live := sub.live &&
      !(feeds.notifiers.contains sub.notifier && effects.any (Effect.revokes sub.key))
    buffer := sub.buffer ++
      if sub.live then effects.flatMap (world.brings feeds sub.notifier sub.key) else [] }

theorem bringAbout_snd (h : world.WellFormed) (feeds : Feeds) (effect : Effect) :
    ∃ buses, (world.bringAbout feeds effect).2.2 =
      { world with
        buses
        subscriptions := world.subscriptions.map (world.affected feeds [effect]) } := by
  cases effect with
  | publish topic update keys =>
    obtain ⟨buses, eq⟩ := publish_snd h Update.forms (feeds.notifier topic) update keys
    refine ⟨buses, ?_⟩
    rw [bringAbout, eq]
    congr 1
    apply List.map_congr_left
    intro sub _
    simp [affected, brings, Effect.revokes, Subscription.push]
  | revoke key =>
    refine ⟨world.buses, ?_⟩
    simp only [bringAbout, revoke_snd]
    congr 1
    apply List.map_congr_left
    intro sub _
    simp [affected, brings, Effect.revokes, eq_comm (a := key)]

theorem flatMap_brings_of_revokes {effects : List Effect}
    (revokes : ∀ effect ∈ effects, effect.publishes = false) (n : Nat) (key : Key) :
    effects.flatMap (world.brings feeds n key) = [] := by
  rw [List.flatMap_eq_nil_iff]
  intro effect member
  cases effect with
  | publish topic update keys => cases revokes _ member
  | revoke key => rfl

/-- What effects do to subscriptions one after the other. -/
theorem affected_cons {effect : Effect} {effects : List Effect}
    (ordered : ∀ later ∈ effects, later.publishes = true → effect.publishes = true)
    (sub : Subscription Update) :
    world.affected feeds effects (world.affected feeds [effect] sub) =
      world.affected feeds (effect :: effects) sub := by
  cases effect with
  | publish topic update keys => cases live : sub.live <;> simp [affected, Effect.revokes, live]
  | revoke key =>
    -- A subscription that ends here misses nothing: all that follows are revocations too.
    have silent : effects.flatMap (world.brings feeds sub.notifier sub.key) = [] := by
      apply flatMap_brings_of_revokes
      intro later member
      cases published : later.publishes with
      | false => rfl
      | true => cases ordered later member published
    cases live : sub.live <;>
      simp [affected, brings, silent, live, Bool.or_and_distrib_left]

theorem bringAboutAll_snd (h : world.WellFormed) (feeds : Feeds) {effects : List Effect}
    (ordered : effects.Pairwise fun earlier later =>
      later.publishes = true → earlier.publishes = true) :
    ∃ buses, (world.bringAboutAll feeds effects).2.2 =
      { world with
        buses
        subscriptions := world.subscriptions.map (world.affected feeds effects) } := by
  induction effects generalizing world with
  | nil =>
    have same : world.affected feeds [] = id := by
      funext sub
      simp [affected]
    exact ⟨world.buses, by simp [bringAboutAll, same]⟩
  | cons effect effects ih =>
    obtain ⟨first, rest⟩ := List.pairwise_cons.1 ordered
    obtain ⟨buses, eq⟩ := bringAbout_snd h feeds effect
    -- What later effects bring is told from processes and notifiers, which stay as they are.
    obtain ⟨buses', eq'⟩ := ih (h.reaches (reaches_bringAbout world feeds effect)) rest
    refine ⟨buses', eq'.trans ?_⟩
    rw [eq]
    simp only [List.map_map]
    congr 1
    apply List.map_congr_left
    intro sub _
    exact affected_cons first sub

theorem Bootstrapped.brings_publish (h : world.Bootstrapped feeds) (home : world.ListensAtHome)
    {topic : Topic} {update : Update} (kind : update.kind = topic.kind) (keys : List Key) (n : Nat)
    (key : Key) :
    world.brings feeds n key (.publish topic update keys) =
      if world.hears feeds.process topic n then List.replicate (keys.count key) update else [] := by
  obtain ⟨sender, found, process, own⟩ := h.exists_notifier home topic
  have faithful : (Update.forms sender.topic).Faithful update := by
    rw [Update.forms, own, ← kind]
    exact update.faithful
  rw [brings, announced_of_faithful home found faithful, process, own]

/-- What an announcing node brings to a subscription of a node. -/
theorem IsCluster.brings_node (cluster : world.IsCluster bus nodes) (home : world.ListensAtHome)
    (member : feeds ∈ nodes) (connected : world.isConnected feeds.process = true)
    (receiving : node ∈ nodes) (topic : Topic) (key : Key) {effect : Effect}
    (fits : effect.fits = true) :
    world.brings feeds (node.notifier topic) key effect =
      if world.isConnected node.process then effect.told topic key else [] := by
  cases effect with
  | publish onTopic update keys =>
    rw [(cluster.bootstrapped feeds member).brings_publish home (beq_iff_eq.1 fits),
      cluster.hears_node home member connected receiving, Effect.told]
    by_cases same : onTopic = topic
    · simp [same]
    · simp [same]
  | revoke revoked => simp [brings, Effect.told]

/-- An announcing node brings nothing to a subscription outside the nodes. -/
theorem IsCluster.brings_outside (cluster : world.IsCluster bus nodes)
    (home : world.ListensAtHome) (member : feeds ∈ nodes) {n : Nat}
    (outside : ∀ node ∈ nodes, ∀ topic, n ≠ node.notifier topic) (key : Key) {effect : Effect}
    (fits : effect.fits = true) :
    world.brings feeds n key effect = [] := by
  cases effect with
  | publish onTopic update keys =>
    rw [(cluster.bootstrapped feeds member).brings_publish home (beq_iff_eq.1 fits),
      cluster.hears_eq_false member onTopic outside]
    rfl
  | revoke revoked => rfl

/-- What an announcing node brings to a subscription of a node is what it tells the key there. -/
theorem IsCluster.flatMap_brings_node (cluster : world.IsCluster bus nodes)
    (home : world.ListensAtHome) (member : feeds ∈ nodes)
    (connected : world.isConnected feeds.process = true) (receiving : node ∈ nodes) (topic : Topic)
    (key : Key) {effects : List Effect} (fits : ∀ effect ∈ effects, effect.fits = true) :
    effects.flatMap (world.brings feeds (node.notifier topic) key) =
      if world.isConnected node.process then effects.flatMap (Effect.told topic key) else [] := by
  rw [List.flatMap_congr fun effect among =>
    cluster.brings_node home member connected receiving topic key (fits effect among)]
  cases world.isConnected node.process with
  | false => exact List.flatMap_eq_nil_iff.2 fun _ _ => rfl
  | true => rfl

theorem IsCluster.flatMap_brings_outside (cluster : world.IsCluster bus nodes)
    (home : world.ListensAtHome) (member : feeds ∈ nodes) {n : Nat}
    (outside : ∀ node ∈ nodes, ∀ topic, n ≠ node.notifier topic) (key : Key)
    {effects : List Effect} (fits : ∀ effect ∈ effects, effect.fits = true) :
    effects.flatMap (world.brings feeds n key) = [] := by
  rw [List.flatMap_eq_nil_iff]
  intro effect among
  exact cluster.brings_outside home member outside key (fits effect among)

/-- In a reachable world with a cluster on a bus, an announcement at a connected node ends the
node's subscriptions with the key that the change revokes, and adds to the buffers of streams: to a
live subscription of a topic in a connected node, the news as often as its key is among the
recipients, and to every other subscription nothing. -/
theorem announce_exact (reachable : world.Reachable Update.forms)
    (cluster : world.IsCluster bus nodes) (member : feeds ∈ nodes)
    (connected : world.isConnected feeds.process = true) (directory : Directory)
    (change : Change) :
    ∃ (buses : List Nat) (received : Subscription Update → List Update),
      (world.announce feeds directory change).2.2 =
        { world with
          buses
          subscriptions :=
            world.subscriptions.map fun sub =>
              { sub with
                live := sub.live &&
                  !(feeds.notifiers.contains sub.notifier && change.revoked? = some sub.key)
                buffer := sub.buffer ++ received sub } } ∧
      ∀ sub,
        (∀ node ∈ nodes, ∀ topic, sub.notifier = node.notifier topic →
          received sub =
            if sub.live && world.isConnected node.process then
              change.told directory topic sub.key
            else []) ∧
        ((∀ node ∈ nodes, ∀ topic, sub.notifier ≠ node.notifier topic) → received sub = []) := by
  have home := reachable.wellFormed.home
  have fits := change.effects_fit directory
  obtain ⟨buses, eq⟩ :=
    bringAboutAll_snd reachable.wellFormed feeds (change.publishes_first directory)
  refine ⟨buses, world.arrivals feeds (change.effects directory), ?_, fun sub => ⟨?_, ?_⟩⟩
  · rw [announce, eq]
    congr 1
    apply List.map_congr_left
    intro sub _
    rw [affected, Change.any_revokes]
    rfl
  · intro node receiving topic at_
    have told := cluster.flatMap_brings_node home member connected receiving topic sub.key fits
    rw [← at_, Change.told_effects] at told
    simp only [arrivals, told, Bool.and_eq_true, ite_and]
  · intro outside
    simp only [arrivals, cluster.flatMap_brings_outside home member outside sub.key fits, ite_self]

/-- Two nodes; a client of the second follows the chats of a user, and one of the first follows a
chat. -/
def pair : Cluster :=
  Cluster.run {}
    [.start, .start, .bootstrap 0, .bootstrap 1, .follow 1 (.chats 7), .follow 0 (.chatMessages 9)]

/-- Whose chats are followed at the second node of the pair. -/
def reader : Subscription Update :=
  { id := 1, notifier := 14, key := .user 7, buffer := [.greeting .chat] }

/-- Who follows a chat at the first node of the pair. -/
def viewer : Subscription Update :=
  { id := 2, notifier := 1, key := .chat 9, buffer := [.greeting .message] }

theorem isCluster_pair : pair.world.IsCluster 0 pair.nodes :=
  .of_listeners (by decide +kernel) (by decide +kernel) (by decide +kernel)

/-- A private chat is deleted at the first node of the pair; one of its participants is listed
twice. -/
theorem announce_exact_pair :
    pair.world.Reachable Update.forms ∧ pair.world.IsCluster 0 pair.nodes ∧
      { process := 0, first := 0 } ∈ pair.nodes ∧ pair.world.isConnected 0 = true ∧
      (pair.world.announce { process := 0, first := 0 } (.ofTables [] [] [] [])
          (.privateChatDeleted 9 [7, 8, 7])).2.2.subscriptions =
        [reader.push [.chat (.deletedPrivateChat 9), .chat (.deletedPrivateChat 9)],
          viewer.cut] := by
  have reachable : pair.world.Reachable Update.forms := Cluster.reachable_run _
  have member : { process := 0, first := 0 } ∈ pair.nodes := by decide +kernel
  have other : { process := 1, first := 10 } ∈ pair.nodes := by decide +kernel
  have connected : pair.world.isConnected 0 = true := by decide +kernel
  have remote : pair.world.isConnected 1 = true := by decide +kernel
  have streams : pair.world.subscriptions = [reader, viewer] := by decide +kernel
  obtain ⟨buses, received, eq, each⟩ :=
    announce_exact reachable isCluster_pair member connected (.ofTables [] [] [] [])
      (.privateChatDeleted 9 [7, 8, 7])
  have read := (each reader).1 _ other .chats rfl
  have viewed := (each viewer).1 _ member .chatMessages rfl
  rw [remote] at read
  rw [connected] at viewed
  refine ⟨reachable, isCluster_pair, member, connected, ?_⟩
  rw [eq]
  simp only [streams, List.map_cons, List.map_nil, read, viewed]
  decide

end World

end Fanout
