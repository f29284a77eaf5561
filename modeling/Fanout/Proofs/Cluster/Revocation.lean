import Fanout.Proofs.Bus.Ending
import Fanout.Proofs.Cluster.Announcing

/-!
# Where a key is revoked

A change that revokes a key is announced at one node. There no live subscription with the key is
left on any of the ten notifiers, and the streams of those that were end. At other nodes the clients
who follow the key stay live, so the cluster is free of the key afterwards just if nobody followed
it elsewhere (`revocation_exact`, `revocation_not_clusterwide`).
-/

namespace Fanout.World

variable {world : World Update} {bus : Nat} {nodes : List Feeds} {feeds node : Feeds}

/-- The live subscriptions with a key on the notifiers of feeds. -/
def following (world : World Update) (feeds : Feeds) (key : Key) : Subscriptions Update :=
  world.subscriptions.filter fun sub =>
    sub.live && feeds.notifiers.contains sub.notifier && decide (sub.key = key)

theorem mem_following {key : Key} {sub : Subscription Update} :
    sub ∈ world.following feeds key ↔
      sub ∈ world.subscriptions ∧ sub.live = true ∧ sub.notifier ∈ feeds.notifiers ∧
        sub.key = key := by
  simp [following, and_assoc]

/-- The notifiers of one node are not those of another. -/
theorem IsCluster.eq_of_notifier (cluster : world.IsCluster bus nodes) (home : world.ListensAtHome)
    (memNode : node ∈ nodes) (memFeeds : feeds ∈ nodes) {n : Nat} (ofNode : n ∈ node.notifiers)
    (ofFeeds : n ∈ feeds.notifiers) : node = feeds := by
  obtain ⟨topic, -, rfl⟩ := List.mem_map.1 ofNode
  obtain ⟨other, -, same⟩ := List.mem_map.1 ofFeeds
  obtain ⟨notifier, found, process, own⟩ :=
    (cluster.bootstrapped node memNode).exists_notifier home topic
  obtain ⟨notifier', found', process', own'⟩ :=
    (cluster.bootstrapped feeds memFeeds).exists_notifier home other
  rw [same, found, Option.some.injEq] at found'
  subst found'
  -- One notifier has one process and one topic, which tells where the first of the ten stands.
  have sameTopic : topic = other := own.symm.trans own'
  have sameProcess : node.process = feeds.process := process.symm.trans process'
  subst sameTopic
  have sameFirst : node.first = feeds.first := by
    simp only [Feeds.notifier] at same
    omega
  cases node
  cases feeds
  simp_all

/-- Who follows a key at a node after a change that revokes it. -/
theorem following_announce (h : world.WellFormed) (cluster : world.IsCluster bus nodes)
    (member : feeds ∈ nodes) (among : node ∈ nodes) (directory : Directory) {change : Change}
    {key : Key} (revokes : change.revoked? = some key) :
    ((world.announce feeds directory change).2.2.following node key).map Subscription.id =
      if node = feeds then [] else (world.following node key).map Subscription.id := by
  obtain ⟨buses, eq⟩ := bringAboutAll_snd h feeds (change.publishes_first directory)
  have kept : ∀ sub, (world.affected feeds (change.effects directory) sub).live =
      (sub.live && !(feeds.notifiers.contains sub.notifier && decide (key = sub.key))) := by
    intro sub
    simp [affected, Change.any_revokes, revokes]
  rw [announce, eq]
  simp only [following, List.filter_map, List.map_map]
  by_cases here : node = feeds
  · subst here
    rw [if_pos rfl, List.map_eq_nil_iff, List.filter_eq_nil_iff]
    intro sub _
    rw [Function.comp_apply, kept]
    by_cases same : sub.key = key <;> simp [affected, same, eq_comm (a := key)]
  · rw [if_neg here]
    refine congrArg (List.map Subscription.id) (List.filter_congr fun sub _ => ?_)
    rw [Function.comp_apply, kept]
    by_cases own : sub.notifier ∈ node.notifiers
    · have elsewhere : sub.notifier ∉ feeds.notifiers :=
        fun other => here (cluster.eq_of_notifier h.home among member own other)
      simp [affected, elsewhere]
    · simp [affected, own]

/-- In a reachable world with a cluster on a bus, announcing a change that revokes a key leaves no
live subscription with the key at the announcing node. The streams of those that were there end. A
live subscription with the key is left at some node just if there was one at another node. -/
theorem revocation_exact (reachable : world.Reachable Update.forms)
    (cluster : world.IsCluster bus nodes) (member : feeds ∈ nodes) (directory : Directory)
    {change : Change} {key : Key} (revokes : change.revoked? = some key) :
    let after := (world.announce feeds directory change).2.2
    after.following feeds key = [] ∧
      (∀ sub ∈ world.following feeds key, ∃ later ∈ after.subscriptions,
        later.id = sub.id ∧ after.Ends Update.forms later) ∧
      ((∀ node ∈ nodes, after.following node key = []) ↔
        ∀ node ∈ nodes, node ≠ feeds → world.following node key = []) := by
  intro after
  have h := reachable.wellFormed
  have followed : ∀ node ∈ nodes, after.following node key = [] ↔
      (node ≠ feeds → world.following node key = []) := by
    intro node among
    rw [← List.map_eq_nil_iff (f := Subscription.id),
      following_announce h cluster member among directory revokes]
    by_cases here : node = feeds <;> simp [here]
  refine ⟨(followed feeds member).2 (absurd rfl), ?_, forall₂_congr followed⟩
  intro sub among
  obtain ⟨before, -, own, rfl⟩ := mem_following.1 among
  obtain ⟨buses, eq⟩ := bringAboutAll_snd h feeds (change.publishes_first directory)
  have later : world.affected feeds (change.effects directory) sub ∈ after.subscriptions := by
    simp only [after, announce, eq]
    exact List.mem_map_of_mem before
  have dead : (world.affected feeds (change.effects directory) sub).live = false := by
    simp [affected, Change.any_revokes, revokes, own]
  have wellFormed : after.WellFormed :=
    h.reaches (reaches_bringAboutAll world feeds (change.effects directory))
  exact ⟨_, later, rfl, wellFormed.ends later dead⟩

/-- The first node of the pair makes the chat private that its client follows. -/
theorem revocation_exact_viewer :
    pair.world.Reachable Update.forms ∧ pair.world.IsCluster 0 pair.nodes ∧
      { process := 0, first := 0 } ∈ pair.nodes ∧
      (Change.chatMadePrivate 9).revoked? = some (.chat 9) ∧
      (∀ node ∈ pair.nodes, (pair.world.announce { process := 0, first := 0 }
        (.ofTables [] [] [] []) (.chatMadePrivate 9)).2.2.following node (.chat 9) = []) ∧
      ∃ later ∈ (pair.world.announce { process := 0, first := 0 } (.ofTables [] [] [] [])
          (.chatMadePrivate 9)).2.2.subscriptions,
        later.id = viewer.id ∧
          (pair.world.announce { process := 0, first := 0 } (.ofTables [] [] [] [])
            (.chatMadePrivate 9)).2.2.Ends Update.forms later := by
  have reachable : pair.world.Reachable Update.forms := Cluster.reachable_run _
  have member : { process := 0, first := 0 } ∈ pair.nodes := by decide +kernel
  have elsewhere : ∀ node ∈ pair.nodes, node ≠ { process := 0, first := 0 } →
      pair.world.following node (.chat 9) = [] := by
    decide +kernel
  have followed : viewer ∈ pair.world.following { process := 0, first := 0 } (.chat 9) := by
    decide +kernel
  have revokes : (Change.chatMadePrivate 9).revoked? = some (.chat 9) := rfl
  obtain ⟨-, ends, everywhere⟩ := revocation_exact reachable isCluster_pair member
    (.ofTables [] [] [] []) revokes
  exact ⟨reachable, isCluster_pair, member, revokes, everywhere.2 elsewhere, ends viewer followed⟩

/-- An announced change does not revoke a key in the whole cluster: when the first node of the pair
deletes the account whose chats are followed at the second, that stream stays live. -/
theorem revocation_not_clusterwide :
    ¬∀ (world : World Update) (bus : Nat) (nodes : List Feeds) (feeds : Feeds)
        (directory : Directory) (change : Change) (key : Key),
      world.Reachable Update.forms → world.IsCluster bus nodes →
      (∀ node ∈ nodes, world.isConnected node.process = true) → feeds ∈ nodes →
      change.revoked? = some key →
      let after := (world.announce feeds directory change).2.2
      ∀ node ∈ nodes, after.following node key = [] ∧
        ∀ sub ∈ world.following node key, ∀ later ∈ after.subscriptions, later.id = sub.id →
          after.Ends Update.forms later := by
  intro everywhere
  have connected : ∀ node ∈ pair.nodes, pair.world.isConnected node.process = true := by
    decide +kernel
  have member : { process := 0, first := 0 } ∈ pair.nodes := by decide +kernel
  have other : { process := 1, first := 10 } ∈ pair.nodes := by decide +kernel
  have gone := (everywhere pair.world 0 pair.nodes { process := 0, first := 0 }
    (.ofTables [] [] [] []) (.accountDeleted 7 []) (.user 7) (Cluster.reachable_run _)
    isCluster_pair connected member rfl _ other).1
  have left : (pair.world.announce { process := 0, first := 0 } (.ofTables [] [] [] [])
      (.accountDeleted 7 [])).2.2.following { process := 1, first := 10 } (.user 7) = [reader] := by
    decide +kernel
  rw [left] at gone
  cases gone

end Fanout.World
