import Fanout.Feeds
import Fanout.Proofs.Bus.Streams

/-!
# The nodes of a cluster

A node is a process with its feeds; once they are bootstrapped, each of its ten notifiers listens to
its topic. A cluster is made of such nodes on one bus, where no other notifier listens
(`IsCluster`). What a connected node broadcasts is heard by the notifier of that topic in every
connected node, and by no other notifier.
-/

namespace Fanout.World

variable {α : Type} {forms : Forms α} {world : World α} {feeds node : Feeds}

/-- Feeds whose notifiers are all there and listen to their topics. -/
structure Bootstrapped (world : World α) (feeds : Feeds) : Prop where
  present : ∀ topic, (world.notifier? (feeds.notifier topic)).isSome = true
  listens : ∀ topic,
    world.listener? feeds.process topic = some (.notifier (feeds.notifier topic))

theorem Bootstrapped.exists_notifier (h : world.Bootstrapped feeds) (home : world.ListensAtHome)
    (topic : Topic) :
    ∃ notifier, world.notifier? (feeds.notifier topic) = some notifier ∧
      notifier.process = feeds.process ∧ notifier.topic = topic := by
  obtain ⟨notifier, found⟩ := Option.isSome_iff_exists.1 (h.present topic)
  obtain ⟨owner, owned, process, sameTopic⟩ := home _ _ _ (h.listens topic)
  rw [(notifier?_eq_some.1 found).1, Option.some.injEq] at owned
  subst owned
  exact ⟨notifier, found, process, sameTopic⟩

/-- Nodes on a bus that are all bootstrapped, and nobody else listens there. -/
structure IsCluster (world : World α) (bus : Nat) (nodes : List Feeds) : Prop where
  bootstrapped : ∀ node ∈ nodes, world.Bootstrapped node
  /-- The processes of the nodes are attached to the bus. -/
  attached : ∀ node ∈ nodes, ∃ process, world.processes[node.process]? = some process ∧
    process.bus = bus
  /-- What listens on the bus and is a notifier belongs to a node. -/
  alone : ∀ process ∈ world.processes, process.bus = bus → ∀ topic n,
    Table.get? process.listeners topic = some (.notifier n) →
      ∃ node ∈ nodes, n = node.notifier topic

variable {bus : Nat} {nodes : List Feeds}

/-- If the nodes' notifiers listen to everything in every process, they are a cluster. -/
theorem IsCluster.of_listeners
    (listen : ∀ node ∈ nodes, ∀ topic ∈ Topic.all,
      (world.notifier? (node.notifier topic)).isSome = true ∧
        world.listener? node.process topic = some (.notifier (node.notifier topic)))
    (attached : ∀ node ∈ nodes, (world.processes[node.process]?).map Process.bus = some bus)
    (everywhere : ∀ process ∈ world.processes, ∀ topic ∈ Topic.all,
      ∃ node ∈ nodes, Table.get? process.listeners topic = some (.notifier (node.notifier topic))) :
    world.IsCluster bus nodes where
  bootstrapped node among :=
    ⟨fun topic => (listen node among topic topic.mem_all).1,
      fun topic => (listen node among topic topic.mem_all).2⟩
  attached node among := Option.map_eq_some_iff.1 (attached node among)
  alone process among _ topic n listed := by
    obtain ⟨node, member, same⟩ := everywhere process among topic topic.mem_all
    rw [same, Option.some.injEq, Listener.notifier.injEq] at listed
    exact ⟨node, member, listed.symm⟩

/-- From a connected node, the notifiers of the connected nodes hear what is broadcast on their own
topic. -/
theorem IsCluster.hears_node (cluster : world.IsCluster bus nodes) (home : world.ListensAtHome)
    (member : feeds ∈ nodes) (connected : world.isConnected feeds.process = true)
    (receiving : node ∈ nodes) (topic followed : Topic) :
    world.hears feeds.process topic (node.notifier followed) =
      (topic == followed && world.isConnected node.process) := by
  obtain ⟨notifier, found, process, own⟩ :=
    (cluster.bootstrapped node receiving).exists_notifier home followed
  obtain ⟨sender, atSender, sends⟩ := cluster.attached feeds member
  obtain ⟨receiver, atReceiver, receives⟩ := cluster.attached node receiving
  rw [Bool.eq_iff_iff]
  simp only [isConnected, atSender] at connected
  simp only [isConnected, atReceiver, Bool.and_eq_true, beq_iff_eq]
  constructor
  · intro heard
    obtain ⟨other, foundOther, same⟩ := notifier?_of_hears home heard
    obtain ⟨-, again, receiver', -, foundAgain, atReceiver', -, -, open_, -⟩ := hears_iff.1 heard
    rw [found, Option.some.injEq] at foundOther foundAgain
    subst foundOther foundAgain
    rw [process, atReceiver, Option.some.injEq] at atReceiver'
    subst atReceiver'
    exact ⟨same.symm.trans own, open_⟩
  · rintro ⟨rfl, open_⟩
    have listens := (cluster.bootstrapped node receiving).listens topic
    simp only [listener?, atReceiver, Option.bind_some] at listens
    exact hears_iff.2 ⟨sender, notifier, receiver, atSender, found, process ▸ atReceiver, connected,
      receives.trans sends.symm, open_, listens⟩

/-- Nobody outside the nodes hears what a node broadcasts. -/
theorem IsCluster.hears_eq_false (cluster : world.IsCluster bus nodes) (member : feeds ∈ nodes)
    (topic : Topic) {n : Nat} (outside : ∀ node ∈ nodes, ∀ topic, n ≠ node.notifier topic) :
    world.hears feeds.process topic n = false := by
  rw [Bool.eq_false_iff]
  intro heard
  obtain ⟨sender, notifier, receiver, atSender, -, atReceiver, -, same, -, listed⟩ :=
    hears_iff.1 heard
  obtain ⟨process, at_, onBus⟩ := cluster.attached feeds member
  rw [atSender, Option.some.injEq] at at_
  subst at_
  obtain ⟨node, among, eq⟩ :=
    cluster.alone receiver (List.mem_of_getElem? atReceiver) (same.trans onBus) topic n listed
  exact outside node among topic eq

/-- Several notifiers end those of their subscriptions that satisfy a condition. -/
theorem unsubscribeEach_snd (world : World α) (condition : Key → Nat → Bool)
    (notifiers : List Nat) :
    (world.unsubscribeEach condition notifiers).2 =
      { world with
        subscriptions :=
          world.subscriptions.map fun sub =>
            { sub with
              live := sub.live &&
                !(notifiers.contains sub.notifier && condition sub.key sub.id) } } := by
  induction notifiers generalizing world with
  | nil => simp [unsubscribeEach]
  | cons n notifiers ih =>
    simp only [unsubscribeEach, ih, unsubscribe, remove_snd, List.map_map]
    congr 1
    apply List.map_congr_left
    intro sub _
    simp only [Function.comp_apply, List.contains_cons, BEq.comm (a := n),
      Bool.and_or_distrib_right, Bool.not_or, Bool.and_assoc]

theorem revoke_snd (world : World α) (feeds : Feeds) (key : Key) :
    (world.revoke feeds key).2 =
      { world with
        subscriptions :=
          world.subscriptions.map fun sub =>
            { sub with
              live := sub.live && !(feeds.notifiers.contains sub.notifier && sub.key = key) } } :=
  world.unsubscribeEach_snd _ feeds.notifiers

end Fanout.World
