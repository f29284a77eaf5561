import Fanout.Feeds
import Fanout.World.Step

/-!
# A cluster

A cluster is a number of nodes on one bus, each a process with its feeds. Clients follow feeds at
any node, and changes announced at one node reach the clients at all of them. A run is a list of
steps from a cluster without nodes.
-/

namespace Fanout

/-- Nodes on one bus. -/
structure Cluster where
  world : World Update := {}
  /-- The feeds of each node; a node is known by its place. -/
  nodes : List Feeds := []
  deriving Repr

namespace Cluster

inductive Step
  | start
  /-- Drop the node's feeds and its process. -/
  | stop (node : Nat)
  | bootstrap (node : Nat)
  | shutdown (node : Nat)
  | disconnect (node : Nat)
  | reconnect (node : Nat)
  | follow (node : Nat) (wish : Follow)
  | revoke (node : Nat) (key : Key)
  | publish (node : Nat) (topic : Topic) (update : Update) (keys : List Key)
  | notifyPayload (node : Nat) (topic : Topic) (payload : Bytes)
  | unsubscribe (node : Nat) (topic : Topic) (condition : Key → Nat → Bool)
  | announce (node : Nat) (directory : Directory) (change : Change)
  | next (id : Nat)
  | close (id : Nat)
  | dropStream (id : Nat)

def start (cluster : Cluster) : Cluster :=
  let (feeds, world) := cluster.world.addFeeds
  { world, nodes := cluster.nodes ++ [feeds] }

/-- Uses the feeds of a node. A node that does not exist does nothing. -/
def atNode (cluster : Cluster) (node : Nat)
    (use : World Update → Feeds → Answer Update × List Heard × World Update) :
    Answer Update × List Heard × Cluster :=
  match cluster.nodes[node]? with
  | some feeds =>
    let (answer, heard, world) := use cluster.world feeds
    (answer, heard, { cluster with world })
  | none => (.done, [], cluster)

def inWorld (cluster : Cluster) (step : Fanout.Step Update) :
    Answer Update × List Heard × Cluster :=
  let (answer, heard, world) := cluster.world.step Update.forms step
  (answer, heard, { cluster with world })

def step (cluster : Cluster) : Step → Answer Update × List Heard × Cluster
  | .start => (.number cluster.nodes.length, [], cluster.start)
  | .stop node => cluster.atNode node fun world feeds => (.done, [], world.dropFeeds feeds)
  | .bootstrap node =>
    cluster.atNode node fun world feeds =>
      let (count, world) := world.bootstrap feeds
      (.number count, [], world)
  | .shutdown node => cluster.atNode node fun world feeds => (.done, [], world.shutdownFeeds feeds)
  | .disconnect node =>
    cluster.atNode node fun world feeds => (.done, [], world.setConnected feeds.process false)
  | .reconnect node =>
    cluster.atNode node fun world feeds => (.done, [], world.setConnected feeds.process true)
  | .follow node wish =>
    cluster.atNode node fun world feeds =>
      let (id, world) := world.follow feeds wish
      (.number id, [], world)
  | .revoke node key =>
    cluster.atNode node fun world feeds =>
      let (count, world) := world.revoke feeds key
      (.number count, [], world)
  | .publish node topic update keys =>
    cluster.atNode node fun world feeds =>
      (.done, world.publish Update.forms (feeds.notifier topic) update keys)
  | .notifyPayload node topic payload =>
    cluster.atNode node fun world feeds =>
      (.done, [], world.notifyPayload Update.forms (feeds.notifier topic) payload)
  | .unsubscribe node topic condition =>
    cluster.atNode node fun world feeds =>
      let (count, world) := world.unsubscribe (feeds.notifier topic) condition
      (.number count, [], world)
  | .announce node directory change =>
    cluster.atNode node fun world feeds =>
      let (count, heard, world) := world.announce feeds directory change
      (.number count, heard, world)
  | .next id => cluster.inWorld (.next id)
  | .close id => cluster.inWorld (.close id)
  | .dropStream id => cluster.inWorld (.dropStream id)

def run (cluster : Cluster) (steps : List Step) : Cluster :=
  steps.foldl (fun cluster step => (cluster.step step).2.2) cluster

@[simp] theorem run_nil (cluster : Cluster) : cluster.run [] = cluster := rfl

theorem run_append (cluster : Cluster) (first second : List Step) :
    cluster.run (first ++ second) = (cluster.run first).run second := by
  simp [run]

/-- The number of live subscriptions that a node's clients have on a topic. -/
def followers (cluster : Cluster) (node : Nat) (topic : Topic) : Nat :=
  match cluster.nodes[node]? with
  | some feeds => cluster.world.subscriptions.count (feeds.notifier topic)
  | none => 0

end Cluster

end Fanout
