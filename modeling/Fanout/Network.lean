import Fanout.Hub
import Fanout.Link

/-!
# Nodes around a hub

Nodes and the hub exchange encoded frames over connections. In each direction frames arrive in the
order in which they were sent. A node can lose its connection at any point, together with everything
on its way to the node and any last part of what is on its way to the hub; the hub notices once it
has read the rest. A node reconnects under a new connection, so the hub may for a time list both.
-/

namespace Fanout

structure Wire where
  node : Nat
  /-- Encoded frames on their way to the hub, oldest first. -/
  up : List Bytes := []
  /-- Encoded frames on their way to the node, oldest first. -/
  down : List Bytes := []
  /-- Whether the node still uses the connection. -/
  live : Bool := true
  /-- Whether the hub still serves the connection. -/
  served : Bool := true
  deriving DecidableEq, Repr

structure Invocation where
  node : Nat
  topic : Topic
  payload : Bytes
  deriving DecidableEq, Repr

/-- A hub and its nodes. Nodes and connections are known by their place. -/
structure Network where
  hub : Hub := {}
  /-- The links of the nodes; a listener is known by its topic. -/
  links : List (Link Topic) := []
  wires : List Wire := []
  deriving DecidableEq, Repr

namespace Network

/-- Nodes without listeners or connections around a fresh hub. -/
def ofNodes (ids : List String) : Network :=
  { links := ids.map fun nodeId => { nodeId } }

def wireOf? (network : Network) (node : Nat) : Option ConnectionId :=
  network.wires.findIdx? fun wire => wire.node == node && wire.live

def modifyWire (network : Network) (c : ConnectionId) (change : Wire → Wire) : Network :=
  { network with wires := network.wires.modify c change }

/-- Gives a node a new link and puts the frames that it has queued on their way. -/
def withLink (network : Network) (node : Nat) (link : Link Topic) : Network :=
  let (sent, _, link) := link.flush
  let network := { network with links := network.links.set node link }
  match network.wireOf? node with
  | some c => network.modifyWire c fun wire => { wire with up := wire.up ++ sent }
  | none => network

def connect (network : Network) (node : Nat) : Network :=
  match network.links[node]?, network.wireOf? node with
  | some link, none =>
    let wire : Wire := { node }
    let attached := {
      network with
      hub := network.hub.attach network.wires.length
      wires := network.wires ++ [wire] }
    attached.withLink node link.attach
  | _, _ => network

/-- Ends a node's session. Of what is on its way to the hub, the given number of frames arrive. -/
def lose (network : Network) (node kept : Nat) : Network :=
  match network.links[node]?, network.wireOf? node with
  | some link, some c =>
    let detached := { network with links := network.links.set node link.detach }
    detached.modifyWire c fun wire =>
      { wire with up := wire.up.take kept, down := [], live := false }
  | _, _ => network

/-- Puts a frame on its way to a node, if the node still uses the connection. -/
def deliver (network : Network) (delivery : Delivery) : Network :=
  match delivery.frame.encode with
  | .ok bytes =>
    network.modifyWire delivery.connection fun wire =>
      if wire.live then { wire with down := wire.down ++ [bytes] } else wire
  | .error _ => network

def deliverAll (network : Network) (deliveries : List Delivery) : Network :=
  deliveries.foldl deliver network

/-- The hub closes a connection; the node's session ends. -/
def hangUp (network : Network) (c : ConnectionId) : Network :=
  let closed := { network with hub := network.hub.disconnect c }
  closed.modifyWire c fun wire => { wire with up := [], served := false }

/-- The hub handles the next frame of a connection, or else its end. -/
def hubReads (network : Network) (c : ConnectionId) : Network :=
  match network.wires[c]? with
  | none => network
  | some wire =>
    if wire.served then
      match wire.up with
      | [] => if wire.live then network else network.hangUp c
      | bytes :: rest =>
        match Frame.parse bytes >>= network.hub.handle c with
        | .ok (hub, sent) =>
          ({ network with hub }.modifyWire c fun wire => { wire with up := rest }).deliverAll sent
        | .error fault =>
          (network.deliverAll
            (network.hub.send [c] (.report fault.code fault.message))).hangUp c
    else
      network

/-- A node handles the next frame that the hub sent it, or else the end of its session. -/
def nodeReads (network : Network) (node : Nat) : List Invocation × Network :=
  match network.links[node]?, network.wireOf? node with
  | some link, some c =>
    match network.wires[c]? with
    | none => ([], network)
    | some wire =>
      match wire.down with
      | [] => ([], if wire.served then network else network.lose node 0)
      | bytes :: rest =>
        match Frame.parse bytes with
        | .ok frame =>
          let called := match link.respond frame with
            | some (.called topic payload) => [{ node, topic, payload }]
            | _ => []
          (called, network.modifyWire c fun wire => { wire with down := rest })
        | .error _ => ([], network.lose node 0)
  | _, _ => ([], network)

inductive Step
  | subscribe (node : Nat) (topic : Topic)
  | unsubscribe (node : Nat) (topic : Topic)
  | publish (node : Nat) (topic : Topic) (payload : Bytes)
  | connect (node : Nat)
  | lose (node kept : Nat)
  | hubReads (c : ConnectionId)
  | nodeReads (node : Nat)
  deriving DecidableEq, Repr

def atNode (network : Network) (node : Nat) (use : Link Topic → Link Topic) : Network :=
  match network.links[node]? with
  | some link => network.withLink node (use link)
  | none => network

def step (network : Network) : Step → List Invocation × Network
  | .subscribe node topic =>
    ([], network.atNode node fun link => (link.subscribe topic topic).2)
  | .unsubscribe node topic => ([], network.atNode node fun link => link.unsubscribe topic)
  | .publish node topic payload => ([], network.atNode node fun link => link.publish topic payload)
  | .connect node => ([], network.connect node)
  | .lose node kept => ([], network.lose node kept)
  | .hubReads c => ([], network.hubReads c)
  | .nodeReads node => network.nodeReads node

def run (network : Network) : List Step → List Invocation × Network
  | [] => ([], network)
  | step :: steps =>
    let (called, network) := network.step step
    let (more, network) := network.run steps
    (called ++ more, network)

theorem run_append (network : Network) (first second : List Step) :
    network.run (first ++ second) =
      ((network.run first).1 ++ ((network.run first).2.run second).1,
        ((network.run first).2.run second).2) := by
  induction first generalizing network with
  | nil => rfl
  | cons step steps ih => simp [run, ih]

/-- The steps by which the hub handles everything that is on its way to it. -/
def hubCatchesUp (network : Network) : List Step :=
  network.wires.zipIdx.flatMap fun (wire, c) =>
    List.replicate (wire.up.length + 1) (.hubReads c)

def nodesCatchUp (network : Network) : List Step :=
  network.wires.flatMap fun wire =>
    List.replicate (wire.down.length + 1) (.nodeReads wire.node)

def settle (network : Network) : List Invocation × Network :=
  let (called, network) := network.run network.hubCatchesUp
  let (more, network) := network.run network.nodesCatchUp
  (called ++ more, network)

end Network

end Fanout
