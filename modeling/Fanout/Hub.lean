import Fanout.Frame
import Fanout.Hub.Subscribers

/-!
# The hub

The hub forwards what one connection publishes on a topic to all connections on that topic, the
publisher included. It sends to connections that are registered and can be sent to; a connection
that cannot be sent to does not hold up the others. A frame that breaks the protocol is refused and
changes nothing.
-/

namespace Fanout

structure Hub where
  subscribers : Subscribers := []
  connections : List ConnectionId := []
  /-- The connections, registered or not, to which nothing can be sent. -/
  broken : List ConnectionId := []
  deriving DecidableEq, Repr

/-- A frame on its way to a connection. -/
structure Delivery where
  connection : ConnectionId
  frame : Frame
  deriving DecidableEq, Repr

namespace Hub

def attach (hub : Hub) (c : ConnectionId) : Hub :=
  if c ∈ hub.connections then hub else { hub with connections := hub.connections ++ [c] }

/-- Forgets a connection, though not which topics it is on. -/
def detach (hub : Hub) (c : ConnectionId) : Hub :=
  { hub with connections := hub.connections.filter (· ≠ c) }

/-- Makes sending to a connection fail. -/
def jam (hub : Hub) (c : ConnectionId) : Hub :=
  { hub with broken := c :: hub.broken }

def mend (hub : Hub) (c : ConnectionId) : Hub :=
  { hub with broken := hub.broken.filter (· ≠ c) }

def reaches (hub : Hub) (c : ConnectionId) : Bool :=
  decide (c ∈ hub.connections) && !decide (c ∈ hub.broken)

/-- Sends a frame to each of the connections; those that cannot be reached get nothing. -/
def send (hub : Hub) (targets : List ConnectionId) (frame : Frame) : List Delivery :=
  (targets.filter hub.reaches).map fun connection => { connection, frame }

def disconnect (hub : Hub) (c : ConnectionId) : Hub :=
  { hub with subscribers := hub.subscribers.removeAll c }.detach c

def handle (hub : Hub) (source : ConnectionId) (frame : Frame) :
    Except Fault (Hub × List Delivery) :=
  match frame.event with
  | .subscribe => do
    let topic ← frame.require .topic
    return ({ hub with subscribers := hub.subscribers.add topic source }, [])
  | .unsubscribe => do
    let topic ← frame.require .topic
    return ({ hub with subscribers := hub.subscribers.remove topic source }, [])
  | .publish => do
    let topic ← frame.require .topic
    let payload ← frame.require .payload
    return (hub, hub.send (hub.subscribers.on topic) (.deliver topic payload frame.origin))
  | .ok => return (hub, [])
  | .error => return (hub, [])
  | .deliver => throw .hubOnlyFrame

end Hub

end Fanout
