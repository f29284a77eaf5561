import Fanout.Frame.Wire
import Fanout.Hub

/-!
# Runs of the hub

What happens to a hub, as steps: connections come, go, fail and recover, and frames arrive, as such
or as bytes. A run is a list of steps; it leaves a hub and everything that was sent on the way.
-/

namespace Fanout.Hub

inductive Step
  | attach (c : ConnectionId)
  | detach (c : ConnectionId)
  | jam (c : ConnectionId)
  | mend (c : ConnectionId)
  | frame (c : ConnectionId) (frame : Frame)
  | raw (c : ConnectionId) (bytes : Bytes)
  | disconnect (c : ConnectionId)
  | subscribe (c : ConnectionId) (topic : Bytes)
  | unsubscribe (c : ConnectionId) (topic : Bytes)
  | unsubscribeAll (c : ConnectionId)
  deriving DecidableEq, Repr

def settled (hub : Hub) : Except Fault Unit × Hub × List Delivery :=
  (.ok (), hub, [])

/-- The outcome of a frame; one that is refused leaves the hub as it was and sends nothing. -/
def answer (hub : Hub) (outcome : Except Fault (Hub × List Delivery)) :
    Except Fault Unit × Hub × List Delivery :=
  match outcome with
  | .ok (hub, sent) => (.ok (), hub, sent)
  | .error fault => (.error fault, hub, [])

def step (hub : Hub) : Step → Except Fault Unit × Hub × List Delivery
  | .attach c => settled (hub.attach c)
  | .detach c => settled (hub.detach c)
  | .jam c => settled (hub.jam c)
  | .mend c => settled (hub.mend c)
  | .frame c frame => hub.answer (hub.handle c frame)
  | .raw c bytes => hub.answer (Frame.parse bytes >>= hub.handle c)
  | .disconnect c => settled (hub.disconnect c)
  | .subscribe c topic => settled { hub with subscribers := hub.subscribers.add topic c }
  | .unsubscribe c topic => settled { hub with subscribers := hub.subscribers.remove topic c }
  | .unsubscribeAll c => settled { hub with subscribers := hub.subscribers.removeAll c }

/-- The hub after a list of steps, and what was sent, in order. -/
def run (hub : Hub) (steps : List Step) : Hub × List Delivery :=
  steps.foldl
    (fun (hub, sent) step =>
      let (_, hub, more) := hub.step step
      (hub, sent ++ more))
    (hub, [])

end Fanout.Hub
