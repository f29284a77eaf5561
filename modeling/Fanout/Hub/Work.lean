import Fanout.Frame.Wire
import Fanout.Hub

/-!
# The hub at work

How the hub comes to what it makes of a frame: it looks for the fields that it needs, changes its
table and sends one frame after the other. What was done before a failure stays done, so a fault
found too late would leave a table changed or frames sent.
-/

namespace Fanout.Hub

/-- A hub and everything that it has sent. -/
structure Working where
  hub : Hub
  sent : List Delivery := []
  deriving DecidableEq, Repr

/-- Something that a hub does, which may fail halfway. -/
abbrev Work := ExceptT Fault (StateM Working)

namespace Work

variable {α β : Type}

/-- How work ends, and what it leaves behind. -/
def runOn (work : Work α) (working : Working) : Except Fault α × Working :=
  StateT.run (ExceptT.run work) working

def check (result : Except Fault α) : Work α :=
  ExceptT.mk (pure result)

def relist (change : Subscribers → Subscribers) : Work Unit :=
  modify fun working =>
    { working with hub := { working.hub with subscribers := change working.hub.subscribers } }

def sendOne (frame : Frame) (c : ConnectionId) : Work Bool := do
  let working ← get
  if working.hub.reaches c then
    modify fun working =>
      { working with sent := working.sent ++ [{ connection := c, frame }] }
    return true
  else
    return false

/-- Sends a frame to each of the connections and counts those that could be reached. -/
def send (frame : Frame) : List ConnectionId → Work Nat
  | [] => return 0
  | c :: targets => do
    let reached ← sendOne frame c
    let others ← send frame targets
    return if reached then others + 1 else others

def publish (frame : Frame) : Work Unit := do
  let topic ← check (frame.require .topic)
  let payload ← check (frame.require .payload)
  let delivery := (({ event := .deliver } : Frame).set .topic topic).set .payload payload
  let working ← get
  let _ ← send (delivery.setIfSome .origin (frame.get? .origin)) (working.hub.subscribers.on topic)

def handle (source : ConnectionId) (frame : Frame) : Work Unit :=
  match frame.event with
  | .subscribe => do
    let topic ← check (frame.require .topic)
    relist (·.add topic source)
  | .unsubscribe => do
    let topic ← check (frame.require .topic)
    relist (·.remove topic source)
  | .publish => publish frame
  | .ok => return
  | .error => return
  | .deliver => throw .hubOnlyFrame

def receive (source : ConnectionId) (raw : Bytes) : Work Unit := do
  let frame ← check (Frame.parse raw)
  handle source frame

@[simp] theorem runOn_pure (a : α) (working : Working) :
    runOn (pure a) working = (.ok a, working) := rfl

@[simp] theorem runOn_check (result : Except Fault α) (working : Working) :
    runOn (check result) working = (result, working) := rfl

@[simp] theorem runOn_get (working : Working) : runOn get working = (.ok working, working) := rfl

@[simp] theorem runOn_modify (change : Working → Working) (working : Working) :
    runOn (modify change) working = (.ok (), change working) := rfl

/-- Work goes on from what is left, and after a failure not at all. -/
@[simp] theorem runOn_bind (work : Work α) (next : α → Work β) (working : Working) :
    runOn (work >>= next) working =
      match runOn work working with
      | (.ok a, left) => runOn (next a) left
      | (.error fault, left) => (.error fault, left) := by
  unfold runOn ExceptT.run StateT.run
  simp only [bind, ExceptT.bind, ExceptT.mk, StateT.bind, ExceptT.bindCont]
  cases work working with
  | mk outcome left => cases outcome <;> rfl

end Work

end Fanout.Hub
