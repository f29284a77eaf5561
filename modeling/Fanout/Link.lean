import Fanout.Frame.Reader
import Fanout.Listeners
import Fanout.Text.Lossy

/-!
# A node's link to the hub

A node talks to the hub through its link. The link keeps the node's topic listeners, asks the hub
for their topics, and asks again after each reconnect. What is published without a connection is
lost.
A frame from the hub calls at most one listener and changes nothing in the link.
-/

namespace Fanout

/-- A node's side of its connection to the hub. -/
structure Link (κ : Type) where
  nodeId : String
  listeners : Listeners κ := []
  /-- The frames that wait to be sent; without a connection there is nowhere to put them. -/
  queue : Option (List Frame) := none
  deriving DecidableEq, Repr

inductive Trouble
  | reported (fault : Fault)
  | unsent (event : Event) (fault : Fault)
  deriving DecidableEq, Repr

namespace Trouble

def text : Trouble → String
  | reported fault =>
    "Relay hub reported an error: " ++ fault.text ++ " (" ++ fault.code.description ++ ")"
  | unsent event fault => "Dropping unencodable " ++ event.name ++ " frame: " ++ fault.text

end Trouble

inductive Response (κ : Type)
  | called (listener : κ) (payload : Bytes)
  | trouble (trouble : Trouble)
  deriving DecidableEq, Repr

/-- The fault that an error frame carries. Without a known code in two bytes it counts as
internal. -/
def Frame.reportedFault (frame : Frame) : Fault :=
  let code := frame.errorCode.bind fun digits =>
    if digits.length = 2 then FaultCode.ofNumber? (Bytes.ofBigEndian digits) else none
  .reported (code.getD .internalServerError) ((frame.errorText.map Bytes.lossyText).getD "")

theorem Frame.reportedFault_report (code : FaultCode) (text : String) :
    (Frame.report code text).reportedFault = .reported code text := by
  have known : FaultCode.ofNumber? (Bytes.ofBigEndian (Bytes.bigEndian 2 code.number)) =
      some code := by
    rw [Bytes.ofBigEndian_bigEndian, Nat.mod_eq_of_lt (FaultCode.number_lt code),
      FaultCode.ofNumber?_number]
  simp [reportedFault, report, known]

namespace Link

variable {κ : Type}

def isConnected (link : Link κ) : Bool :=
  link.queue.isSome

/-- Queues a frame; without a connection it is lost. -/
def enqueue (link : Link κ) (frame : Frame) : Link κ :=
  { link with queue := link.queue.map (· ++ [frame]) }

/-- Registers a listener unless the topic has one, and asks the hub for the topic; tells whether it
did. -/
def subscribe (link : Link κ) (topic : Topic) (listener : κ) : Bool × Link κ :=
  match link.listeners.register topic listener with
  | (true, listeners) => (true, { link with listeners }.enqueue (.subscribe topic.nameBytes))
  | (false, _) => (false, link)

def unsubscribe (link : Link κ) (topic : Topic) : Link κ :=
  match link.listeners.unregister topic with
  | (true, listeners) => { link with listeners }.enqueue (.unsubscribe topic.nameBytes)
  | (false, _) => link

def publish (link : Link κ) (topic : Topic) (payload : Bytes) : Link κ :=
  link.enqueue (.publish topic.nameBytes payload (Bytes.ofText link.nodeId))

/-- The link at the start of a session: it asks for every topic that has a listener. -/
def attach (link : Link κ) : Link κ :=
  { link with queue := some (link.listeners.topics.map fun topic => .subscribe topic.nameBytes) }

/-- The link after a session; what was still queued is lost. -/
def detach (link : Link κ) : Link κ :=
  { link with queue := none }

def encodeEach : List Frame → List Bytes × List Trouble
  | [] => ([], [])
  | frame :: frames =>
    let (sent, trouble) := encodeEach frames
    match frame.encode with
    | .ok bytes => (bytes :: sent, trouble)
    | .error fault => (sent, .unsent frame.event fault :: trouble)

def flush (link : Link κ) : List Bytes × List Trouble × Link κ :=
  let (sent, trouble) := encodeEach (link.queue.getD [])
  (sent, trouble, { link with queue := link.queue.map fun _ => [] })

def respond (link : Link κ) (frame : Frame) : Option (Response κ) :=
  match frame.event with
  | .deliver =>
    match frame.topic.bind Topic.ofNameBytes?, frame.payload with
    | some topic, some payload =>
      (Table.get? link.listeners topic).map fun listener => .called listener payload
    | _, _ => none
  | .error => some (.trouble (.reported frame.reportedFault))
  | _ => none

/-- What a session's input brings about, and whether the hub ended the session cleanly. -/
def receive (link : Link κ) (input : ByteStream) : List (Response κ) × Frame.Read :=
  let (frames, last, _) := Frame.readAll input
  (frames.filterMap link.respond, last)

end Link

end Fanout
