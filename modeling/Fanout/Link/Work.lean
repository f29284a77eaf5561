import Fanout.Link

/-!
# The link at work

How a link comes to what the hub's frames bring about: it looks up a listener and calls it, or takes
down what the hub reports, frame after frame. The link itself is at hand all the time, so handling a
frame could change the listeners or what is queued.
-/

namespace Fanout.Link

/-- A link, with the calls of its listeners and what it had to complain about. -/
structure Working (κ : Type) where
  link : Link κ
  called : List (κ × Bytes) := []
  troubles : List Trouble := []
  deriving DecidableEq, Repr

abbrev Work (κ : Type) := StateM (Working κ)

namespace Work

variable {κ : Type}

def call (listener : κ) (payload : Bytes) : Work κ Unit :=
  modify fun working => { working with called := working.called ++ [(listener, payload)] }

def complain (trouble : Trouble) : Work κ Unit :=
  modify fun working => { working with troubles := working.troubles ++ [trouble] }

def dispatch (frame : Frame) : Work κ Unit :=
  match frame.event with
  | .deliver =>
    match frame.topic, frame.payload with
    | some name, some payload =>
      match Topic.ofNameBytes? name with
      | some topic => do
        let working ← get
        match Table.get? working.link.listeners topic with
        | some listener => call listener payload
        | none => return
      | none => return
    | _, _ => return
  | .error => complain (.reported frame.reportedFault)
  | _ => return

/-- Handles frames from the hub until one cannot be read. -/
def serve (input : ByteStream) : Work κ Frame.Read :=
  match _read : Frame.read input with
  | (.frame frame, rest) => do
    dispatch frame
    serve rest
  | (outcome, _) => return outcome
  termination_by input.size
  decreasing_by exact Frame.read_size_lt _read

end Work

end Fanout.Link
