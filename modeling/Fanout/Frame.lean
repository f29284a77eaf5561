import Fanout.Bytes
import Fanout.Fault

/-!
# Frames

A frame is its kind and at most one value for each kind of field. A field that is set reads back as
the last value written to it and leaves the other fields alone (`get?_set`).
-/

namespace Fanout

structure Frame where
  event : Event
  topic : Option Bytes := none
  payload : Option Bytes := none
  origin : Option Bytes := none
  errorCode : Option Bytes := none
  errorText : Option Bytes := none
  deriving DecidableEq, Repr

namespace Frame

def get? (frame : Frame) : Field → Option Bytes
  | .topic => frame.topic
  | .payload => frame.payload
  | .origin => frame.origin
  | .errorCode => frame.errorCode
  | .errorText => frame.errorText

/-- The frame with one field set; an earlier value of the field is replaced. -/
def set (frame : Frame) (field : Field) (value : Bytes) : Frame :=
  match field with
  | .topic => { frame with topic := some value }
  | .payload => { frame with payload := some value }
  | .origin => { frame with origin := some value }
  | .errorCode => { frame with errorCode := some value }
  | .errorText => { frame with errorText := some value }

@[simp] theorem get?_set (frame : Frame) (field other : Field) (value : Bytes) :
    (frame.set field value).get? other =
      if other = field then some value else frame.get? other := by
  cases field <;> cases other <;> rfl

@[simp] theorem event_set (frame : Frame) (field : Field) (value : Bytes) :
    (frame.set field value).event = frame.event := by
  cases field <;> rfl

@[simp] theorem get?_empty (event : Event) (field : Field) :
    ({ event } : Frame).get? field = none := by
  cases field <;> rfl

theorem ext_get? {a b : Frame} (event : a.event = b.event)
    (fields : ∀ field, a.get? field = b.get? field) : a = b := by
  have topic := fields .topic
  have payload := fields .payload
  have origin := fields .origin
  have errorCode := fields .errorCode
  have errorText := fields .errorText
  cases a
  cases b
  simp only [get?] at *
  simp only [*]

def setIfSome (frame : Frame) (field : Field) : Option Bytes → Frame
  | some value => frame.set field value
  | none => frame

/-- The fields that are present with their values, by increasing field byte. -/
def fields (frame : Frame) : List (Field × Bytes) :=
  Field.all.filterMap fun field => (frame.get? field).map (field, ·)

def require (frame : Frame) (field : Field) : Except Fault Bytes :=
  match frame.get? field with
  | some value => .ok value
  | none => .error (.missingField frame.event field)

/-- The frame that reports a fault to a peer: the code's number in two bytes, and the text. -/
def report (code : FaultCode) (text : String) : Frame :=
  { event := .error
    errorCode := some (Bytes.bigEndian 2 code.number)
    errorText := some (Bytes.ofText text) }

/-- The frame that asks the hub to forward a payload to the subscribers of a topic. -/
def publish (topic payload origin : Bytes) : Frame :=
  { event := .publish, topic := some topic, payload := some payload, origin := some origin }

def subscribe (topic : Bytes) : Frame :=
  { event := .subscribe, topic := some topic }

def unsubscribe (topic : Bytes) : Frame :=
  { event := .unsubscribe, topic := some topic }

/-- The frame that carries a payload from the hub to a subscriber. -/
def deliver (topic payload : Bytes) (origin : Option Bytes) : Frame :=
  { event := .deliver, topic := some topic, payload := some payload, origin }

end Frame

end Fanout
