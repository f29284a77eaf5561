/-!
# Frame tags

The kinds of frame that nodes and the hub exchange, and the kinds of field a frame can carry, each
with its byte on the wire and its name. Distinct tags have distinct bytes, so a byte is read back as
the tag it was written for.
-/

namespace Fanout

/-- What a frame asks for or reports. -/
inductive Event
  | publish
  | subscribe
  | unsubscribe
  | deliver
  | error
  | ok
  deriving DecidableEq, Repr

namespace Event

/-- Every kind of frame, by increasing byte. -/
def all : List Event :=
  [publish, subscribe, unsubscribe, deliver, error, ok]

def byte : Event → UInt8
  | publish => 0x10
  | subscribe => 0x11
  | unsubscribe => 0x12
  | deliver => 0x13
  | error => 0xF0
  | ok => 0xF1

def name : Event → String
  | publish => "Publish"
  | subscribe => "Subscribe"
  | unsubscribe => "Unsubscribe"
  | deliver => "Deliver"
  | error => "Error"
  | ok => "Ok"

def ofByte? (byte : UInt8) : Option Event :=
  all.find? (·.byte == byte)

@[simp] theorem ofByte?_byte (event : Event) : ofByte? event.byte = some event := by
  cases event <;> rfl

theorem byte_of_ofByte? {byte : UInt8} {event : Event} (h : ofByte? byte = some event) :
    event.byte = byte :=
  beq_iff_eq.1 (List.find?_some (p := fun event : Event => event.byte == byte) h)

end Event

/-- What a value inside a frame means. -/
inductive Field
  | topic
  | payload
  | origin
  | errorCode
  | errorText
  deriving DecidableEq, Repr

namespace Field

/-- Every kind of field, by increasing byte. -/
def all : List Field :=
  [topic, payload, origin, errorCode, errorText]

theorem mem_all (field : Field) : field ∈ all := by
  cases field <;> decide

def byte : Field → UInt8
  | topic => 0x01
  | payload => 0x02
  | origin => 0x03
  | errorCode => 0x08
  | errorText => 0x09

def name : Field → String
  | topic => "Topic"
  | payload => "Payload"
  | origin => "Origin"
  | errorCode => "ErrorCode"
  | errorText => "ErrorText"

def ofByte? (byte : UInt8) : Option Field :=
  all.find? (·.byte == byte)

@[simp] theorem ofByte?_byte (field : Field) : ofByte? field.byte = some field := by
  cases field <;> rfl

theorem byte_of_ofByte? {byte : UInt8} {field : Field} (h : ofByte? byte = some field) :
    field.byte = byte :=
  beq_iff_eq.1 (List.find?_some (p := fun field : Field => field.byte == byte) h)

end Field

end Fanout
