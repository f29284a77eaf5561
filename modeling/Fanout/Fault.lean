import Fanout.Bytes
import Fanout.Frame.Tag

/-!
# Faults

Everything that can go wrong, as causes. A cause has a code, which error frames carry as a number,
and a text. Codes and numbers determine each other (`ofNumber?_number`).
-/

namespace Fanout

/-- The kind of a fault, known to every party by its number. -/
inductive FaultCode
  | invalidEventType
  | malformedTlv
  | incompleteMessage
  | frameTooLarge
  | missingField
  | unknownSubscription
  | undecodableBatch
  | brokerUnreachable
  | internalServerError
  | configInvalid
  | connectionFailed
  | sendFailed
  | readFailed
  | writeFailed
  deriving DecidableEq, Repr

namespace FaultCode

def all : List FaultCode :=
  [invalidEventType, malformedTlv, incompleteMessage, frameTooLarge, missingField,
    unknownSubscription, undecodableBatch, brokerUnreachable, internalServerError, configInvalid,
    connectionFailed, sendFailed, readFailed, writeFailed]

/-- Protocol faults start at 0x0001, notifier faults at 0x0101, broker faults at 0x0201, system
faults at 0x0301 and client faults at 0x0401. -/
def number : FaultCode → Nat
  | invalidEventType => 0x0001
  | malformedTlv => 0x0002
  | incompleteMessage => 0x0003
  | frameTooLarge => 0x0004
  | missingField => 0x0005
  | unknownSubscription => 0x0101
  | undecodableBatch => 0x0102
  | brokerUnreachable => 0x0201
  | internalServerError => 0x0301
  | configInvalid => 0x0302
  | connectionFailed => 0x0401
  | sendFailed => 0x0402
  | readFailed => 0x0403
  | writeFailed => 0x0404

def ofNumber? (number : Nat) : Option FaultCode :=
  all.find? (·.number == number)

@[simp] theorem ofNumber?_number (code : FaultCode) : ofNumber? code.number = some code := by
  cases code <;> rfl

theorem number_lt (code : FaultCode) : code.number < Bytes.capacity 2 := by
  cases code <;> decide

def name : FaultCode → String
  | invalidEventType => "INVALID_EVENT_TYPE"
  | malformedTlv => "MALFORMED_TLV"
  | incompleteMessage => "INCOMPLETE_MESSAGE"
  | frameTooLarge => "FRAME_TOO_LARGE"
  | missingField => "MISSING_FIELD"
  | unknownSubscription => "UNKNOWN_SUBSCRIPTION"
  | undecodableBatch => "UNDECODABLE_BATCH"
  | brokerUnreachable => "BROKER_UNREACHABLE"
  | internalServerError => "INTERNAL_SERVER_ERROR"
  | configInvalid => "CONFIG_INVALID"
  | connectionFailed => "CONNECTION_FAILED"
  | sendFailed => "SEND_FAILED"
  | readFailed => "READ_FAILED"
  | writeFailed => "WRITE_FAILED"

def description : FaultCode → String
  | invalidEventType => "Unknown or invalid event type"
  | malformedTlv => "Malformed or inconsistent TLV field"
  | incompleteMessage => "Incomplete or truncated message"
  | frameTooLarge => "Frame exceeds the maximum frame size"
  | missingField => "Required field missing from frame"
  | unknownSubscription => "No live subscription with that id"
  | undecodableBatch => "Notification batch could not be decoded"
  | brokerUnreachable => "External broker is unreachable"
  | internalServerError => "Unexpected server error"
  | configInvalid => "Invalid configuration"
  | connectionFailed => "Failed to connect to server"
  | sendFailed => "Failed to send message"
  | readFailed => "Failed to read from connection"
  | writeFailed => "Failed to write to connection"

end FaultCode

/-- At least `width` uppercase hexadecimal digits of a number. -/
def hexText (width n : Nat) : String :=
  let digits := (Nat.toDigits 16 n).map Char.toUpper
  String.ofList (List.replicate (width - digits.length) '0' ++ digits)

def FaultCode.text (code : FaultCode) : String :=
  code.name ++ " (0x" ++ hexText 4 code.number ++ ")"

inductive Fault
  | unknownEvent (byte : UInt8)
  | unknownField (byte : UInt8)
  /-- A frame too short for its own header. -/
  | shortFrame
  | lengthMismatch (declared size : Nat)
  | truncatedFieldHeader
  | incompleteField
  | oversizedFrame (size limit : Nat)
  | missingField (event : Event) (field : Field)
  | lengthBelowHeader (declared : Nat)
  | lengthAboveLimit (declared : Nat)
  /-- A stream that failed inside a length prefix. -/
  | headerUnread (reason : String)
  /-- A stream that ended or failed inside a frame's body. -/
  | bodyUnread (reason : String)
  | hubOnlyFrame
  | unknownSubscription (id : Nat)
  | undecodableBatch
  | emptyEndpoint
  | malformedSettings
  /-- A settings file that cannot be read as text. -/
  | unreadableSettings
  | unwritableSettings
  /-- A fault that a peer reported. -/
  | reported (code : FaultCode) (message : String)
  /-- A failure of the operating system. -/
  | io (message : String)
  deriving DecidableEq, Repr

namespace Fault

/-- The code of a fault; failures of the operating system have none. -/
def code? : Fault → Option FaultCode
  | unknownEvent _ => some .invalidEventType
  | unknownField _ => some .malformedTlv
  | shortFrame => some .incompleteMessage
  | lengthMismatch _ _ => some .malformedTlv
  | truncatedFieldHeader => some .malformedTlv
  | incompleteField => some .malformedTlv
  | oversizedFrame _ _ => some .frameTooLarge
  | missingField _ _ => some .missingField
  | lengthBelowHeader _ => some .malformedTlv
  | lengthAboveLimit _ => some .frameTooLarge
  | headerUnread _ => some .readFailed
  | bodyUnread _ => some .readFailed
  | hubOnlyFrame => some .invalidEventType
  | unknownSubscription _ => some .unknownSubscription
  | undecodableBatch => some .undecodableBatch
  | emptyEndpoint => some .configInvalid
  | malformedSettings => some .configInvalid
  | unreadableSettings => some .configInvalid
  | unwritableSettings => some .configInvalid
  | reported code _ => some code
  | io _ => none

/-- The code that a peer is told; a failure of the operating system counts as internal. -/
def code (fault : Fault) : FaultCode :=
  fault.code?.getD .internalServerError

def message : Fault → String
  | unknownEvent byte => "Unknown event type: 0x" ++ hexText 2 byte.toNat
  | unknownField byte => "Unknown field type: 0x" ++ hexText 2 byte.toNat
  | shortFrame => "Message too short"
  | lengthMismatch declared size =>
    s!"Length header {declared} does not match frame size {size}"
  | truncatedFieldHeader => "Truncated field header"
  | incompleteField => "Incomplete TLV field"
  | oversizedFrame size limit => s!"Frame of {size} bytes exceeds {limit} bytes"
  | missingField event field => event.name ++ " frame is missing field " ++ field.name
  | lengthBelowHeader declared => s!"Frame length {declared} below header size"
  | lengthAboveLimit declared => s!"Frame length {declared} exceeds maximum"
  | headerUnread reason => "Failed to read frame header: " ++ reason
  | bodyUnread reason => "Failed to read frame body: " ++ reason
  | hubOnlyFrame => "Deliver frames are only sent by the hub"
  | unknownSubscription id => s!"no live subscription with id {id}"
  | undecodableBatch => "Failed to decode batch"
  | emptyEndpoint => "broker.endpoint must not be empty"
  | malformedSettings => "Failed to parse TOML"
  | unreadableSettings => "Failed to read config file"
  | unwritableSettings => "Failed to serialize to TOML"
  | reported _ message => message
  | io message => "I/O error: " ++ message

/-- A fault in full: most are introduced by their code. -/
def text : Fault → String
  | unknownSubscription id => (unknownSubscription id).message
  | io message => (io message).message
  | fault => fault.code.text ++ ": " ++ fault.message

end Fault

def Event.read (byte : UInt8) : Except Fault Event :=
  match ofByte? byte with
  | some event => .ok event
  | none => .error (.unknownEvent byte)

def Field.read (byte : UInt8) : Except Fault Field :=
  match ofByte? byte with
  | some field => .ok field
  | none => .error (.unknownField byte)

end Fanout
