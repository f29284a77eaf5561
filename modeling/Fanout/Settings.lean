import Fanout.Bytes
import Fanout.Fault
import Fanout.Text.Blank
import Fanout.Toml.Document

/-!
# Settings

What a process has to know: its name, where its broker is, how long to wait between attempts to
connect, and, if it also hosts the hub, where. Settings are kept as TOML. Reading ignores what it
does not know, takes the sections also as lists of their fields, and wants an endpoint that is not
blank; writing fails only for an interval that TOML integers cannot hold.
-/

namespace Fanout

open Toml

structure Settings where
  id : String
  endpoint : String
  reconnectIntervalMs : UInt64 := 1000
  hub : Option String := none
  deriving DecidableEq, Repr

namespace Settings

def intervalSeconds (settings : Settings) : Nat :=
  settings.reconnectIntervalMs.toNat / 1000

/-- What the wait between attempts to connect has beyond whole seconds, in nanoseconds. -/
def intervalNanoseconds (settings : Settings) : Nat :=
  settings.reconnectIntervalMs.toNat % 1000 * 1000000

def text? : Node → Option String
  | .text value => some value
  | _ => none

def uint64? : Node → Option UInt64
  | .scalar (.integer n) => if 0 ≤ n then some (UInt64.ofNat n.toNat) else none
  | _ => none

/-- The fields of a section, which is a table or a list of fields in order; the last fields of a
list may be missing, and what follows them does not count. -/
def section? (names : List String) : Node → Option Entries
  | .table _ entries => some entries
  | .array items => some (names.zip items)
  | _ => none

/-- The settings that a document spells, whatever its endpoint. -/
def ofEntries? (entries : Entries) : Option Settings := do
  let id ← text? (← entries.lookup "id")
  let broker ← section? ["endpoint", "reconnect_interval_ms"] (← entries.lookup "broker")
  let endpoint ← text? (← broker.lookup "endpoint")
  let reconnectIntervalMs ← match broker.lookup "reconnect_interval_ms" with
    | some node => uint64? node
    | none => some 1000
  let hub ← match entries.lookup "hub" with
    | some node => do
      let fields ← section? ["addr"] node
      some (some (← text? (← fields.lookup "addr")))
    | none => some none
  return { id, endpoint, reconnectIntervalMs, hub }

def ofText (text : String) : Except Fault Settings :=
  match (parse? text).bind ofEntries? with
  | none => .error .malformedSettings
  | some settings =>
    if Text.allBlank settings.endpoint then .error .emptyEndpoint else .ok settings

def ofFile (contents : Option Bytes) : Except Fault Settings :=
  match contents.bind Bytes.toText? with
  | some text => ofText text
  | none => .error .unreadableSettings

def textLine (name value : String) : String :=
  name ++ " = " ++ String.ofList (Toml.Text.render value) ++ "\n"

def render (settings : Settings) : String :=
  textLine "id" settings.id ++ "\n[broker]\n" ++ textLine "endpoint" settings.endpoint ++
    "reconnect_interval_ms = " ++ toString settings.reconnectIntervalMs.toNat ++ "\n" ++
    match settings.hub with
    | some address => "\n[hub]\n" ++ textLine "addr" address
    | none => ""

def toText (settings : Settings) : Except Fault String :=
  if settings.reconnectIntervalMs.toNat ≤ 0x7FFFFFFFFFFFFFFF then .ok settings.render
  else .error .unwritableSettings

/-- The number of a network address: a 16-bit number in decimal digits, which a plus sign may
precede. -/
def addressNumber? (text : List Char) : Option Nat :=
  let digits := match text with
    | '+' :: rest => rest
    | text => text
  if digits ≠ [] ∧ digits.all Scalar.isDigit then Scalar.numeralUpTo? 0xFFFF 10 digits else none

/-- The host and the number of a network address, which its last colon separates. The name of a host
has no zero character, since that would end it early where names are looked up. -/
def address? (text : String) : Option (String × Nat) := do
  let reversed := text.toList.reverse
  match reversed.span (· ≠ ':') with
  | (number, ':' :: host) =>
    if host.contains '\x00' then none
    else some (String.ofList host.reverse, ← addressNumber? number.reverse)
  | _ => none

/-- Where a process with these settings hosts the hub, if it does. -/
def hubAddress (settings : Settings) : Except Fault (Option (String × Nat)) :=
  match settings.hub with
  | none => .ok none
  | some text =>
    match address? text with
    | some address => .ok (some address)
    | none => .error (.io "invalid socket address")

end Settings

end Fanout
