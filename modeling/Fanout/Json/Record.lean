import Fanout.Json.Value

/-!
# Typed data in JSON

How numbers, texts, lists, records and tagged alternatives are written and read. A record is an
object with named fields in any order, or a list of exactly its fields; fields with other names are
ignored and a field given twice is refused. An alternative is an object of a tag and its data, or a
list of the two. Data that comes before its tag has to wait for it, and what waits must be sound and
may not nest deeper than the levels that are left.
-/

namespace Fanout.Json.Value

def ofText (text : String) : Value :=
  string (Quoted.ofText text)

def ofInt64 (n : Int64) : Value :=
  number (Number.ofInt n.toInt)

def ofUInt64 (n : UInt64) : Value :=
  number (Number.ofInt n.toNat)

def ofList {α : Type} (write : α → Value) (items : List α) : Value :=
  array (items.map write)

/-- A value that may be missing, as itself or null. -/
def ofOption {α : Type} (write : α → Value) : Option α → Value
  | some item => write item
  | none => null

def ofRecord (fields : List (String × Value)) : Value :=
  object (fields.map fun field => (Quoted.ofText field.1, field.2))

/-- An alternative as an object of its tag and, if it has any, its data. -/
def ofTagged (tag : String) : Option Value → Value
  | some data => ofRecord [("type", ofText tag), ("data", data)]
  | none => ofRecord [("type", ofText tag)]

def text? : Value → Option String
  | string contents => contents.text?
  | _ => none

def bool? : Value → Option Bool
  | bool value => some value
  | _ => none

def int? : Value → Option Int
  | number value => value.toInt?
  | _ => none

def int64? (value : Value) : Option Int64 :=
  match value.int? with
  | some n =>
    if -0x8000000000000000 ≤ n ∧ n ≤ 0x7FFFFFFFFFFFFFFF then some (Int64.ofInt n) else none
  | none => none

def uint64? (value : Value) : Option UInt64 :=
  match value.int? with
  | some n => if 0 ≤ n ∧ n ≤ 0xFFFFFFFFFFFFFFFF then some (UInt64.ofNat n.toNat) else none
  | none => none

def list? {α : Type} (read : Value → Option α) : Value → Option (List α)
  | array items => items.mapM read
  | _ => none

def option? {α : Type} (read : Value → Option α) : Value → Option (Option α)
  | null => some none
  | value => (read value).map some

def members? : Value → Option (List (String × Value))
  | object members => members.mapM fun member => member.1.text?.map (·, member.2)
  | _ => none

/-- The fields of a record that is written as an object. -/
def fields? (names : List String) (value : Value) : Option (List (String × Value)) := do
  let members ← value.members?
  let known := members.filter fun member => names.contains member.1
  if (known.map Prod.fst).Nodup then some known else none

/-- The fields of a record in either form. -/
def record? (names : List String) : Value → Option (List (String × Value))
  | array items => if items.length = names.length then some (names.zip items) else none
  | value => value.fields? names

/-- The name that a value is: a text, or an object whose only member has that name and is null. -/
def name? : Value → Option String
  | string contents => contents.text?
  | object [(key, null)] => key.text?
  | _ => none

/-- The tag of an alternative and its data, which may use the given number of levels. In a list the
tag has to be a text; in an object it may be a name in either form. -/
def tagged? (levels : Nat) : Value → Option (String × Option Value)
  | array [tag, data] => tag.text?.map (·, some data)
  | value => do
    let members ← value.members?
    match members.filter fun member => member.1 == "type" || member.1 == "data" with
    | [(first, a)] => if first = "type" then a.name?.map (·, none) else none
    | [(first, a), (second, b)] =>
      if first = "type" ∧ second = "data" then
        a.name?.map (·, some b)
      else if first = "data" ∧ second = "type" ∧ a.depth ≤ levels ∧ a.isSound then
        b.name?.map (·, some a)
      else
        none
    | _ => none

/-- Data without content. -/
def unit? : Option Value → Option Unit
  | none => some ()
  | some null => some ()
  | some _ => none

end Fanout.Json.Value

namespace Fanout.Json

/-- How data of one type is written as JSON and read from it. Reading is told how many levels the
value may nest. -/
structure Form (α : Type) where
  toValue : α → Value
  ofValue? : Nat → Value → Option α

/-- The number of levels that a text may nest where its values have to be kept. -/
def levelLimit : Nat :=
  127

namespace Form

def encode {α : Type} (form : Form α) (data : α) : Bytes :=
  (form.toValue data).render

/-- The data that a whole text spells. -/
def decode? {α : Type} (form : Form α) (bytes : Bytes) : Option α :=
  (Value.parse? bytes).bind (form.ofValue? levelLimit)

def text : Form String where
  toValue := Value.ofText
  ofValue? _ := Value.text?

def list {α : Type} (form : Form α) : Form (List α) where
  toValue := Value.ofList form.toValue
  ofValue? levels := Value.list? (form.ofValue? (levels - 1))

end Form

end Fanout.Json
