import Fanout.Json.Record
import Fanout.Topic
import Fanout.Update

/-!
# Notices

A notice is an update addressed to a key: a user or a chat. Batches of notices are what travels
between processes, as JSON.
-/

namespace Fanout

open Json Json.Value

/-- Who an update is for: the subscriptions of a user, or those of a chat. -/
inductive Key
  | user (id : UserId)
  | chat (id : ChatId)
  deriving DecidableEq, Repr

namespace Key

def user? : Key → Option UserId
  | user id => some id
  | chat _ => none

def chat? : Key → Option ChatId
  | chat id => some id
  | user _ => none

def toValue : Key → Value
  | user id => ofRecord [("ByUser", ofInt64 id)]
  | chat id => ofRecord [("ByChat", ofInt64 id)]

/-- The key that an object of exactly one kind spells. -/
def ofValue? (value : Value) : Option Key := do
  match ← value.members? with
  | [(kind, id)] =>
    if kind = "ByUser" then
      return user (← id.int64?)
    else if kind = "ByChat" then
      return chat (← id.int64?)
    else
      none
  | _ => none

def form : Form Key where
  toValue := toValue
  ofValue? _ := ofValue?

end Key

/-- An update and the key it is addressed to. -/
structure Notice (α : Type) where
  update : α
  key : Key
  deriving DecidableEq, Repr

namespace Notice

def names : List String :=
  ["update", "key"]

def form {α : Type} (updates : Form α) : Form (Notice α) where
  toValue notice :=
    ofRecord [("update", updates.toValue notice.update), ("key", notice.key.toValue)]
  ofValue? levels value := do
    let fields ← value.record? names
    return {
      update := ← updates.ofValue? (levels - 1) (← fields.lookup "update")
      key := ← Key.ofValue? (← fields.lookup "key") }

def batch {α : Type} (updates : Form α) : Form (List (Notice α)) :=
  Form.list (form updates)

/-- The batch that addresses one update to each of the keys. -/
def toEach {α : Type} (update : α) (keys : List Key) : List (Notice α) :=
  keys.map fun key => { update, key }

end Notice

namespace Topic

def form : Form Topic where
  toValue topic := ofText topic.name
  ofValue? _ value := value.name?.bind ofName?

end Topic

end Fanout
