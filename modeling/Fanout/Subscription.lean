import Fanout.Notice

/-!
# Subscriptions and their streams

A subscription belongs to a notifier, has a key, and feeds one stream. It is live while the notifier
lists it; its stream buffers what is delivered until the consumer takes it, and after the
subscription has ended still yields what it had buffered. Operations work on the list of all
subscriptions and touch each one on its own.
-/

namespace Fanout

/-- A subscription together with its stream. -/
structure Subscription (α : Type) where
  /-- The number by which it is addressed; every subscription has its own. -/
  id : Nat
  notifier : Nat
  key : Key
  /-- Whether its notifier still lists it. -/
  live : Bool := true
  /-- Whether the consumer has not closed the stream. -/
  receiving : Bool := true
  /-- What was delivered and not yet taken, oldest first. -/
  buffer : List α := []
  deriving DecidableEq, Repr

inductive Poll (α : Type)
  | item (update : α)
  | pending
  | ended
  deriving DecidableEq, Repr

namespace Subscription

variable {α : Type}

/-- The updates of a batch that are addressed to a key, in batch order. -/
def addressed (batch : List (Notice α)) (key : Key) : List α :=
  (batch.filter fun notice => notice.key = key).map Notice.update

def reachable (notifier : Nat) (sub : Subscription α) : Bool :=
  sub.notifier == notifier && sub.live && sub.receiving

def push (updates : List α) (sub : Subscription α) : Subscription α :=
  { sub with buffer := sub.buffer ++ updates }

/-- The subscription after its notifier has removed it. -/
def cut (sub : Subscription α) : Subscription α :=
  { sub with live := false }

def poll (sub : Subscription α) : Poll α :=
  match sub.buffer with
  | update :: _ => .item update
  | [] => if sub.live then .pending else .ended

def pop (sub : Subscription α) : Subscription α :=
  { sub with buffer := sub.buffer.tail }

end Subscription

/-- All subscriptions whose streams still exist. -/
abbrev Subscriptions (α : Type) := List (Subscription α)

namespace Subscriptions

variable {α : Type}

def get? (subs : Subscriptions α) (id : Nat) : Option (Subscription α) :=
  subs.find? (·.id == id)

def modify (subs : Subscriptions α) (id : Nat) (change : Subscription α → Subscription α) :
    Subscriptions α :=
  subs.map fun sub => if sub.id = id then change sub else sub

def count (subs : Subscriptions α) (notifier : Nat) : Nat :=
  subs.countP fun sub => sub.notifier == notifier && sub.live

/-- Delivers a batch to the subscriptions of a notifier: every stream gets what is addressed to its
key. -/
def deliver (notifier : Nat) (batch : List (Notice α)) (subs : Subscriptions α) : Subscriptions α :=
  subs.map fun sub =>
    if sub.reachable notifier then sub.push (Subscription.addressed batch sub.key) else sub

/-- The number of updates that a delivery puts into buffers. -/
def delivered (notifier : Nat) (batch : List (Notice α)) : Subscriptions α → Nat
  | [] => 0
  | sub :: subs =>
    if sub.reachable notifier then
      (Subscription.addressed batch sub.key).length + delivered notifier batch subs
    else
      delivered notifier batch subs

def deliverTo? (notifier id : Nat) (update : α) (subs : Subscriptions α) :
    Option (Subscriptions α) :=
  if subs.any fun sub => sub.id == id && sub.reachable notifier then
    some (subs.map fun sub =>
      if sub.id = id ∧ sub.reachable notifier then sub.push [update] else sub)
  else
    none

def matched (notifier : Nat) (condition : Key → Nat → Bool) (sub : Subscription α) : Bool :=
  sub.notifier == notifier && sub.live && condition sub.key sub.id

/-- Ends the live subscriptions of a notifier that satisfy a condition; tells how many. -/
def remove (notifier : Nat) (condition : Key → Nat → Bool) (subs : Subscriptions α) :
    Nat × Subscriptions α :=
  (subs.countP (matched notifier condition),
    subs.map fun sub => if matched notifier condition sub then sub.cut else sub)

/-- Closes a stream from the consumer's side, which ends its subscription. -/
def close (subs : Subscriptions α) (id : Nat) : Subscriptions α :=
  subs.modify id fun sub => { sub.cut with receiving := false }

def drop (subs : Subscriptions α) (id : Nat) : Subscriptions α :=
  subs.filter fun sub => sub.id ≠ id

end Subscriptions

end Fanout
