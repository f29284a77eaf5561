import Fanout.Subscription

/-!
# Registries and the streams that they feed

A subscription in two halves. The registry of its notifier lists it and has the only sender of a
channel; the consumer has the stream, with the receiver. A stream that is closed or dropped takes
its subscription off the registry by a hook, which runs once, and finds no registry any more if the
notifier was dropped before. What the program is prepared for but should never meet is told as a
mishap.
-/

namespace Fanout

inductive Mishap
  /-- A number was given to a new subscription that is still listed under it. -/
  | issuedTwice (id : Nat)
  /-- A channel whose sender a registry lists has no receiver, or a closed one. -/
  | closedChannel (id : Nat)
  deriving DecidableEq, Repr

/-- A subscription as its notifier's registry lists it, with the sender of its channel. -/
structure Entry where
  id : Nat
  key : Key
  deriving DecidableEq, Repr

/-- The subscriptions that a notifier lists, each under another number. -/
abbrev Registry := List Entry

namespace Registry

def lists (registry : Registry) (id : Nat) : Bool :=
  registry.any (·.id == id)

/-- Lists a subscription; what was listed under its number is gone. -/
def insert (registry : Registry) (entry : Entry) : Registry :=
  registry.filter (·.id ≠ entry.id) ++ [entry]

def remove (registry : Registry) (id : Nat) : Bool × Registry :=
  (registry.lists id, registry.filter (·.id ≠ id))

def matching (registry : Registry) (condition : Key → Nat → Bool) : List Nat :=
  (registry.filter fun entry => condition entry.key entry.id).map Entry.id

/-- Removes subscriptions one by one; tells how many of them were listed. -/
def removeEach (registry : Registry) : List Nat → Nat × Registry
  | [] => (0, registry)
  | id :: ids =>
    let (listed, registry) := registry.remove id
    let (count, registry) := registry.removeEach ids
    (if listed then count + 1 else count, registry)

end Registry

/-- A stream with the receiver of its channel. -/
structure Stream (α : Type) where
  id : Nat
  /-- The notifier whose registry the close hook looks for. -/
  notifier : Nat
  /-- Whether the close hook has not run. -/
  hooked : Bool := true
  receiving : Bool := true
  /-- What was sent and not yet taken, oldest first. -/
  buffer : List α := []
  deriving DecidableEq, Repr

abbrev Streams (α : Type) := List (Stream α)

namespace Streams

variable {α : Type}

def receives (streams : Streams α) (id : Nat) : Bool :=
  streams.any fun stream => stream.id == id && stream.receiving

def push (streams : Streams α) (id : Nat) (updates : List α) : Streams α :=
  streams.map fun stream =>
    if stream.id = id then { stream with buffer := stream.buffer ++ updates } else stream

def send? (streams : Streams α) (id : Nat) (update : α) : Option (Streams α) :=
  if streams.receives id then some (streams.push id [update]) else none

/-- Sends updates down a channel until it is found to be closed. -/
def sendEach (streams : Streams α) (id : Nat) : List α → List Mishap × Streams α
  | [] => ([], streams)
  | update :: updates =>
    match streams.send? id update with
    | some streams => streams.sendEach id updates
    | none => ([.closedChannel id], streams)

def deliver (batch : List (Notice α)) (streams : Streams α) : Registry → List Mishap × Streams α
  | [] => ([], streams)
  | entry :: registry =>
    let (mishaps, streams) :=
      streams.sendEach entry.id (Subscription.addressed batch entry.key)
    let (more, streams) := deliver batch streams registry
    (mishaps ++ more, streams)

end Streams

structure Switchboard (α : Type) where
  /-- The registry of each notifier; nothing is left of it once the notifier has been dropped. -/
  registries : List (Option Registry) := []
  streams : Streams α := []
  /-- The number that the next subscription gets; numbers have 64 bits. -/
  nextId : Nat := 1
  deriving Repr

namespace Switchboard

variable {α : Type}

def registryAt? (board : Switchboard α) (n : Nat) : Option Registry :=
  board.registries[n]?.join

def listed (board : Switchboard α) (n : Nat) : List Nat :=
  ((board.registryAt? n).getD []).map Entry.id

def count (board : Switchboard α) (n : Nat) : Nat :=
  ((board.registryAt? n).getD []).length

def modifyRegistry (board : Switchboard α) (n : Nat) (change : Registry → Registry) :
    Switchboard α :=
  { board with registries := board.registries.modify n (Option.map change) }

/-- Makes the registry of a new notifier. -/
def attach (board : Switchboard α) : Switchboard α :=
  { board with registries := board.registries ++ [some []] }

/-- Drops a notifier, and with it its registry and all senders. -/
def detach (board : Switchboard α) (n : Nat) : Switchboard α :=
  { board with registries := board.registries.modify n fun _ => none }

/-- Opens a subscription. If its number is listed already, the program gives up before there is a
stream. -/
def subscribe (board : Switchboard α) (n : Nat) (key : Key) : List Mishap × Switchboard α :=
  match board.registryAt? n with
  | some registry =>
    let id := board.nextId
    let listed := { board.modifyRegistry n (·.insert { id, key }) with
      nextId := (id + 1) % UInt64.size }
    if registry.lists id then
      ([.issuedTwice id], listed)
    else
      ([], { listed with streams := board.streams ++ [{ id, notifier := n }] })
  | none => ([], board)

/-- Removes the subscriptions of a notifier that satisfied a condition when it began; tells how
many of them were still listed. -/
def unsubscribe (board : Switchboard α) (n : Nat) (condition : Key → Nat → Bool) :
    Nat × Switchboard α :=
  match board.registryAt? n with
  | some registry =>
    let (count, left) := registry.removeEach (registry.matching condition)
    (count, board.modifyRegistry n fun _ => left)
  | none => (0, board)

def deliver (board : Switchboard α) (n : Nat) (batch : List (Notice α)) :
    List Mishap × Switchboard α :=
  match board.registryAt? n with
  | some registry =>
    let (mishaps, streams) := Streams.deliver batch board.streams registry
    (mishaps, { board with streams })
  | none => ([], board)

def deliverEach (board : Switchboard α) :
    List (Nat × List (Notice α)) → List Mishap × Switchboard α
  | [] => ([], board)
  | (n, batch) :: deliveries =>
    let (mishaps, board) := board.deliver n batch
    let (more, board) := board.deliverEach deliveries
    (mishaps ++ more, board)

/-- Delivers an update to a subscription that a notifier lists; tells whether it was sent. -/
def deliverTo (board : Switchboard α) (n id : Nat) (update : α) :
    Bool × List Mishap × Switchboard α :=
  match board.registryAt? n with
  | some registry =>
    if registry.lists id then
      match board.streams.send? id update with
      | some streams => (true, [], { board with streams })
      | none => (false, [.closedChannel id], board)
    else
      (false, [], board)
  | none => (false, [], board)

/-- Runs the close hook of a stream unless it has run; the registry that it looks for may be
gone. -/
def runHook (board : Switchboard α) (stream : Stream α) : Switchboard α :=
  if stream.hooked then
    board.modifyRegistry stream.notifier fun registry => (registry.remove stream.id).2
  else
    board

def close (board : Switchboard α) (id : Nat) : Switchboard α :=
  match board.streams.find? (·.id == id) with
  | some stream =>
    { board.runHook stream with
      streams := board.streams.map fun stream =>
        if stream.id = id then { stream with hooked := false, receiving := false } else stream }
  | none => board

def drop (board : Switchboard α) (id : Nat) : Switchboard α :=
  match board.streams.find? (·.id == id) with
  | some stream => { board.runHook stream with streams := board.streams.filter (·.id ≠ id) }
  | none => board

/-- What a stream hands out next: what it has buffered, and after that nothing more once its
receiver has been closed or its sender is gone. -/
def poll (board : Switchboard α) (stream : Stream α) : Poll α :=
  match stream.buffer with
  | update :: _ => .item update
  | [] =>
    if stream.receiving && (board.listed stream.notifier).contains stream.id then .pending
    else .ended

def next (board : Switchboard α) (id : Nat) : Poll α × Switchboard α :=
  match board.streams.find? (·.id == id) with
  | some stream =>
    (board.poll stream,
      { board with
        streams := board.streams.map fun stream =>
          if stream.id = id then { stream with buffer := stream.buffer.tail } else stream })
  | none => (.ended, board)

end Switchboard

end Fanout
