import Fanout.Fault
import Fanout.Listeners
import Fanout.Subscription

/-!
# Processes on an in-memory bus

A world is a number of processes, each attached to a bus, and the notifiers and subscriptions in
them. A batch published by a connected process reaches the listener for its topic in every connected
process on the same bus, its own included, at once. A notifier's listener delivers the batch to the
notifier's subscriptions; a recorder's is only heard. A process leaves its bus once neither the
program nor a notifier holds it.
-/

namespace Fanout

/-- What is called with the payloads of a topic. -/
inductive Listener
  /-- Tells the program, by a tag, what it was called with. -/
  | recorder (tag : String)
  | notifier (index : Nat)
  deriving DecidableEq, Repr

structure Process where
  bus : Nat
  connected : Bool := true
  /-- Whether the program itself still holds the process. -/
  held : Bool := true
  listeners : Listeners Listener := []
  deriving DecidableEq, Repr

structure Notifier where
  process : Nat
  topic : Topic
  /-- Whether the listener of its topic is one that it registered and has to remove. -/
  ownsListener : Bool := false
  dropped : Bool := false
  deriving DecidableEq, Repr

structure Heard where
  process : Nat
  tag : String
  topic : Topic
  payload : Bytes
  deriving DecidableEq, Repr

/-- Processes, notifiers and subscriptions. Processes, notifiers and buses are known by their place
in the list; the first bus is the one that processes share. -/
structure World (α : Type) where
  /-- For each bus the number of batches that reached it. -/
  buses : List Nat := [0]
  processes : List Process := []
  notifiers : List Notifier := []
  subscriptions : Subscriptions α := []
  nextId : Nat := 1
  deriving Repr

abbrev Forms (α : Type) := Topic → Json.Form α

namespace World

variable {α : Type}

/-- The notifier at this place, unless it has been dropped. -/
def notifier? (world : World α) (n : Nat) : Option Notifier :=
  match world.notifiers[n]? with
  | some notifier => if notifier.dropped then none else some notifier
  | none => none

def isHeld (world : World α) (p : Nat) : Bool :=
  match world.processes[p]? with
  | some process => process.held || world.notifiers.any fun n => n.process == p && !n.dropped
  | none => false

def isConnected (world : World α) (p : Nat) : Bool :=
  match world.processes[p]? with
  | some process => process.connected
  | none => false

def listener? (world : World α) (p : Nat) (topic : Topic) : Option Listener :=
  world.processes[p]?.bind fun process => Table.get? process.listeners topic

/-- The number of batches that reached the shared bus. -/
def published (world : World α) : Nat :=
  world.buses.headD 0

def modifyProcess (world : World α) (p : Nat) (change : Process → Process) : World α :=
  { world with processes := world.processes.modify p change }

def modifyNotifier (world : World α) (n : Nat) (change : Notifier → Notifier) : World α :=
  { world with notifiers := world.notifiers.modify n change }

def connect (world : World α) : World α :=
  { world with processes := world.processes ++ [{ bus := 0 }] }

/-- Attaches a new process to a bus of its own. -/
def standalone (world : World α) : World α :=
  { world with
    buses := world.buses ++ [0]
    processes := world.processes ++ [{ bus := world.buses.length }] }

def release (world : World α) (p : Nat) : World α :=
  world.modifyProcess p fun process => { process with held := false }

def setConnected (world : World α) (p : Nat) (connected : Bool) : World α :=
  world.modifyProcess p fun process => { process with connected }

/-- Registers a listener with a process unless the topic has one; tells whether it did. -/
def register (world : World α) (p : Nat) (topic : Topic) (listener : Listener) :
    Bool × World α :=
  match world.processes[p]? with
  | some process =>
    let (done, listeners) := process.listeners.register topic listener
    (done, world.modifyProcess p fun process => { process with listeners })
  | none => (false, world)

def unregister (world : World α) (p : Nat) (topic : Topic) : World α :=
  world.modifyProcess p fun process =>
    { process with listeners := (process.listeners.unregister topic).2 }

/-- Decodes a payload and delivers it to the notifier's subscriptions. A payload that cannot be
decoded is dropped. -/
def notifyPayload (forms : Forms α) (world : World α) (n : Nat) (payload : Bytes) : World α :=
  match world.notifier? n with
  | some notifier =>
    match (Notice.batch (forms notifier.topic)).decode? payload with
    | some batch => { world with subscriptions := world.subscriptions.deliver n batch }
    | none => world
  | none => world

/-- Who is called when a batch reaches a bus: the listeners for the topic in the connected processes
that are attached to it. -/
def targets (world : World α) (bus : Nat) (topic : Topic) : List (Nat × Listener) :=
  (List.range world.processes.length).filterMap fun p =>
    match world.processes[p]? with
    | some process =>
      if process.bus == bus && process.connected && world.isHeld p then
        (Table.get? process.listeners topic).map (p, ·)
      else
        none
    | none => none

def heardBy (topic : Topic) (payload : Bytes) (targets : List (Nat × Listener)) : List Heard :=
  targets.filterMap fun target =>
    match target.2 with
    | .recorder tag => some { process := target.1, tag, topic, payload }
    | .notifier _ => none

def callNotifiers (forms : Forms α) (payload : Bytes) (targets : List (Nat × Listener))
    (world : World α) : World α :=
  targets.foldl
    (fun world target =>
      match target.2 with
      | .recorder _ => world
      | .notifier n => world.notifyPayload forms n payload)
    world

/-- Hands a batch to the bus of a process, unless the process is cut off from it. -/
def broadcast (forms : Forms α) (world : World α) (p : Nat) (topic : Topic) (payload : Bytes) :
    List Heard × World α :=
  match world.processes[p]? with
  | some process =>
    if process.connected then
      let targets := world.targets process.bus topic
      (heardBy topic payload targets,
        callNotifiers forms payload targets
          { world with buses := world.buses.modify process.bus (· + 1) })
    else
      ([], world)
  | none => ([], world)

def addNotifier (world : World α) (p : Nat) (topic : Topic) : World α :=
  { world with notifiers := world.notifiers ++ [{ process := p, topic }] }

/-- Registers a notifier as the listener of its topic unless the topic has one; tells whether it
did. -/
def listen (world : World α) (n : Nat) : Bool × World α :=
  match world.notifier? n with
  | some notifier =>
    let (done, world) := world.register notifier.process notifier.topic (.notifier n)
    if done then
      (true, world.modifyNotifier n fun notifier => { notifier with ownsListener := true })
    else
      (false, world)
  | none => (false, world)

/-- Removes the listener of a notifier's topic if the notifier registered it. -/
def releaseListener (world : World α) (n : Nat) : World α :=
  match world.notifier? n with
  | some notifier =>
    if notifier.ownsListener then
      (world.unregister notifier.process notifier.topic).modifyNotifier n
        fun notifier => { notifier with ownsListener := false }
    else
      world
  | none => world

/-- Ends the notifier's live subscriptions that satisfy a condition; tells how many. -/
def unsubscribe (world : World α) (n : Nat) (condition : Key → Nat → Bool) : Nat × World α :=
  let (count, subscriptions) := world.subscriptions.remove n condition
  (count, { world with subscriptions })

def shutdown (world : World α) (n : Nat) : World α :=
  ((world.unsubscribe n fun _ _ => true).2).releaseListener n

/-- Drops a notifier with its subscriptions; streams keep what they have buffered. -/
def dropNotifier (world : World α) (n : Nat) : World α :=
  (world.shutdown n).modifyNotifier n fun notifier => { notifier with dropped := true }

def subscribe (world : World α) (n : Nat) (key : Key) : Nat × World α :=
  (world.nextId,
    { world with
      subscriptions := world.subscriptions ++ [{ id := world.nextId, notifier := n, key }]
      nextId := world.nextId + 1 })

/-- Publishes an update to each of the keys, in every process. Without keys there is nothing to
publish. -/
def publish (forms : Forms α) (world : World α) (n : Nat) (update : α) (keys : List Key) :
    List Heard × World α :=
  match world.notifier? n with
  | some notifier =>
    if keys.isEmpty then
      ([], world)
    else
      let batch := Notice.toEach update keys
      world.broadcast forms notifier.process notifier.topic
        ((Notice.batch (forms notifier.topic)).encode batch)
  | none => ([], world)

def notifySubscriber (world : World α) (n : Nat) (update : α) (id : Nat) :
    Except Fault (World α) :=
  match world.subscriptions.deliverTo? n id update with
  | some subscriptions => .ok { world with subscriptions }
  | none => .error (.unknownSubscription id)

def notifyOrPublish (forms : Forms α) (world : World α) (n : Nat) (update : α) (id : Nat)
    (key : Key) : List Heard × World α :=
  match world.notifySubscriber n update id with
  | .ok world => ([], world)
  | .error _ => world.publish forms n update [key]

/-- Asks a stream for its next update and takes it. A stream that does not exist has ended. -/
def next (world : World α) (id : Nat) : Poll α × World α :=
  match world.subscriptions.get? id with
  | some sub =>
    (sub.poll,
      { world with subscriptions := world.subscriptions.modify id Subscription.pop })
  | none => (.ended, world)

/-- How many answers a task can take from streams before it has to give way to others. -/
def allowance : Nat :=
  128

/-- Asks a stream until it has no update to give or the task's allowance of answers is used up;
tells whether the stream was found to have ended, and what is left of the allowance. An answer that
makes the task wait costs nothing. To a task without allowance every stream seems pending. -/
def collect (world : World α) (allowance id : Nat) : List α × Bool × Nat × World α :=
  match allowance with
  | 0 => ([], false, 0, world)
  | left + 1 =>
    match world.next id with
    | (.item update, world) =>
      let (updates, ended, left, world) := world.collect left id
      (update :: updates, ended, left, world)
    | (.pending, world) => ([], false, left + 1, world)
    | (.ended, world) => ([], true, left, world)

def drain (world : World α) (id : Nat) : List α × World α :=
  let buffered := (world.subscriptions.get? id).elim 0 (·.buffer.length)
  let (updates, _, _, world) := world.collect buffered id
  (updates, world)

def close (world : World α) (id : Nat) : World α :=
  { world with subscriptions := world.subscriptions.close id }

def dropStream (world : World α) (id : Nat) : World α :=
  { world with subscriptions := world.subscriptions.drop id }

end World

end Fanout
