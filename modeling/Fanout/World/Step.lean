import Fanout.World

/-!
# Runs of a world

Everything that a program does with processes, notifiers and streams, as steps. A step gives an
answer, tells what recorders heard, and leaves a new world; a run is a list of steps from the empty
world.
-/

namespace Fanout

/-- One use of a world. Processes, notifiers and streams are given by their numbers. -/
inductive Step (α : Type)
  | connect
  | standalone
  | release (p : Nat)
  | disconnect (p : Nat)
  | reconnect (p : Nat)
  | broadcast (p : Nat) (topic : Topic) (payload : Bytes)
  | record (p : Nat) (topic : Topic) (tag : String)
  | unrecord (p : Nat) (topic : Topic)
  | addNotifier (p : Nat) (topic : Topic)
  | dropNotifier (n : Nat)
  | listen (n : Nat)
  | shutdown (n : Nat)
  | subscribe (n : Nat) (key : Key)
  | unsubscribe (n : Nat) (condition : Key → Nat → Bool)
  | publish (n : Nat) (update : α) (keys : List Key)
  | notifyPayload (n : Nat) (payload : Bytes)
  | notifySubscriber (n : Nat) (update : α) (id : Nat)
  | notifyOrPublish (n : Nat) (update : α) (id : Nat) (key : Key)
  | next (id : Nat)
  | close (id : Nat)
  | dropStream (id : Nat)

inductive Answer (α : Type)
  | done
  | flag (value : Bool)
  | number (n : Nat)
  | refused (fault : Fault)
  | polled (poll : Poll α)
  deriving DecidableEq, Repr

namespace World

variable {α : Type}

def step (forms : Forms α) (world : World α) : Step α → Answer α × List Heard × World α
  | .connect => (.number world.processes.length, [], world.connect)
  | .standalone => (.number world.processes.length, [], world.standalone)
  | .release p => (.done, [], world.release p)
  | .disconnect p => (.done, [], world.setConnected p false)
  | .reconnect p => (.done, [], world.setConnected p true)
  | .broadcast p topic payload => (.done, world.broadcast forms p topic payload)
  | .record p topic tag =>
    let (done, world) := world.register p topic (.recorder tag)
    (.flag done, [], world)
  | .unrecord p topic => (.done, [], world.unregister p topic)
  | .addNotifier p topic => (.number world.notifiers.length, [], world.addNotifier p topic)
  | .dropNotifier n => (.done, [], world.dropNotifier n)
  | .listen n =>
    let (done, world) := world.listen n
    (.flag done, [], world)
  | .shutdown n => (.done, [], world.shutdown n)
  | .subscribe n key =>
    let (id, world) := world.subscribe n key
    (.number id, [], world)
  | .unsubscribe n condition =>
    let (count, world) := world.unsubscribe n condition
    (.number count, [], world)
  | .publish n update keys => (.done, world.publish forms n update keys)
  | .notifyPayload n payload => (.done, [], world.notifyPayload forms n payload)
  | .notifySubscriber n update id =>
    match world.notifySubscriber n update id with
    | .ok world => (.done, [], world)
    | .error fault => (.refused fault, [], world)
  | .notifyOrPublish n update id key => (.done, world.notifyOrPublish forms n update id key)
  | .next id =>
    let (poll, world) := world.next id
    (.polled poll, [], world)
  | .close id => (.done, [], world.close id)
  | .dropStream id => (.done, [], world.dropStream id)

def run (forms : Forms α) (world : World α) (steps : List (Step α)) : World α :=
  steps.foldl (fun world step => (world.step forms step).2.2) world

@[simp] theorem run_nil (forms : Forms α) (world : World α) : world.run forms [] = world := rfl

theorem run_append (forms : Forms α) (world : World α) (first second : List (Step α)) :
    world.run forms (first ++ second) = (world.run forms first).run forms second := by
  simp [run]

end World

end Fanout
