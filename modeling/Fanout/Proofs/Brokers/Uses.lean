import Fanout.Proofs.Relay.Settling
import Fanout.World.Step

/-!
# Uses of a broker

Processes use a broker to subscribe to topics, to cancel this, and to publish; and they lose their
connection to it and come back. The same uses can be made of brokers on a shared bus and of brokers
around a hub, where after each use everything that is on its way is handled, in any order. What a
broker has to do is told by who is connected and who listens to what (`Board`).
-/

namespace Fanout

inductive Use
  | subscribe (p : Nat) (topic : Topic) (tag : String)
  | unsubscribe (p : Nat) (topic : Topic)
  | publish (p : Nat) (topic : Topic) (payload : Bytes)
  | lose (p kept : Nat)
  | reconnect (p : Nat)
  deriving DecidableEq, Repr

/-- Whether what a use publishes is small enough to be sent, given the ids of the processes. -/
def Use.Fits (ids : List String) : Use → Prop
  | publish p topic payload => ∀ id ∈ ids[p]?,
    (Frame.publish topic.nameBytes payload (Bytes.ofText id)).size ≤ Frame.limit
  | _ => True

instance (ids : List String) : (use : Use) → Decidable (use.Fits ids)
  | .publish p topic payload =>
    inferInstanceAs (Decidable (∀ id ∈ ids[p]?,
      (Frame.publish topic.nameBytes payload (Bytes.ofText id)).size ≤ Frame.limit))
  | .subscribe .. | .unsubscribe .. | .lose .. | .reconnect .. => .isTrue trivial

/-- What comes of a use: the answer, if it was a subscribe, and which listeners were called. -/
structure Outcome where
  answer : Option Bool := none
  called : List Invocation := []
  deriving DecidableEq, Repr

/-- What a process sees of an outcome: the answer, and what its listeners were called with. -/
def Outcome.seenBy (p : Nat) (outcome : Outcome) : Option Bool × List (Topic × Bytes) :=
  (outcome.answer,
    (outcome.called.filter (·.node = p)).map fun called => (called.topic, called.payload))

/-- What matters of the state of brokers. -/
@[ext]
structure Board where
  /-- The number of processes. -/
  count : Nat
  connected : Nat → Bool
  listens : Nat → Topic → Bool

namespace Board

/-- A number of processes that are all connected and have no listeners. -/
def fresh (count : Nat) : Board where
  count := count
  connected p := decide (p < count)
  listens _ _ := false

/-- The state after a use. A publish changes nothing; the others change it for one process. -/
def use (board : Board) : Use → Board
  | .subscribe p topic _ =>
    { board with
      listens := fun q other =>
        board.listens q other || (decide (p < board.count) && decide (p = q ∧ topic = other)) }
  | .unsubscribe p topic =>
    { board with
      listens := fun q other => board.listens q other && !decide (p = q ∧ topic = other) }
  | .publish .. => board
  | .lose p _ => { board with connected := fun q => board.connected q && !decide (p = q) }
  | .reconnect p =>
    { board with
      connected := fun q =>
        board.connected q || (decide (p < board.count) && decide (p = q)) }

/-- What a process sees of a use. A subscribe succeeds if the topic has no listener; what is
published while connected calls the listeners for the topic in all connected processes. -/
def seenBy (q : Nat) (board : Board) : Use → Option Bool × List (Topic × Bytes)
  | .subscribe p topic _ => (some (decide (p < board.count) && !board.listens p topic), [])
  | .publish p topic payload =>
    (none,
      if board.connected p && board.connected q && board.listens q topic then [(topic, payload)]
      else [])
  | _ => (none, [])

def allSeenBy (q : Nat) (board : Board) : List Use → List (Option Bool × List (Topic × Bytes))
  | [] => []
  | use :: uses => board.seenBy q use :: (board.use use).allSeenBy q uses

end Board

/-- What a recorder heard, as the call of a listener. -/
def Heard.invocation (heard : Heard) : Invocation :=
  { node := heard.process, topic := heard.topic, payload := heard.payload }

namespace World

variable {α : Type}

/-- The use of a broker as a step of a world. -/
def stepOf : Use → Step α
  | .subscribe p topic tag => .record p topic tag
  | .unsubscribe p topic => .unrecord p topic
  | .publish p topic payload => .broadcast p topic payload
  | .lose p _ => .disconnect p
  | .reconnect p => .reconnect p

def use (forms : Forms α) (world : World α) (use : Use) : Outcome × World α :=
  let (answer, heard, world) := world.step forms (stepOf use)
  ({ answer := match answer with
      | .flag done => some done
      | _ => none
     called := heard.map Heard.invocation },
    world)

/-- The outcomes of some uses of the brokers on a bus, in order, and the world after them. -/
def useAll (forms : Forms α) (world : World α) : List Use → List Outcome × World α
  | [] => ([], world)
  | use :: uses =>
    let (outcome, world) := world.use forms use
    let (outcomes, world) := world.useAll forms uses
    (outcome :: outcomes, world)

/-- A number of processes on the shared bus, connected and without listeners. -/
def connected (forms : Forms α) (count : Nat) : World α :=
  World.run forms {} (List.replicate count .connect)

def hasListener (world : World α) (p : Nat) (topic : Topic) : Bool :=
  (world.listener? p topic).isSome

/-- Who is connected to the bus and who listens to what. -/
def board (world : World α) : Board where
  count := world.processes.length
  connected := world.isConnected
  listens := world.hasListener

end World

namespace Network

/-- The use of a broker as a step of a network. -/
def stepOf : Use → Step
  | .subscribe p topic _ => .subscribe p topic
  | .unsubscribe p topic => .unsubscribe p topic
  | .publish p topic payload => .publish p topic payload
  | .lose p kept => .lose p kept
  | .reconnect p => .connect p

def answer (network : Network) : Use → Option Bool
  | .subscribe p topic _ =>
    match network.links[p]? with
    | some link => some (link.subscribe topic topic).1
    | none => some false
  | _ => none

/-- What can come of one use of the brokers around a hub: turns are taken until nothing is on its
way any more. -/
inductive Uses (network : Network) (use : Use) : Outcome → Network → Prop
  | settles {turns : List Step} (only : ∀ turn ∈ turns, turn.isTurn = true)
      (quiet : ((network.step (stepOf use)).2.run turns).2.Quiet) :
      Uses network use
        { answer := network.answer use
          called := (network.step (stepOf use)).1 ++ ((network.step (stepOf use)).2.run turns).1 }
        ((network.step (stepOf use)).2.run turns).2

/-- What can come of some uses of the brokers around a hub, in order. -/
inductive UsesAll : Network → List Use → List Outcome → Network → Prop
  | nil {network : Network} : UsesAll network [] [] network
  | cons {network between after : Network} {use : Use} {uses : List Use} {outcome : Outcome}
      {outcomes : List Outcome} (first : network.Uses use outcome between)
      (rest : between.UsesAll uses outcomes after) :
      UsesAll network (use :: uses) (outcome :: outcomes) after

/-- Nodes around a hub, connected and without listeners. -/
def connected (ids : List String) : Network :=
  ((ofNodes ids).run ((List.range ids.length).map .connect)).2

def hasListener (network : Network) (node : Nat) (topic : Topic) : Bool :=
  match network.links[node]? with
  | some link => link.listeners.contains topic
  | none => false

/-- Who has a session with the hub and who listens to what. -/
def board (network : Network) : Board where
  count := network.links.length
  connected node := (network.wireOf? node).isSome
  listens := network.hasListener

end Network

end Fanout
