import Fanout.Frame.Reader
import Fanout.Hub

/-!
# The hub and its connections

The hub serves many connections at once. Bytes arrive on a connection in any portions, and in its
turn the first complete frame is handled. A connection that breaks the protocol is told so and
closed; one that ends is closed without a word. Closing a connection leaves the others as they are.
-/

namespace Fanout

/-- What has arrived on a connection and has not been handled. -/
structure Inbox where
  bytes : Bytes := []
  /-- How the bytes end, once no more will come. -/
  ending : Option Ending := none
  deriving DecidableEq, Repr

/-- The hub with its open connections. -/
structure Server where
  hub : Hub := {}
  inboxes : Table ConnectionId Inbox := []
  deriving DecidableEq, Repr

namespace Server

def connect (server : Server) (c : ConnectionId) : Server :=
  { hub := server.hub.attach c, inboxes := Table.set server.inboxes c {} }

def arrive (server : Server) (c : ConnectionId) (bytes : Bytes) : Server :=
  match Table.get? server.inboxes c with
  | some inbox =>
    { server with
      inboxes := Table.set server.inboxes c { inbox with bytes := inbox.bytes ++ bytes } }
  | none => server

/-- No more bytes will come on a connection: its peer has closed it, or it has failed. -/
def cease (server : Server) (c : ConnectionId) (ending : Ending) : Server :=
  match Table.get? server.inboxes c with
  | some inbox =>
    { server with inboxes := Table.set server.inboxes c { inbox with ending := some ending } }
  | none => server

def finish (server : Server) (c : ConnectionId) : Server :=
  server.cease c .closed

def close (server : Server) (c : ConnectionId) : Server :=
  { hub := server.hub.disconnect c, inboxes := Table.erase server.inboxes c }

def refuse (server : Server) (c : ConnectionId) (fault : Fault) : List Delivery × Server :=
  (server.hub.send [c] (.report fault.code fault.message), server.close c)

/-- Handles the next frame of a connection, or else its end. Nothing happens while bytes are
missing that may still come. -/
def turn (server : Server) (c : ConnectionId) : List Delivery × Server :=
  match Table.get? server.inboxes c with
  | none => ([], server)
  | some inbox =>
    match Frame.read { chunks := [inbox.bytes], ending := inbox.ending.getD .closed } with
    | (.frame frame, rest) =>
      match server.hub.handle c frame with
      | .ok (hub, sent) =>
        (sent,
          { hub, inboxes := Table.set server.inboxes c { inbox with bytes := rest.bytes } })
      | .error fault => server.refuse c fault
    | (.ended, _) => if inbox.ending.isSome then ([], server.close c) else ([], server)
    | (.failed (.bodyUnread reason), _) =>
      if inbox.ending.isSome then server.refuse c (.bodyUnread reason) else ([], server)
    | (.failed fault, _) => server.refuse c fault

def turns (server : Server) (c : ConnectionId) : Nat → List Delivery × Server
  | 0 => ([], server)
  | n + 1 =>
    let (sent, server) := server.turn c
    let (more, server) := server.turns c n
    (sent ++ more, server)

/-- Handles everything that has arrived on a connection. A frame takes more than one byte, so there
are enough turns. -/
def settle (server : Server) (c : ConnectionId) : List Delivery × Server :=
  match Table.get? server.inboxes c with
  | some inbox => server.turns c (inbox.bytes.length + 1)
  | none => ([], server)

/-- Closes every connection. Their tasks notice one by one that the hub is shut down; here they do
so in a row. -/
def shutdown (server : Server) : Server :=
  (server.inboxes.map Prod.fst).foldl close server

inductive Step
  | connect (c : ConnectionId)
  | arrive (c : ConnectionId) (bytes : Bytes)
  | cease (c : ConnectionId) (ending : Ending)
  | turn (c : ConnectionId)
  /-- The task of a connection notices that the hub is shut down. -/
  | stop (c : ConnectionId)
  | shutdown
  deriving DecidableEq, Repr

def step (server : Server) : Step → List Delivery × Server
  | .connect c => ([], server.connect c)
  | .arrive c bytes => ([], server.arrive c bytes)
  | .cease c ending => ([], server.cease c ending)
  | .turn c => server.turn c
  | .stop c => ([], server.close c)
  | .shutdown => ([], server.shutdown)

def run (server : Server) : List Step → List Delivery × Server
  | [] => ([], server)
  | step :: steps =>
    let (sent, server) := server.step step
    let (more, server) := server.run steps
    (sent ++ more, server)

theorem run_append (server : Server) (first second : List Step) :
    server.run (first ++ second) =
      ((server.run first).1 ++ ((server.run first).2.run second).1,
        ((server.run first).2.run second).2) := by
  induction first generalizing server with
  | nil => rfl
  | cons step steps ih => simp [run, ih]

end Server

end Fanout
