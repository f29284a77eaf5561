import Fanout.Bytes
import Fanout.Table

/-!
# Who gets a topic

For each topic the hub lists the connections that asked for it. Topics are any byte strings, and a
topic is listed only while some connection is on it, so the number of topics is the number of topics
somebody asked for.
-/

namespace Fanout

abbrev ConnectionId := Nat

/-- The connections on each topic. -/
abbrev Subscribers := Table Bytes (List ConnectionId)

namespace Subscribers

def on (subscribers : Subscribers) (topic : Bytes) : List ConnectionId :=
  (Table.get? subscribers topic).getD []

def add (subscribers : Subscribers) (topic : Bytes) (c : ConnectionId) : Subscribers :=
  let listed := subscribers.on topic
  if c ∈ listed then subscribers else Table.set subscribers topic (listed ++ [c])

def remove (subscribers : Subscribers) (topic : Bytes) (c : ConnectionId) : Subscribers :=
  match (subscribers.on topic).filter (· ≠ c) with
  | [] => Table.erase subscribers topic
  | rest => Table.set subscribers topic rest

def topicsWith (subscribers : Subscribers) (c : ConnectionId) : List Bytes :=
  (subscribers.filter fun entry => c ∈ entry.2).map Prod.fst

/-- Takes a connection off the topics that it is on to begin with, one after the other. -/
def removeAll (subscribers : Subscribers) (c : ConnectionId) : Subscribers :=
  (subscribers.topicsWith c).foldl (fun subscribers topic => subscribers.remove topic c) subscribers

end Subscribers

end Fanout
