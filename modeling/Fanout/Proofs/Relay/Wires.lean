import Fanout.Network
import Fanout.Proofs.Places
import Fanout.Proofs.Relay.Requests

/-!
# Connections and what is on them

What a network keeps to whatever happens in it (`Sound`): a node uses at most one connection, nodes
and the hub know of the same connections, only frames that are understood are on their way, and
what is on its way from a node brings the hub to list the node's connection under exactly the topics
that have a listener.
-/

namespace Fanout

/-- The node that uses a connection, if one still does. -/
def Wire.user? (wire : Wire) : Option Nat :=
  if wire.live then some wire.node else none

/-- What each connection keeps to among a number of nodes. -/
structure Wire.Sound (nodes : Nat) (wire : Wire) : Prop where
  linked : wire.node < nodes
  served : wire.live = true → wire.served = true
  up : ∀ bytes ∈ wire.up, ∃ request : Request, request.frame.encode = .ok bytes
  down : ∀ bytes ∈ wire.down, ∃ (topic : Topic) (payload origin : Bytes),
    (Frame.deliver topic.nameBytes payload (some origin)).encode = .ok bytes
  closed : wire.served = false → wire.up = []
  lost : wire.live = false → wire.down = []

theorem Wire.Sound.rest {nodes : Nat} {wire : Wire} (h : wire.Sound nodes) {bytes : Bytes}
    {rest : List Bytes} (up : wire.up = bytes :: rest) :
    ({ wire with up := rest } : Wire).Sound nodes where
  linked := h.linked
  served := h.served
  up other member := h.up other (by rw [up]; exact List.mem_cons_of_mem bytes member)
  down := h.down
  closed unserved := by
    have none_ := h.closed unserved
    rw [up] at none_
    contradiction
  lost := h.lost

theorem Wire.Sound.fresh {nodes node : Nat} (inside : node < nodes) (requests : List Request) :
    ({ node, up := Request.sent requests } : Wire).Sound nodes where
  linked := inside
  served := fun _ => rfl
  up bytes member := by
    obtain ⟨request, -, encoded⟩ := Request.exists_of_mem_sent member
    exact ⟨request, encoded⟩
  down := by simp
  closed := by simp
  lost := by simp

theorem Wire.Sound.send {nodes : Nat} {wire : Wire} (h : wire.Sound nodes) (live : wire.live = true)
    (requests : List Request) :
    ({ wire with up := wire.up ++ Request.sent requests } : Wire).Sound nodes where
  linked := h.linked
  served := h.served
  up bytes member := by
    rcases List.mem_append.1 member with before | new
    · exact h.up bytes before
    · obtain ⟨request, -, encoded⟩ := Request.exists_of_mem_sent new
      exact ⟨request, encoded⟩
  down := h.down
  closed unserved := by
    have serves := h.served live
    rw [unserved] at serves
    contradiction
  lost := h.lost

theorem Wire.Sound.cut {nodes : Nat} {wire : Wire} (h : wire.Sound nodes) (kept : Nat) :
    ({ wire with up := wire.up.take kept, down := [], live := false } : Wire).Sound nodes where
  linked := h.linked
  served := by simp
  up bytes member := h.up bytes (List.mem_of_mem_take member)
  down := by simp
  closed unserved := by
    have none_ : wire.up = [] := h.closed unserved
    simp [none_]
  lost := fun _ => rfl

theorem Wire.Sound.close {nodes : Nat} {wire : Wire} (h : wire.Sound nodes)
    (gone : wire.live = false) :
    ({ wire with up := [], served := false } : Wire).Sound nodes where
  linked := h.linked
  served := by simp [gone]
  up := by simp
  down := h.down
  closed := fun _ => rfl
  lost := h.lost

theorem Wire.Sound.take {nodes : Nat} {wire : Wire} (h : wire.Sound nodes) {bytes : Bytes}
    {rest : List Bytes} (down : wire.down = bytes :: rest) :
    ({ wire with down := rest } : Wire).Sound nodes where
  linked := h.linked
  served := h.served
  up := h.up
  down other member := h.down other (by rw [down]; exact List.mem_cons_of_mem bytes member)
  closed := h.closed
  lost gone := by
    have none_ := h.lost gone
    rw [down] at none_
    contradiction

namespace Network

variable {network : Network}

/-- For each connection the node that uses it, if one does. -/
def users (network : Network) : List (Option Nat) :=
  network.wires.map Wire.user?

/-- For each connection whether the hub serves it. -/
def served (network : Network) : List Bool :=
  network.wires.map Wire.served

/-- A node uses at most one connection. -/
def Alone (network : Network) : Prop :=
  ∀ (c d : ConnectionId) (node : Nat),
    network.users[c]? = some (some node) → network.users[d]? = some (some node) → c = d

/-- What a network keeps to. -/
structure Sound (network : Network) : Prop where
  alone : network.Alone
  wires : ∀ wire ∈ network.wires, wire.Sound network.links.length
  /-- A link that has a connection has sent all that it had to send. -/
  flushed : ∀ (node : Nat) (link : Link Topic), network.links[node]? = some link →
    link.queue = (network.wireOf? node).map fun _ => []
  own : ∀ link ∈ network.links, link.Own
  registered : ∀ c : ConnectionId, c ∈ network.hub.connections ↔ network.served[c]? = some true
  unbroken : network.hub.broken = []
  proper : network.hub.subscribers.Proper
  listed : ∀ (c : ConnectionId) (topic : Bytes), c ∈ network.hub.subscribers.on topic →
    network.served[c]? = some true
  /-- What is on its way to the hub makes it list a connection under the topics that have a
  listener. -/
  agrees : ∀ (c : ConnectionId) (wire : Wire) (link : Link Topic), network.wires[c]? = some wire →
    wire.live = true → network.links[wire.node]? = some link →
    requested wire.up (network.hub.topicsOf c) = link.wanted

theorem users_eq_some {c node : Nat} :
    network.users[c]? = some (some node) ↔
      ∃ wire, network.wires[c]? = some wire ∧ wire.live = true ∧ wire.node = node := by
  rw [users, List.getElem?_map, Option.map_eq_some_iff]
  refine exists_congr fun wire => and_congr_right fun _ => ?_
  cases live : wire.live <;> simp [Wire.user?, live]

theorem wireOf?_eq (network : Network) (node : Nat) :
    network.wireOf? node = network.users.findIdx? (· == some node) := by
  simp only [wireOf?, users]
  rw [List.findIdx?_map]
  congr 1
  funext wire
  cases live : wire.live <;> simp [Wire.user?, live]

theorem wireOf?_eq_none {node : Nat} :
    network.wireOf? node = none ↔ ∀ c : ConnectionId, network.users[c]? ≠ some (some node) := by
  rw [wireOf?_eq, List.findIdx?_eq_none_iff]
  constructor
  · intro absent c at_
    simpa using absent _ (List.mem_of_getElem? at_)
  · intro absent user member
    obtain ⟨c, at_⟩ := List.mem_iff_getElem?.1 member
    refine beq_eq_false_iff_ne.2 fun same => absent c ?_
    rw [at_, same]

theorem users_of_wireOf? {node c : Nat} (h : network.wireOf? node = some c) :
    network.users[c]? = some (some node) := by
  rw [wireOf?_eq, List.findIdx?_eq_some_iff_getElem] at h
  obtain ⟨inside, same, -⟩ := h
  rw [List.getElem?_eq_getElem inside]
  simpa using same

theorem Alone.wireOf?_eq_some (h : network.Alone) {node c : Nat} :
    network.wireOf? node = some c ↔ network.users[c]? = some (some node) := by
  refine ⟨users_of_wireOf?, fun used => ?_⟩
  cases found : network.wireOf? node with
  | none => exact absurd used (wireOf?_eq_none.1 found c)
  | some d => rw [h d c node (users_of_wireOf? found) used]

theorem Sound.wireOf?_of_wire (h : network.Sound) {c : Nat} {wire : Wire}
    (at_ : network.wires[c]? = some wire) (live : wire.live = true) :
    network.wireOf? wire.node = some c :=
  h.alone.wireOf?_eq_some.2 (users_eq_some.2 ⟨wire, at_, live, rfl⟩)

theorem wireOf?_congr {other : Network} (same : other.users = network.users) (node : Nat) :
    other.wireOf? node = network.wireOf? node := by
  rw [wireOf?_eq, wireOf?_eq, same]

theorem Alone.wireOf?_congr {other : Network} (h : network.Alone) (h' : other.Alone) {node : Nat}
    (same : ∀ c : ConnectionId, other.users[c]? = some (some node) ↔
      network.users[c]? = some (some node)) :
    other.wireOf? node = network.wireOf? node := by
  ext c
  rw [h'.wireOf?_eq_some, h.wireOf?_eq_some]
  exact same c

theorem users_modify (c : ConnectionId) {change : Wire → Wire}
    (same : ∀ wire, (change wire).user? = wire.user?) :
    (network.wires.modify c change).map Wire.user? = network.users :=
  map_modify Wire.user? change same network.wires c

theorem served_modify (c : ConnectionId) {change : Wire → Wire}
    (same : ∀ wire, (change wire).served = wire.served) :
    (network.wires.modify c change).map Wire.served = network.served :=
  map_modify Wire.served change same network.wires c

theorem up_modify (c : ConnectionId) {change : Wire → Wire}
    (same : ∀ wire, (change wire).up = wire.up) :
    (network.wires.modify c change).map Wire.up = network.wires.map Wire.up :=
  map_modify Wire.up change same network.wires c

theorem down_modify (c : ConnectionId) {change : Wire → Wire}
    (same : ∀ wire, (change wire).down = wire.down) :
    (network.wires.modify c change).map Wire.down = network.wires.map Wire.down :=
  map_modify Wire.down change same network.wires c

end Network

end Fanout
