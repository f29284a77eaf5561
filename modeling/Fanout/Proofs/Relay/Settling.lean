import Fanout.Proofs.Relay.Flow

/-!
# Catching up

The hub and the nodes handle what is on its way in turns. A turn of the hub takes the first request
off one connection and leaves the others as they are; a turn of a node takes the first payload that
is on its way to it. Turns change neither links nor who uses which connection
(`Sound.links_of_turns`, `Sound.users_of_turns`). If the hub turns to every connection often enough
and then the nodes do to theirs, nothing is on its way any more (`Sound.settle_quiet`).
-/

namespace Fanout.Network

variable {network after : Network} {c : ConnectionId} {node : Nat}

/-- Whether a step handles something that is on its way. -/
def Step.isTurn : Step → Bool
  | hubReads _ | nodeReads _ => true
  | _ => false

/-- Whether the hub has nothing left to do about a connection. -/
def Done (network : Network) (c : ConnectionId) : Prop :=
  ∀ wire, network.wires[c]? = some wire → wire.up = [] ∧ (wire.live = true ∨ wire.served = false)

def Quiet (network : Network) : Prop :=
  (∀ c, network.Done c) ∧ ∀ wire ∈ network.wires, wire.down = []

theorem outbox_of_done (h : network.Done c) : network.outbox c = [] := by
  simp only [outbox]
  cases at_ : network.wires[c]? with
  | none => rfl
  | some wire => exact (h wire at_).1

theorem HubReads.links (reads : network.HubReads c after) : after.links = network.links := by
  cases reads <;> rfl

/-- Once the hub has nothing left to do about a connection, turning to it changes nothing. -/
theorem HubReads.eq_of_done (reads : network.HubReads c after) (done : network.Done c) :
    after = network := by
  cases reads with
  | idle => rfl
  | closes at_ serves gone =>
    rcases (done _ at_).2 with live | unserved
    · rw [gone] at live
      contradiction
    · rw [serves] at unserved
      contradiction
  | lists at_ serves up =>
    rw [(done _ at_).1] at up
    contradiction
  | forwards at_ serves up =>
    rw [(done _ at_).1] at up
    contradiction

/-- A turn of the hub leaves the state of other connections as it is. -/
theorem HubReads.other (reads : network.HubReads c after) {d : ConnectionId} (differs : d ≠ c) :
    (after.wires[d]?).map (fun wire => (wire.up, wire.live, wire.served)) =
      (network.wires[d]?).map fun wire => (wire.up, wire.live, wire.served) := by
  cases reads with
  | idle => rfl
  | closes =>
    simp only [hangUp, modifyWire]
    rw [List.getElem?_modify_ne _ _ (Ne.symm differs)]
  | lists =>
    dsimp only
    rw [List.getElem?_modify_ne _ _ (Ne.symm differs)]
  | forwards =>
    dsimp only
    rw [List.getElem?_mapIdx, List.getElem?_modify_ne _ _ (Ne.symm differs), Option.map_map]
    congr 1
    funext wire
    simp only [Function.comp_apply, up_reach, live_reach, served_reach]

theorem done_iff : network.Done c ↔
    ∀ state, (network.wires[c]?).map (fun wire => (wire.up, wire.live, wire.served)) = some state →
      state.1 = [] ∧ (state.2.1 = true ∨ state.2.2 = false) := by
  simp only [Done]
  cases network.wires[c]? with
  | none => simp
  | some wire => simp

theorem HubReads.done_of_done (reads : network.HubReads c after) {d : ConnectionId}
    (done : network.Done d) : after.Done d := by
  by_cases same : d = c
  · subst same
    rw [reads.eq_of_done done]
    exact done
  · rw [done_iff, reads.other same]
    exact done_iff.1 done

/-- The hub turns to a connection on which nothing is left, and is done with it. -/
theorem HubReads.done (reads : network.HubReads c after) (empty : network.outbox c = []) :
    after.Done c := by
  cases reads with
  | idle nothing => exact nothing
  | closes at_ serves gone done =>
    intro wire found
    rcases getElem?_modify_eq_some.1 found with ⟨-, old, -, rfl⟩ | ⟨differs, -⟩
    · exact ⟨rfl, .inr rfl⟩
    · exact absurd rfl differs
  | lists at_ serves up =>
    rw [outbox_eq at_, up] at empty
    contradiction
  | forwards at_ serves up =>
    rw [outbox_eq at_, up] at empty
    contradiction

theorem NodeReads.links {node : Nat} {called : List Invocation}
    (reads : network.NodeReads node called after) : after.links = network.links := by
  cases reads <;> rfl

theorem NodeReads.done_of_done {node : Nat} {called : List Invocation}
    (reads : network.NodeReads node called after) (done : network.Done c) : after.Done c := by
  cases reads with
  | idle => exact done
  | takes =>
    intro wire found
    rcases getElem?_modify_eq_some.1 found with ⟨-, old, found', rfl⟩ | ⟨-, found'⟩
    · exact done old found'
    · exact done wire found'

/-- What every turn keeps, any number of turns keep. -/
theorem Sound.turns_induction (h : network.Sound) {p : List Invocation → Network → Prop}
    (called : List Invocation) (start : p called network)
    (hub : ∀ {called : List Invocation} {network : Network} (c : ConnectionId), network.Sound →
      p called network → p called (network.hubReads c))
    (node : ∀ {called : List Invocation} {network : Network} (node : Nat), network.Sound →
      p called network → p (called ++ (network.nodeReads node).1) (network.nodeReads node).2)
    {turns : List Step} (only : ∀ turn ∈ turns, turn.isTurn = true) :
    p (called ++ (network.run turns).1) (network.run turns).2 := by
  induction turns generalizing called network with
  | nil =>
    show p (called ++ []) network
    rw [List.append_nil]
    exact start
  | cons turn turns ih =>
    have isTurn := only turn List.mem_cons_self
    have later : ∀ other ∈ turns, other.isTurn = true :=
      fun other member => only other (List.mem_cons_of_mem turn member)
    show p (called ++ ((network.step turn).1 ++ _)) _
    rw [← List.append_assoc]
    refine ih (h.step turn) _ ?_ later
    cases turn with
    | hubReads c =>
      show p (called ++ []) _
      rw [List.append_nil]
      exact hub c h start
    | nodeReads n => exact node n h start
    | _ => contradiction

theorem Sound.links_of_turns (h : network.Sound) {turns : List Step}
    (only : ∀ turn ∈ turns, turn.isTurn = true) :
    (network.run turns).2.links = network.links :=
  h.turns_induction (p := fun _ next => next.links = network.links) [] rfl
    (fun c sound same => (sound.hubReads c).links.trans same)
    (fun n sound same => (sound.nodeReads n).links.trans same) only

theorem Sound.users_of_turns (h : network.Sound) {turns : List Step}
    (only : ∀ turn ∈ turns, turn.isTurn = true) :
    (network.run turns).2.users = network.users :=
  h.turns_induction (p := fun _ next => next.users = network.users) [] rfl
    (fun c sound same => (sound.hubReads c).users.trans same)
    (fun n sound same => (sound.nodeReads n).users.trans same) only

/-- What the hub is done with it stays done with. -/
theorem Sound.done_of_turns (h : network.Sound) (done : network.Done c) {turns : List Step}
    (only : ∀ turn ∈ turns, turn.isTurn = true) : (network.run turns).2.Done c :=
  h.turns_induction (p := fun _ next => next.Done c) [] done
    (fun c sound done => (sound.hubReads c).done_of_done done)
    (fun n sound done => (sound.nodeReads n).done_of_done done) only

theorem isTurn_hubReads (turns : List ConnectionId) :
    ∀ turn ∈ turns.map Step.hubReads, turn.isTurn = true := by
  intro turn member
  obtain ⟨c, -, rfl⟩ := List.mem_map.1 member
  rfl

theorem isTurn_nodeReads (turns : List Nat) :
    ∀ turn ∈ turns.map Step.nodeReads, turn.isTurn = true := by
  intro turn member
  obtain ⟨node, -, rfl⟩ := List.mem_map.1 member
  rfl

/-- After more turns to a connection than there are requests on it the hub is done with it. -/
theorem Sound.done_of_lt_count (h : network.Sound) {c : ConnectionId} {turns : List ConnectionId}
    (enough : (network.outbox c).length < turns.count c) :
    (network.run (turns.map .hubReads)).2.Done c := by
  induction turns generalizing network with
  | nil => simp at enough
  | cons d turns ih =>
    have reads := h.hubReads d
    have outbox := reads.outbox c
    show ((network.hubReads d).run (turns.map .hubReads)).2.Done c
    rw [List.count_cons] at enough
    by_cases same : c = d
    · subst same
      rw [if_pos rfl] at outbox
      cases up : network.outbox c with
      | nil =>
        exact (reads.sound h).done_of_turns (reads.done up) (isTurn_hubReads turns)
      | cons bytes rest =>
        apply ih (reads.sound h)
        rw [outbox, up]
        rw [up] at enough
        simpa using enough
    · apply ih (reads.sound h)
      rw [outbox, if_neg same]
      simpa [Ne.symm same] using enough

/-- The connections that the hub turns to when it catches up. -/
def hubTurns (network : Network) : List ConnectionId :=
  network.wires.zipIdx.flatMap fun (wire, c) => List.replicate (wire.up.length + 1) c

theorem hubCatchesUp_eq (network : Network) :
    network.hubCatchesUp = network.hubTurns.map .hubReads := by
  simp [hubCatchesUp, hubTurns, List.map_flatMap]

theorem lt_count_flatMap {β γ : Type} [DecidableEq γ] {l : List β} {b : β} (member : b ∈ l)
    (count : β → Nat) (f : β → γ) :
    count b < (l.flatMap fun b => List.replicate (count b + 1) (f b)).count (f b) := by
  have part : List.replicate (count b + 1) (f b) ∈
      l.map fun b => List.replicate (count b + 1) (f b) := List.mem_map_of_mem member
  have fewer := (List.sublist_flatten_of_mem part).count_le (f b)
  rw [List.count_replicate_self] at fewer
  exact fewer

theorem lt_count_hubTurns {wire : Wire} (at_ : network.wires[c]? = some wire) :
    (network.outbox c).length < network.hubTurns.count c := by
  have member : (wire, c) ∈ network.wires.zipIdx := List.mem_zipIdx_iff_getElem?.2 at_
  rw [outbox_eq at_]
  exact lt_count_flatMap member (fun pair => pair.1.up.length) Prod.snd

/-- After the hub has caught up it is done with every connection. -/
theorem Sound.hubCatchesUp_done (h : network.Sound) (c : ConnectionId) :
    (network.run network.hubCatchesUp).2.Done c := by
  rw [hubCatchesUp_eq]
  cases at_ : network.wires[c]? with
  | some wire => exact h.done_of_lt_count (lt_count_hubTurns at_)
  | none =>
    refine h.done_of_turns ?_ (isTurn_hubReads _)
    intro wire found
    rw [at_] at found
    contradiction

/-- A number of turns of a node take as many payloads that are on their way to it. -/
theorem Sound.run_nodeReads_inbox (h : network.Sound) (turns : List Nat) (node : Nat) :
    (network.run (turns.map .nodeReads)).2.inbox node =
      (network.inbox node).drop (turns.count node) := by
  induction turns generalizing network with
  | nil => rfl
  | cons other turns ih =>
    have reads := h.nodeReads other
    apply (ih (reads.sound h)).trans
    rw [reads.inbox, List.count_cons]
    by_cases same : node = other
    · simp [same, List.drop_tail]
    · simp [same, Ne.symm same]

/-- The nodes that take turns when they catch up. -/
def nodeTurns (network : Network) : List Nat :=
  network.wires.flatMap fun wire => List.replicate (wire.down.length + 1) wire.node

theorem nodesCatchUp_eq (network : Network) :
    network.nodesCatchUp = network.nodeTurns.map .nodeReads := by
  simp [nodesCatchUp, nodeTurns, List.map_flatMap]

theorem length_inbox_le_count (network : Network) (node : Nat) :
    (network.inbox node).length ≤ network.nodeTurns.count node := by
  cases used : network.wireOf? node with
  | none =>
    rw [inbox, used]
    exact Nat.zero_le _
  | some c =>
    obtain ⟨wire, at_, -, rfl⟩ := users_eq_some.1 (users_of_wireOf? used)
    rw [inbox_eq used at_]
    exact Nat.le_of_lt
      (lt_count_flatMap (List.mem_of_getElem? at_) (fun wire => wire.down.length) Wire.node)

/-- The network once the hub has caught up. -/
def relayed (network : Network) : Network :=
  (network.run network.hubCatchesUp).2

theorem Sound.relayed (h : network.Sound) : network.relayed.Sound :=
  h.run _

theorem settle_eq (network : Network) :
    network.settle = network.run (network.hubCatchesUp ++ network.relayed.nodesCatchUp) := by
  rw [run_append]
  rfl

theorem isTurn_of_mem_settle (network : Network) :
    ∀ turn ∈ network.hubCatchesUp ++ network.relayed.nodesCatchUp, turn.isTurn = true := by
  rw [hubCatchesUp_eq, nodesCatchUp_eq]
  intro turn member
  rcases List.mem_append.1 member with hub | node
  · exact isTurn_hubReads _ turn hub
  · exact isTurn_nodeReads _ turn node

theorem Sound.down_eq_nil (h : network.Sound) (empty : ∀ node, network.inbox node = []) :
    ∀ wire ∈ network.wires, wire.down = [] := by
  intro wire member
  cases live : wire.live with
  | false => exact (h.wires wire member).lost live
  | true =>
    obtain ⟨c, at_⟩ := List.mem_iff_getElem?.1 member
    rw [← inbox_eq (h.wireOf?_of_wire at_ live) at_, empty]

/-- Once everything is settled, nothing is on its way. -/
theorem Sound.settle_quiet (h : network.Sound) : network.settle.2.Quiet := by
  have sound : network.settle.2.Sound := by
    rw [settle_eq]
    exact h.run _
  have caughtUp : network.settle.2 =
      (network.relayed.run (network.relayed.nodeTurns.map .nodeReads)).2 := by
    rw [← nodesCatchUp_eq]
    rfl
  refine ⟨fun c => ?_, sound.down_eq_nil fun node => ?_⟩
  · rw [caughtUp]
    exact h.relayed.done_of_turns (h.hubCatchesUp_done c) (isTurn_nodeReads _)
  · rw [caughtUp, h.relayed.run_nodeReads_inbox]
    exact List.drop_eq_nil_of_le (length_inbox_le_count _ node)

end Fanout.Network
