import Fanout.Proofs.Relay.Agreement

/-!
# The flow of payloads

Of all that is on its way, only payloads that are published or delivered are looked at here. They
wait on connections for the hub, and arrive at nodes from it, in both places oldest first. A step
adds a payload to the end of what waits on a connection, forwards the first one that waits there,
loses some, or takes the first one that arrives at a node (`Flow.Moves`). Every step of a network
that keeps to its rules moves its flow in one of these ways (`Sound.flows`).
-/

namespace Fanout

/-- Items that wait on connections and arrive at nodes, oldest first. -/
@[ext]
structure Flow (β : Type) where
  waiting : ConnectionId → List β
  arriving : Nat → List β

/-- What can happen to a flow: what is issued and on which connection, and what is taken and by
which node. -/
inductive Flow.Moves {β : Type} (flow : Flow β) :
    Option (ConnectionId × β) → List (Nat × β) → Flow β → Prop
  /-- Items get lost: last ones on their way to the hub, or all on their way to a node. -/
  | loses {waiting : ConnectionId → List β} {arriving : Nat → List β}
      (fewer : ∀ c, waiting c <+: flow.waiting c)
      (cut : ∀ node, arriving node = flow.arriving node ∨ arriving node = []) :
      Moves flow none [] { waiting, arriving }
  | issues (c : ConnectionId) (item : β) :
      Moves flow (some (c, item)) []
        { flow with
          waiting := fun d => if d = c then flow.waiting c ++ [item] else flow.waiting d }
  | forwards {c : ConnectionId} {item : β} {rest : List β} {arriving : Nat → List β}
      (first : flow.waiting c = item :: rest)
      (goes : ∀ node, arriving node = flow.arriving node ∨
        arriving node = flow.arriving node ++ [item]) :
      Moves flow none [] { waiting := fun d => if d = c then rest else flow.waiting d, arriving }
  | takes {node : Nat} {item : β} {rest : List β} {called : List (Nat × β)}
      (first : flow.arriving node = item :: rest)
      (calls : called = [] ∨ called = [(node, item)]) :
      Moves flow none called
        { flow with arriving := fun other => if other = node then rest else flow.arriving other }

abbrev Item := Topic × Bytes

/-- What the bytes of a frame of some kind carry. -/
def carried? (event : Event) (bytes : Bytes) : Option Item :=
  match Frame.parse bytes with
  | .ok frame =>
    if frame.event = event then
      match frame.topic.bind Topic.ofNameBytes?, frame.payload with
      | some topic, some payload => some (topic, payload)
      | _, _ => none
    else
      none
  | .error _ => none

theorem carried?_publish {topic : Topic} {payload origin bytes : Bytes}
    (encoded : (Request.publish topic payload origin).frame.encode = .ok bytes) :
    carried? .publish bytes = some (topic, payload) := by
  have known : Topic.ofNameBytes? topic.nameBytes = some topic :=
    Topic.ofNameBytes?_eq_some_iff.2 rfl
  rw [carried?, Frame.parse_encode encoded]
  simp [Request.frame, Frame.publish, known]

theorem carried?_of_isListing {request : Request} {bytes : Bytes}
    (encoded : request.frame.encode = .ok bytes) (listing : request.isListing = true) :
    carried? .publish bytes = none := by
  rw [carried?, Frame.parse_encode encoded]
  cases request with
  | publish => contradiction
  | subscribe topic => rfl
  | unsubscribe topic => rfl

theorem carried?_deliver {topic : Topic} {payload bytes : Bytes} {origin : Option Bytes}
    (encoded : (Frame.deliver topic.nameBytes payload origin).encode = .ok bytes) :
    carried? .deliver bytes = some (topic, payload) := by
  have known : Topic.ofNameBytes? topic.nameBytes = some topic :=
    Topic.ofNameBytes?_eq_some_iff.2 rfl
  rw [carried?, Frame.parse_encode encoded]
  simp [Frame.deliver, known]

namespace Network

variable {network : Network}

/-- What is on its way to the hub on a connection. -/
def outbox (network : Network) (c : ConnectionId) : List Bytes :=
  ((network.wires[c]?).map Wire.up).getD []

/-- What is on its way to a node. -/
def inbox (network : Network) (node : Nat) : List Bytes :=
  match network.wireOf? node with
  | some c => ((network.wires[c]?).map Wire.down).getD []
  | none => []

/-- The payloads that are on their way. -/
def flow (network : Network) : Flow Item where
  waiting c := (network.outbox c).filterMap (carried? .publish)
  arriving node := (network.inbox node).filterMap (carried? .deliver)

theorem outbox_eq {c : ConnectionId} {wire : Wire} (at_ : network.wires[c]? = some wire) :
    network.outbox c = wire.up := by
  rw [outbox, at_]
  rfl

theorem inbox_eq {node : Nat} {c : ConnectionId} {wire : Wire}
    (used : network.wireOf? node = some c) (at_ : network.wires[c]? = some wire) :
    network.inbox node = wire.down := by
  rw [inbox, used]
  dsimp only
  rw [at_]
  rfl

/-- What a step of a network has to do with its flow. -/
def Flows (network : Network) (step : Step) (called : List Invocation) (after : Network) : Prop :=
  ∃ (issued : Option (ConnectionId × Item)) (taken : List (Nat × Item)),
    network.flow.Moves issued taken after.flow ∧
    called = taken.map (fun (node, item) => { node, topic := item.1, payload := item.2 }) ∧
    ∀ c item, issued = some (c, item) →
      ∃ node, step = .publish node item.1 item.2 ∧ network.wireOf? node = some c

theorem outbox_modify {after : Network} {c : ConnectionId} {wire : Wire} (change : Wire → Wire)
    (at_ : network.wires[c]? = some wire) (wires : after.wires = network.wires.modify c change)
    (d : ConnectionId) :
    after.outbox d = if d = c then (change wire).up else network.outbox d := by
  simp only [outbox]
  rw [wires, List.getElem?_modify]
  by_cases same : d = c
  · subst same
    simp [at_]
  · simp [same, Ne.symm same]

theorem outbox_congr {after : Network}
    (up : after.wires.map Wire.up = network.wires.map Wire.up) (c : ConnectionId) :
    after.outbox c = network.outbox c := by
  simp only [outbox]
  rw [← List.getElem?_map, ← List.getElem?_map, up]

theorem inbox_congr {after : Network} (users : after.users = network.users)
    (down : after.wires.map Wire.down = network.wires.map Wire.down) (node : Nat) :
    after.inbox node = network.inbox node := by
  simp only [inbox]
  rw [wireOf?_congr users]
  cases network.wireOf? node with
  | none => rfl
  | some c =>
    dsimp only
    rw [← List.getElem?_map, ← List.getElem?_map, down]

theorem carried?_sent {requests : List Request}
    (listing : ∀ request ∈ requests, request.isListing = true) :
    (Request.sent requests).filterMap (carried? .publish) = [] := by
  apply List.filterMap_eq_nil_iff.2
  intro bytes member
  obtain ⟨request, among, encoded⟩ := Request.exists_of_mem_sent member
  exact carried?_of_isListing encoded (listing request among)

/-- A step by which no payload moves. -/
theorem flows_of_same {step : Step} {after : Network}
    (waiting : ∀ c, after.flow.waiting c = network.flow.waiting c)
    (arriving : ∀ node, after.flow.arriving node = network.flow.arriving node) :
    network.Flows step [] after := by
  have fewer : ∀ c, after.flow.waiting c <+: network.flow.waiting c :=
    fun c => ⟨[], (List.append_nil _).trans (waiting c)⟩
  exact ⟨none, [], .loses fewer fun node => .inl (arriving node), rfl, fun _ _ issued => by
    cases issued⟩

/-- A node that uses its link without publishing moves no payload. -/
theorem Sound.flows_withLink (h : network.Sound) {step : Step} {node : Nat}
    {link after : Link Topic} (at_ : network.links[node]? = some link) {requests : List Request}
    (use : link.Use after requests)
    (listing : ∀ request ∈ requests, request.isListing = true) :
    network.Flows step [] (network.withLink node after) := by
  cases used : network.wireOf? node with
  | none =>
    rw [h.withLink_of_none at_ used use]
    exact flows_of_same (fun _ => rfl) fun _ => rfl
  | some c =>
    rw [h.withLink_of_some at_ used use]
    obtain ⟨wire, at', -, -⟩ := users_eq_some.1 (users_of_wireOf? used)
    refine flows_of_same (fun d => ?_) fun other => ?_
    · simp only [flow]
      rw [outbox_modify _ at' rfl]
      by_cases same : d = c
      · subst same
        rw [if_pos rfl, List.filterMap_append, carried?_sent listing, List.append_nil,
          outbox_eq at']
      · rw [if_neg same]
    · refine congrArg (List.filterMap _) (inbox_congr ?_ ?_ other)
      · exact users_modify c fun _ => rfl
      · exact down_modify c fun _ => rfl

/-- What a publish puts on its way to the hub: nothing, if its frame is too long to be sent. -/
theorem filterMap_sent_publish (topic : Topic) (payload origin : Bytes) :
    (Request.sent [.publish topic payload origin]).filterMap (carried? .publish) = [] ∨
      (Request.sent [.publish topic payload origin]).filterMap (carried? .publish) =
        [(topic, payload)] := by
  cases encoded : (Request.publish topic payload origin).frame.encode with
  | error fault =>
    rw [Request.sent_cons_of_error encoded]
    exact .inl rfl
  | ok bytes =>
    rw [Request.sent_cons_of_ok encoded, List.filterMap_cons, carried?_publish encoded]
    exact .inr rfl

/-- A node that publishes adds a payload to what waits on its connection, if it has one and the
payload can be sent. -/
theorem Sound.flows_publish (h : network.Sound) {node : Nat} {link : Link Topic}
    (at_ : network.links[node]? = some link) (topic : Topic) (payload : Bytes) :
    network.Flows (.publish node topic payload) []
      (network.withLink node (link.publish topic payload)) := by
  have use := link.use_publish topic payload
  cases used : network.wireOf? node with
  | none =>
    rw [h.withLink_of_none at_ used use]
    exact flows_of_same (fun _ => rfl) fun _ => rfl
  | some c =>
    rw [h.withLink_of_some at_ used use]
    obtain ⟨wire, at', -, -⟩ := users_eq_some.1 (users_of_wireOf? used)
    generalize sends : Request.sent [.publish topic payload (Bytes.ofText link.nodeId)] = sent
    have either := filterMap_sent_publish topic payload (Bytes.ofText link.nodeId)
    rw [sends] at either
    generalize eq : ({ network with
        links := network.links.set node { link.publish topic payload with queue := some [] }
        wires := network.wires.modify c fun wire =>
          { wire with up := wire.up ++ sent } } : Network) = after
    have arriving : ∀ other, after.flow.arriving other = network.flow.arriving other := by
      intro other
      subst eq
      refine congrArg (List.filterMap _) (inbox_congr ?_ ?_ other)
      · exact users_modify c fun _ => rfl
      · exact down_modify c fun _ => rfl
    have waiting : ∀ d, after.flow.waiting d =
        if d = c then network.flow.waiting c ++ sent.filterMap (carried? .publish)
        else network.flow.waiting d := by
      intro d
      subst eq
      simp only [flow]
      rw [outbox_modify _ at' rfl, ← outbox_eq at']
      split
      · exact List.filterMap_append
      · rfl
    rcases either with none_ | one
    · refine flows_of_same (fun d => (waiting d).trans ?_) arriving
      rw [none_, List.append_nil]
      split
      next same => rw [same]
      next => rfl
    · have flow : after.flow = { network.flow with
          waiting := fun d => if d = c then network.flow.waiting c ++ [(topic, payload)]
            else network.flow.waiting d } := by
        rw [one] at waiting
        exact Flow.ext (funext waiting) (funext arriving)
      refine ⟨some (c, (topic, payload)), [], ?_, rfl, ?_⟩
      · rw [flow]
        exact .issues c (topic, payload)
      · rintro d item issued
        obtain ⟨rfl, rfl⟩ := Prod.mk.inj (Option.some.inj issued)
        exact ⟨node, rfl, used⟩

theorem Sound.flows_joined (h : network.Sound) {step : Step} {node : Nat} {link : Link Topic}
    (used : network.wireOf? node = none) :
    network.Flows step [] (network.joined node link) := by
  have listing : ∀ request ∈ link.greeting, request.isListing = true := by
    intro request member
    obtain ⟨topic, -, rfl⟩ := List.mem_map.1 member
    rfl
  refine flows_of_same (fun c => ?_) fun other => ?_
  · show ((network.joined node link).outbox c).filterMap _ = (network.outbox c).filterMap _
    simp only [outbox, Network.joined]
    rcases Nat.lt_trichotomy c network.wires.length with inside | rfl | outside
    · rw [List.getElem?_append_left inside]
    · simpa using carried?_sent listing
    · rw [List.getElem?_eq_none (by simp; omega), List.getElem?_eq_none (Nat.le_of_lt outside)]
  · apply congrArg (List.filterMap _)
    simp only [inbox]
    by_cases same : node = other
    · subst same
      rw [h.wireOf?_joined_self link used, used]
      simp [Network.joined]
    · rw [h.wireOf?_joined_other link used same]
      cases used' : network.wireOf? other with
      | none => rfl
      | some c =>
        obtain ⟨wire, at', -, -⟩ := users_eq_some.1 (users_of_wireOf? used')
        have inside := (List.getElem?_eq_some_iff.1 at').1
        dsimp only
        rw [Network.joined, List.getElem?_append_left inside]

/-- A session that is lost takes with it the last payloads on their way to the hub and all on their
way to the node. -/
theorem Sound.flows_left (h : network.Sound) {step : Step} {node kept : Nat} {link : Link Topic}
    {c : ConnectionId} (used : network.wireOf? node = some c) :
    network.Flows step [] (network.left node link c kept) := by
  obtain ⟨wire, at_, -, -⟩ := users_eq_some.1 (users_of_wireOf? used)
  refine ⟨none, [], .loses (fun d => ?_) (fun other => ?_), rfl, fun _ _ issued => by
    cases issued⟩
  · rw [outbox_modify _ at_ rfl]
    show List.filterMap _ _ <+: List.filterMap _ _
    split
    next same =>
      subst same
      rw [outbox_eq at_]
      exact (List.take_prefix kept wire.up).filterMap _
    next => exact List.prefix_rfl
  · simp only [flow, inbox]
    by_cases same : node = other
    · subst same
      rw [h.wireOf?_left_self link kept used]
      exact .inr rfl
    · rw [h.wireOf?_left_other link kept used same]
      cases used' : network.wireOf? other with
      | none => exact .inl rfl
      | some d =>
        have differs : c ≠ d := by
          rintro rfl
          have both := (users_of_wireOf? used).symm.trans (users_of_wireOf? used')
          exact same (Option.some.inj (Option.some.inj both))
        dsimp only
        rw [Network.left, List.getElem?_modify_ne _ _ differs]
        exact .inl rfl

theorem HubReads.users {c : ConnectionId} {after : Network} (reads : network.HubReads c after) :
    after.users = network.users := by
  cases reads with
  | idle => rfl
  | closes => exact users_modify c fun _ => rfl
  | lists => exact users_modify c fun _ => rfl
  | forwards =>
    exact (map_mapIdx Wire.user? (fun _ _ => user?_reach) _).trans (users_modify c fun _ => rfl)

/-- The hub takes the first request off the connection that it turns to, if there is one. -/
theorem HubReads.outbox {c : ConnectionId} {after : Network} (reads : network.HubReads c after)
    (d : ConnectionId) :
    after.outbox d = if d = c then (network.outbox d).tail else network.outbox d := by
  have taken : ∀ {wire : Wire} {up : List Bytes} {next : Network},
      network.wires[c]? = some wire → wire.up.tail = up →
      next.wires = network.wires.modify c (fun wire => { wire with up }) →
      next.outbox d = if d = c then (network.outbox d).tail else network.outbox d := by
    rintro wire up next at_ rfl wires
    rw [outbox_modify _ at_ wires]
    by_cases same : d = c
    · rw [if_pos same, if_pos same, same, outbox_eq at_]
    · rw [if_neg same, if_neg same]
  cases reads with
  | idle nothing =>
    split
    next same =>
      subst same
      simp only [Network.outbox]
      cases at_ : network.wires[d]? with
      | none => rfl
      | some wire => simp [(nothing wire at_).1]
    next => rfl
  | closes at_ serves gone done =>
    rw [outbox_modify _ at_ rfl]
    split
    next same => rw [same, outbox_eq at_, done, List.tail_nil]
    next => rfl
  | @lists wire request bytes rest subscribers at_ serves up =>
    exact taken at_ (by rw [up, List.tail_cons]) rfl
  | @forwards wire topic payload origin bytes forwarded rest at_ serves up =>
    have before : ({ network with
        wires := network.wires.modify c fun wire => { wire with up := rest } } : Network).outbox d =
        if d = c then (network.outbox d).tail else network.outbox d :=
      taken at_ (by rw [up, List.tail_cons]) rfl
    rw [← before]
    exact outbox_congr (map_mapIdx Wire.up (fun _ _ => up_reach) _) d

/-- What is forwarded is added to what is on its way to the nodes whose connections are listed. -/
theorem inbox_forwards {c : ConnectionId} {rest : List Bytes} {targets : List ConnectionId}
    {forwarded : Bytes} (node : Nat) :
    ({ network with
      wires := (network.wires.modify c fun wire => { wire with up := rest }).mapIdx
        (reach targets forwarded) } : Network).inbox node =
      network.inbox node ++
        match network.wireOf? node with
        | some d => if d ∈ targets then [forwarded] else []
        | none => [] := by
  generalize eq : ({ network with
    wires := (network.wires.modify c fun wire => { wire with up := rest }).mapIdx
      (reach targets forwarded) } : Network) = after
  have users : after.users = network.users := by
    subst eq
    exact (map_mapIdx Wire.user? (fun _ _ => user?_reach) _).trans (users_modify c fun _ => rfl)
  cases used : network.wireOf? node with
  | none =>
    simp only [inbox]
    rw [wireOf?_congr users, used]
    rfl
  | some d =>
    obtain ⟨wire, found, live, -⟩ := users_eq_some.1 (users_of_wireOf? used)
    obtain ⟨next, kept, live', found'⟩ : ∃ next : Wire, next.down = wire.down ∧
        next.live = true ∧ after.wires[d]? = some (reach targets forwarded d next) := by
      refine ⟨if c = d then { wire with up := rest } else wire, ?_, ?_, ?_⟩
      · split <;> rfl
      · split <;> exact live
      · subst eq
        rw [List.getElem?_mapIdx, List.getElem?_modify, found]
        rfl
    rw [inbox_eq used found, inbox_eq ((wireOf?_congr users node).trans used) found', ← kept]
    simp only [reach]
    by_cases listed : d ∈ targets
    · simp [listed, live']
    · simp [listed]

/-- The payload that the hub forwards arrives at some nodes. -/
theorem flow_forwards (network : Network) (c : ConnectionId) (rest : List Bytes)
    (targets : List ConnectionId) {topic : Topic} {payload forwarded : Bytes}
    {origin : Option Bytes}
    (encoded : (Frame.deliver topic.nameBytes payload origin).encode = .ok forwarded) (node : Nat) :
    ({ network with
      wires := (network.wires.modify c fun wire => { wire with up := rest }).mapIdx
        (reach targets forwarded) } : Network).flow.arriving node = network.flow.arriving node ∨
    ({ network with
      wires := (network.wires.modify c fun wire => { wire with up := rest }).mapIdx
        (reach targets forwarded) } : Network).flow.arriving node =
      network.flow.arriving node ++ [(topic, payload)] := by
  simp only [flow]
  rw [inbox_forwards]
  split
  · split
    · rw [List.filterMap_append, List.filterMap_cons, carried?_deliver encoded]
      exact .inr rfl
    · exact .inl (by rw [List.append_nil])
  · exact .inl (by rw [List.append_nil])

theorem HubReads.flows {step : Step} {c : ConnectionId} {after : Network}
    (reads : network.HubReads c after) : network.Flows step [] after := by
  have users := reads.users
  have outbox := reads.outbox
  cases reads with
  | idle => exact flows_of_same (fun _ => rfl) fun _ => rfl
  | closes at_ serves gone done =>
    refine flows_of_same (fun d => ?_) fun other => ?_
    · refine congrArg (List.filterMap _) ((outbox d).trans ?_)
      split
      next same => rw [same, outbox_eq at_, done, List.tail_nil]
      next => rfl
    · refine congrArg (List.filterMap _) (inbox_congr users ?_ other)
      exact down_modify c fun _ => rfl
  | @lists wire request bytes rest subscribers at_ serves up encoded listing proper own others =>
    refine flows_of_same (fun d => ?_) fun other => ?_
    · apply (congrArg (List.filterMap _) (outbox d)).trans
      simp only [flow]
      split
      next same =>
        rw [same, outbox_eq at_, up, List.tail_cons, List.filterMap_cons,
          carried?_of_isListing encoded listing]
      next => rfl
    · refine congrArg (List.filterMap _) (inbox_congr users ?_ other)
      exact down_modify c fun _ => rfl
  | @forwards wire topic payload origin bytes forwarded rest at_ serves up encoded encoded' =>
    have arriving := network.flow_forwards c rest (network.hub.subscribers.on topic.nameBytes)
      encoded'
    generalize ({ network with
      wires := (network.wires.modify c fun wire => { wire with up := rest }).mapIdx
        (reach (network.hub.subscribers.on topic.nameBytes) forwarded) } : Network) = after
      at users outbox arriving ⊢
    have waiting : network.flow.waiting c =
        (topic, payload) :: rest.filterMap (carried? .publish) := by
      simp only [flow]
      rw [outbox_eq at_, up, List.filterMap_cons, carried?_publish encoded]
    have moved : after.flow =
        { waiting := fun d => if d = c then rest.filterMap (carried? .publish)
            else network.flow.waiting d
          arriving := after.flow.arriving } := by
      refine Flow.ext (funext fun d => ?_) rfl
      apply (congrArg (List.filterMap _) (outbox d)).trans
      dsimp only
      split
      next same => rw [same, outbox_eq at_, up, List.tail_cons]
      next => rfl
    refine ⟨none, [], ?_, rfl, fun _ _ issued => by cases issued⟩
    rw [moved]
    exact .forwards waiting arriving

theorem NodeReads.users {node : Nat} {called : List Invocation} {after : Network}
    (reads : network.NodeReads node called after) : after.users = network.users := by
  cases reads with
  | idle => rfl
  | takes => exact users_modify _ fun _ => rfl

theorem NodeReads.outbox {node : Nat} {called : List Invocation} {after : Network}
    (reads : network.NodeReads node called after) (c : ConnectionId) :
    after.outbox c = network.outbox c := by
  cases reads with
  | idle => rfl
  | takes =>
    refine outbox_congr ?_ c
    exact up_modify _ fun _ => rfl

theorem inbox_eq_nil {node : Nat}
    (nothing : ∀ c wire, network.wireOf? node = some c → network.wires[c]? = some wire →
      wire.down = []) : network.inbox node = [] := by
  simp only [inbox]
  cases used : network.wireOf? node with
  | none => rfl
  | some c =>
    obtain ⟨wire, at_, -, -⟩ := users_eq_some.1 (users_of_wireOf? used)
    dsimp only
    rw [at_]
    exact nothing c wire used at_

/-- A node takes the first payload that is on its way to it, if there is one. -/
theorem NodeReads.inbox {node : Nat} {called : List Invocation} {after : Network}
    (reads : network.NodeReads node called after) (other : Nat) :
    after.inbox other =
      if other = node then (network.inbox other).tail else network.inbox other := by
  have users := reads.users
  by_cases same : other = node
  · subst same
    rw [if_pos rfl]
    cases reads with
    | idle nothing => rw [inbox_eq_nil nothing, List.tail_nil]
    | @takes link c wire topic payload origin bytes rest linked used at_ down encoded =>
      have at' : (network.wires.modify c fun wire => { wire with down := rest })[c]? =
          some { wire with down := rest } := by
        rw [List.getElem?_modify, at_]
        simp
      rw [inbox_eq used at_, inbox_eq ((wireOf?_congr users other).trans used) at', down]
      rfl
  · rw [if_neg same]
    simp only [Network.inbox]
    rw [wireOf?_congr users]
    cases used' : network.wireOf? other with
    | none => rfl
    | some d =>
      cases reads with
      | idle => rfl
      | @takes link c wire topic payload origin bytes rest linked used at_ down encoded =>
        have differs : c ≠ d := by
          rintro rfl
          have both := (users_of_wireOf? used').symm.trans (users_of_wireOf? used)
          exact same (Option.some.inj (Option.some.inj both))
        dsimp only
        rw [List.getElem?_modify_ne _ _ differs]

theorem NodeReads.flows {node : Nat} {step : Step} {called : List Invocation} {after : Network}
    (reads : network.NodeReads node called after) : network.Flows step called after := by
  have outbox := reads.outbox
  have inbox := reads.inbox
  cases reads with
  | idle => exact flows_of_same (fun _ => rfl) fun _ => rfl
  | @takes link c wire topic payload origin bytes rest linked used at_ down encoded =>
    have first : network.flow.arriving node =
        (topic, payload) :: rest.filterMap (carried? .deliver) := by
      simp only [flow]
      rw [inbox_eq used at_, down, List.filterMap_cons, carried?_deliver encoded]
    generalize ({ network with
      wires := network.wires.modify c fun wire => { wire with down := rest } } : Network) = after
      at outbox inbox ⊢
    have moved : after.flow =
        { network.flow with
          arriving := fun other => if other = node then rest.filterMap (carried? .deliver)
            else network.flow.arriving other } := by
      refine Flow.ext (funext fun d => congrArg (List.filterMap _) (outbox d))
        (funext fun other => ?_)
      apply (congrArg (List.filterMap _) (inbox other)).trans
      dsimp only
      split
      next same => rw [same, inbox_eq used at_, down, List.tail_cons]
      next => rfl
    refine ⟨none, if link.listeners.contains topic then [(node, (topic, payload))] else [], ?_, ?_,
      fun _ _ issued => by cases issued⟩
    · rw [moved]
      refine .takes first ?_
      split
      · exact .inr rfl
      · exact .inl rfl
    · split <;> rfl

/-- Every step moves what is on its way as a flow can move. -/
theorem Sound.flows (h : network.Sound) (step : Step) :
    network.Flows step (network.step step).1 (network.step step).2 := by
  have quiet : network.Flows step [] network := flows_of_same (fun _ => rfl) fun _ => rfl
  cases step with
  | subscribe node topic =>
    simp only [Network.step, atNode]
    cases at_ : network.links[node]? with
    | none => exact quiet
    | some link =>
      obtain ⟨requests, listing, use⟩ := link.use_subscribe topic
      exact h.flows_withLink at_ use listing
  | unsubscribe node topic =>
    simp only [Network.step, atNode]
    cases at_ : network.links[node]? with
    | none => exact quiet
    | some link =>
      obtain ⟨requests, listing, use⟩ := link.use_unsubscribe topic
      exact h.flows_withLink at_ use listing
  | publish node topic payload =>
    simp only [Network.step, atNode]
    cases at_ : network.links[node]? with
    | none => exact quiet
    | some link => exact h.flows_publish at_ topic payload
  | connect node =>
    simp only [Network.step]
    rcases network.connect_cases node with ⟨same, -⟩ | ⟨link, at_, used, eq⟩
    · rw [same]
      exact quiet
    · rw [eq]
      exact h.flows_joined used
  | lose node kept =>
    simp only [Network.step]
    rcases network.lose_cases node kept with ⟨same, -⟩ | ⟨link, c, at_, used, eq⟩
    · rw [same]
      exact quiet
    · rw [eq]
      exact h.flows_left used
  | hubReads c => exact (h.hubReads c).flows
  | nodeReads node => exact (h.nodeReads node).flows

end Network

end Fanout
