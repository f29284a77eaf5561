import Fanout.Proofs.Relay.Wires

/-!
# What steps do to connections

Each step of a network that keeps to the rules, in terms of links, connections and what is on them.
A node that uses its link puts requests on its connection; the hub takes one request from a
connection or closes it; a node takes one payload from its connection.
-/

namespace Fanout.Network

variable {network : Network} {node : Nat} {c : ConnectionId} {link after : Link Topic}

theorem withLink_eq (network : Network) (node : Nat) (link : Link Topic) :
    network.withLink node link =
      { network with
        links := network.links.set node { link with queue := link.queue.map fun _ => [] }
        wires :=
          match network.wireOf? node with
          | some c =>
            network.wires.modify c fun wire =>
              { wire with up := wire.up ++ (Link.encodeEach (link.queue.getD [])).1 }
          | none => network.wires } := by
  have same : ∀ links, ({ network with links } : Network).wireOf? node = network.wireOf? node :=
    fun _ => rfl
  simp only [withLink, Link.flush]
  rw [same]
  cases network.wireOf? node <;> rfl

theorem Sound.withLink_of_some (h : network.Sound) (at_ : network.links[node]? = some link)
    (used : network.wireOf? node = some c) {requests : List Request}
    (use : link.Use after requests) :
    network.withLink node after =
      { network with
        links := network.links.set node { after with queue := some [] }
        wires := network.wires.modify c fun wire =>
          { wire with up := wire.up ++ Request.sent requests } } := by
  have queue : after.queue = some (requests.map Request.frame) := by
    rw [use.queue, h.flushed node link at_, used]
    rfl
  rw [withLink_eq, used, queue]
  rfl

theorem Sound.withLink_of_none (h : network.Sound) (at_ : network.links[node]? = some link)
    (used : network.wireOf? node = none) {requests : List Request}
    (use : link.Use after requests) :
    network.withLink node after = { network with links := network.links.set node after } := by
  have queue : after.queue = none := by
    rw [use.queue, h.flushed node link at_, used]
    rfl
  obtain ⟨nodeId, listeners, frames⟩ := after
  obtain rfl : frames = none := queue
  rw [withLink_eq, used]
  rfl

/-- A network once a node has started a session. -/
def joined (network : Network) (node : Nat) (link : Link Topic) : Network :=
  { hub := network.hub.attach network.wires.length
    links := network.links.set node { link with queue := some [] }
    wires := network.wires ++ [{ node, up := Request.sent link.greeting }] }

theorem connect_cases (network : Network) (node : Nat) :
    (network.connect node = network ∧
      (network.links[node]? = none ∨ network.wireOf? node ≠ none)) ∨
      ∃ link, network.links[node]? = some link ∧ network.wireOf? node = none ∧
        network.connect node = network.joined node link := by
  simp only [connect]
  cases at_ : network.links[node]? with
  | none => exact .inl ⟨rfl, .inl rfl⟩
  | some link =>
    cases used : network.wireOf? node with
    | some c => exact .inl ⟨rfl, .inr (Option.some_ne_none c)⟩
    | none =>
      refine .inr ⟨link, rfl, rfl, ?_⟩
      have fresh : ({ network with
          hub := network.hub.attach network.wires.length
          wires := network.wires ++ [({ node } : Wire)] } : Network).wireOf? node =
          some network.wires.length := by
        simp only [wireOf?] at used ⊢
        rw [List.findIdx?_append, used]
        simp
      dsimp only
      rw [withLink_eq, fresh, Link.attach_queue]
      dsimp only
      rw [modify_append_length]
      rfl

/-- A network once a node has lost a session. -/
def left (network : Network) (node : Nat) (link : Link Topic) (c : ConnectionId) (kept : Nat) :
    Network :=
  { network with
    links := network.links.set node link.detach
    wires := network.wires.modify c fun wire =>
      { wire with up := wire.up.take kept, down := [], live := false } }

theorem lose_cases (network : Network) (node kept : Nat) :
    (network.lose node kept = network ∧
      (network.links[node]? = none ∨ network.wireOf? node = none)) ∨
      ∃ link c, network.links[node]? = some link ∧ network.wireOf? node = some c ∧
        network.lose node kept = network.left node link c kept := by
  simp only [lose]
  cases network.links[node]? with
  | none => exact .inl ⟨rfl, .inl rfl⟩
  | some link =>
    cases network.wireOf? node with
    | none => exact .inl ⟨rfl, .inr rfl⟩
    | some c => exact .inr ⟨link, c, rfl, rfl, rfl⟩

/-- A connection once some bytes have been sent to those among the targets that are in use. -/
def reach (targets : List ConnectionId) (bytes : Bytes) (c : ConnectionId) (wire : Wire) : Wire :=
  if c ∈ targets ∧ wire.live = true then { wire with down := wire.down ++ [bytes] } else wire

theorem deliverAll_eq (network : Network) {frame : Frame} {bytes : Bytes}
    (encoded : frame.encode = .ok bytes) {targets : List ConnectionId} (once : targets.Nodup) :
    network.deliverAll (targets.map fun connection => { connection, frame }) =
      { network with wires := network.wires.mapIdx (reach targets bytes) } := by
  induction targets generalizing network with
  | nil =>
    have same : reach [] bytes = fun _ wire => wire := by
      funext c wire
      simp [reach]
    rw [same, List.mapIdx_eq_zipIdx_map]
    simp [deliverAll]
  | cons target targets ih =>
    rw [List.nodup_cons] at once
    have first : network.deliver { connection := target, frame } =
        network.modifyWire target fun wire =>
          if wire.live then { wire with down := wire.down ++ [bytes] } else wire := by
      rw [deliver, encoded]
    rw [List.map_cons, deliverAll, List.foldl_cons, first]
    apply (ih _ once.2).trans
    simp only [modifyWire]
    congr 1
    apply List.ext_getElem?
    intro d
    rw [List.getElem?_mapIdx, List.getElem?_mapIdx, List.getElem?_modify]
    cases network.wires[d]? with
    | none => rfl
    | some wire =>
      by_cases hit : target = d
      · subst hit
        cases live : wire.live <;> simp [reach, live, once.1]
      · simp [reach, hit, Ne.symm hit]

/-- What the hub does when it turns to a connection. -/
inductive HubReads (network : Network) (c : ConnectionId) : Network → Prop
  /-- There is nothing to do. -/
  | idle (nothing : ∀ wire, network.wires[c]? = some wire →
      wire.up = [] ∧ (wire.live = true ∨ wire.served = false)) :
      HubReads network c network
  /-- The node has gone and all that it sent is handled. -/
  | closes {wire : Wire} (at_ : network.wires[c]? = some wire) (serves : wire.served = true)
      (gone : wire.live = false) (done : wire.up = []) :
      HubReads network c (network.hangUp c)
  /-- A request changes what the connection is listed under. -/
  | lists {wire : Wire} {request : Request} {bytes : Bytes} {rest : List Bytes}
      {subscribers : Subscribers} (at_ : network.wires[c]? = some wire)
      (serves : wire.served = true) (up : wire.up = bytes :: rest)
      (encoded : request.frame.encode = .ok bytes) (listing : request.isListing = true)
      (proper : subscribers.Proper)
      (own : { topic | c ∈ subscribers.on topic } =
        request.frame.applied (network.hub.topicsOf c))
      (others : ∀ d, d ≠ c → ∀ topic,
        d ∈ subscribers.on topic ↔ d ∈ network.hub.subscribers.on topic) :
      HubReads network c
        { network with
          hub := { network.hub with subscribers }
          wires := network.wires.modify c fun wire => { wire with up := rest } }
  /-- A payload goes to everyone who is listed under its topic. -/
  | forwards {wire : Wire} {topic : Topic} {payload origin bytes forwarded : Bytes}
      {rest : List Bytes} (at_ : network.wires[c]? = some wire) (serves : wire.served = true)
      (up : wire.up = bytes :: rest)
      (encoded : (Request.publish topic payload origin).frame.encode = .ok bytes)
      (encoded' : (Frame.deliver topic.nameBytes payload (some origin)).encode = .ok forwarded) :
      HubReads network c
        { network with
          wires := (network.wires.modify c fun wire => { wire with up := rest }).mapIdx
            (reach (network.hub.subscribers.on topic.nameBytes) forwarded) }

theorem served_eq_some {c : Nat} :
    network.served[c]? = some true ↔
      ∃ wire, network.wires[c]? = some wire ∧ wire.served = true := by
  rw [served, List.getElem?_map, Option.map_eq_some_iff]

/-- Everyone who is listed can be reached. -/
theorem Sound.send_eq (h : network.Sound) (topic : Bytes) (frame : Frame) :
    network.hub.send (network.hub.subscribers.on topic) frame =
      (network.hub.subscribers.on topic).map fun connection => { connection, frame } := by
  rw [Hub.send, List.filter_eq_self.2]
  intro c listed
  have registered := (h.registered c).2 (h.listed c topic listed)
  simp [Hub.reaches, registered, h.unbroken]

theorem hubReads_of_nil {wire : Wire} (at_ : network.wires[c]? = some wire)
    (serves : wire.served = true) (up : wire.up = []) :
    network.hubReads c = if wire.live then network else network.hangUp c := by
  rw [Network.hubReads, at_]
  dsimp only
  rw [if_pos serves, up]

theorem hubReads_of_handle {wire : Wire} {bytes : Bytes} {rest : List Bytes} {frame : Frame}
    {hub : Hub} {sent : List Delivery} (at_ : network.wires[c]? = some wire)
    (serves : wire.served = true) (up : wire.up = bytes :: rest)
    (encoded : frame.encode = .ok bytes) (handled : network.hub.handle c frame = .ok (hub, sent)) :
    network.hubReads c =
      ({ network with
        hub
        wires := network.wires.modify c fun wire => { wire with up := rest } } : Network).deliverAll
        sent := by
  have understood : (Frame.parse bytes >>= network.hub.handle c) = .ok (hub, sent) := by
    rw [Frame.parse_encode encoded]
    exact handled
  rw [Network.hubReads, at_]
  dsimp only
  rw [if_pos serves, up]
  dsimp only
  rw [understood]
  rfl

/-- The hub handles a request. -/
theorem Sound.hubReads_of_request (h : network.Sound) {wire : Wire} {request : Request}
    {bytes : Bytes} {rest : List Bytes} (at_ : network.wires[c]? = some wire)
    (serves : wire.served = true) (up : wire.up = bytes :: rest)
    (encoded : request.frame.encode = .ok bytes) :
    network.HubReads c (network.hubReads c) := by
  cases request with
  | subscribe topic =>
    rw [hubReads_of_handle at_ serves up encoded rfl]
    refine .lists at_ serves up encoded rfl (h.proper.add topic.nameBytes c) ?_ ?_
    · ext name
      exact Subscribers.mem_add.trans (by simp [Frame.applied, Request.frame, Frame.subscribe,
        Hub.topicsOf, eq_comm, or_comm])
    · intro d other name
      exact Subscribers.mem_add.trans (by simp [other])
  | unsubscribe topic =>
    rw [hubReads_of_handle at_ serves up encoded rfl]
    refine .lists at_ serves up encoded rfl (h.proper.remove topic.nameBytes c) ?_ ?_
    · ext name
      exact Subscribers.mem_remove.trans (by simp [Frame.applied, Request.frame,
        Frame.unsubscribe, Hub.topicsOf, eq_comm])
    · intro d other name
      exact Subscribers.mem_remove.trans (by simp [other])
  | publish topic payload origin =>
    have small := Frame.size_le_limit_of_encode encoded
    obtain ⟨forwarded, encoded'⟩ := Frame.encode_of_size_le
      (Nat.le_trans (Nat.le_of_eq (Frame.size_deliver topic.nameBytes payload origin)) small)
    have handled : network.hub.handle c (Request.publish topic payload origin).frame =
        .ok (network.hub, network.hub.send (network.hub.subscribers.on topic.nameBytes)
          (.deliver topic.nameBytes payload (some origin))) := rfl
    rw [hubReads_of_handle at_ serves up encoded handled, h.send_eq,
      deliverAll_eq _ encoded' (h.proper.once topic.nameBytes)]
    exact .forwards at_ serves up encoded encoded'

theorem Sound.hubReads (h : network.Sound) (c : ConnectionId) :
    network.HubReads c (network.hubReads c) := by
  cases at_ : network.wires[c]? with
  | none =>
    have same : network.hubReads c = network := by
      rw [Network.hubReads, at_]
    rw [same]
    exact .idle fun wire found => by rw [at_] at found; contradiction
  | some wire =>
    have only : ∀ other, network.wires[c]? = some other → other = wire :=
      fun other found => Option.some.inj (found.symm.trans at_)
    have sound := h.wires wire (List.mem_of_getElem? at_)
    cases serves : wire.served with
    | false =>
      have same : network.hubReads c = network := by
        rw [Network.hubReads, at_]
        simp [serves]
      rw [same]
      refine .idle fun other found => ?_
      rw [only other found]
      exact ⟨sound.closed serves, .inr serves⟩
    | true =>
      cases up : wire.up with
      | nil =>
        rw [hubReads_of_nil at_ serves up]
        cases live : wire.live with
        | true =>
          refine .idle fun other found => ?_
          rw [only other found]
          exact ⟨up, .inl live⟩
        | false => exact .closes at_ serves live up
      | cons bytes rest =>
        obtain ⟨request, encoded⟩ := sound.up bytes (by rw [up]; exact List.mem_cons_self)
        exact h.hubReads_of_request at_ serves up encoded

/-- What a node does when it turns to its connection. -/
inductive NodeReads (network : Network) (node : Nat) : List Invocation → Network → Prop
  /-- There is nothing to do. -/
  | idle (nothing : ∀ c wire, network.wireOf? node = some c → network.wires[c]? = some wire →
      wire.down = []) :
      NodeReads network node [] network
  /-- A payload is handed to the listener of its topic, if there still is one. -/
  | takes {link : Link Topic} {c : ConnectionId} {wire : Wire} {topic : Topic}
      {payload origin bytes : Bytes} {rest : List Bytes} (linked : network.links[node]? = some link)
      (used : network.wireOf? node = some c) (at_ : network.wires[c]? = some wire)
      (down : wire.down = bytes :: rest)
      (encoded : (Frame.deliver topic.nameBytes payload (some origin)).encode = .ok bytes) :
      NodeReads network node
        (if link.listeners.contains topic then [{ node, topic, payload }] else [])
        { network with wires := network.wires.modify c fun wire => { wire with down := rest } }

theorem Sound.linked (h : network.Sound) (used : network.wireOf? node = some c) :
    ∃ link, network.links[node]? = some link := by
  obtain ⟨wire, at_, -, rfl⟩ := users_eq_some.1 (users_of_wireOf? used)
  have inside := (h.wires wire (List.mem_of_getElem? at_)).linked
  exact ⟨_, List.getElem?_eq_getElem inside⟩

theorem Sound.wireOf?_of_none (h : network.Sound) (none_ : network.links[node]? = none) :
    network.wireOf? node = none := by
  cases used : network.wireOf? node with
  | none => rfl
  | some c =>
    obtain ⟨link, linked⟩ := h.linked used
    rw [none_] at linked
    contradiction

theorem Sound.respond_eq (h : network.Sound) (linked : network.links[node]? = some link)
    (topic : Topic) (payload : Bytes) (origin : Option Bytes) :
    link.respond (.deliver topic.nameBytes payload origin) =
      if link.listeners.contains topic then some (.called topic payload) else none := by
  have known : Topic.ofNameBytes? topic.nameBytes = some topic :=
    Topic.ofNameBytes?_eq_some_iff.2 rfl
  unfold Link.respond Frame.deliver Listeners.contains Table.has
  dsimp only [Option.bind_some]
  rw [known]
  dsimp only
  cases found : Table.get? link.listeners topic with
  | none => rfl
  | some listener =>
    rw [h.own link (List.mem_of_getElem? linked) topic listener found]
    rfl

theorem Sound.nodeReads (h : network.Sound) (node : Nat) :
    network.NodeReads node (network.nodeReads node).1 (network.nodeReads node).2 := by
  simp only [Network.nodeReads]
  cases used : network.wireOf? node with
  | none =>
    have nothing : ∀ c wire, network.wireOf? node = some c → network.wires[c]? = some wire →
        wire.down = [] := by
      intro c wire found
      rw [used] at found
      contradiction
    cases network.links[node]? <;> exact .idle nothing
  | some c =>
    obtain ⟨link, linked⟩ := h.linked used
    obtain ⟨wire, at_, live, -⟩ := users_eq_some.1 (users_of_wireOf? used)
    have sound := h.wires wire (List.mem_of_getElem? at_)
    rw [linked]
    dsimp only
    rw [at_]
    dsimp only
    cases down : wire.down with
    | nil =>
      dsimp only
      rw [if_pos (sound.served live)]
      refine .idle fun d other found at' => ?_
      obtain rfl := Option.some.inj (used.symm.trans found)
      obtain rfl := Option.some.inj (at_.symm.trans at')
      exact down
    | cons bytes rest =>
      obtain ⟨topic, payload, origin, encoded⟩ :=
        sound.down bytes (by rw [down]; exact List.mem_cons_self)
      have takes := NodeReads.takes linked used at_ down encoded
      dsimp only
      rw [Frame.parse_encode encoded]
      dsimp only
      rw [h.respond_eq linked]
      cases listed : link.listeners.contains topic with
      | true =>
        rw [listed] at takes
        exact takes
      | false =>
        rw [listed] at takes
        exact takes

end Fanout.Network
