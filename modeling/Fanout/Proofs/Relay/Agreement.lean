import Fanout.Proofs.Relay.Steps

/-!
# Hub and nodes agree on subscriptions

A network keeps to its rules in every step (`Sound.step`), so in every run from nodes without
connections what is on its way from a node to the hub makes the hub list the node's connection under
exactly the topics that have a listener there (`subscriptions_agree`).
-/

namespace Fanout.Network

variable {network : Network}

theorem sound_ofNodes (ids : List String) : (ofNodes ids).Sound where
  alone c d node used := by simp [users, ofNodes] at used
  wires := by simp [ofNodes]
  flushed node link at_ := by
    obtain ⟨id, -, rfl⟩ := List.mem_map.1 (List.mem_of_getElem? at_)
    rfl
  own := by
    intro link member topic listener found
    obtain ⟨id, -, rfl⟩ := List.mem_map.1 member
    contradiction
  registered c := by simp [served, ofNodes]
  unbroken := rfl
  proper := Subscribers.proper_nil
  listed c topic found := by contradiction
  agrees c wire link at_ := by simp [ofNodes] at at_

/-- A step by which connections neither come nor go. -/
theorem Sound.revise (h : network.Sound) {links : List (Link Topic)} {subscribers : Subscribers}
    {wires : List Wire} (users : wires.map Wire.user? = network.users)
    (served : wires.map Wire.served = network.served)
    (sound : ∀ wire ∈ wires, wire.Sound links.length)
    (flushed : ∀ (node : Nat) (link : Link Topic), links[node]? = some link →
      link.queue = (network.wireOf? node).map fun _ => [])
    (own : ∀ link ∈ links, link.Own) (proper : subscribers.Proper)
    (listed : ∀ c topic, c ∈ subscribers.on topic → network.served[c]? = some true)
    (agrees : ∀ (c : ConnectionId) (wire : Wire) (link : Link Topic), wires[c]? = some wire →
      wire.live = true → links[wire.node]? = some link →
      requested wire.up { topic | c ∈ subscribers.on topic } = link.wanted) :
    ({ hub := { network.hub with subscribers }, links, wires } : Network).Sound where
  alone := by
    simp only [Alone, Network.users]
    rw [users]
    exact h.alone
  wires := sound
  flushed node link at_ := by
    refine (flushed node link at_).trans (congrArg _ (wireOf?_congr ?_ node).symm)
    exact users
  own := own
  registered := by
    rw [Network.served, served]
    exact h.registered
  unbroken := h.unbroken
  proper := proper
  listed := by
    rw [Network.served, served]
    exact listed
  agrees := agrees

/-- A node gets a new link, and possibly a new connection or none. -/
theorem Sound.flushed_set (h : network.Sound) {node : Nat} {next : Link Topic}
    {uses : Nat → Option ConnectionId} (queue : next.queue = (uses node).map fun _ => [])
    (others : ∀ other, ¬ node = other → uses other = network.wireOf? other) :
    ∀ (other : Nat) (link : Link Topic), (network.links.set node next)[other]? = some link →
      link.queue = (uses other).map fun _ => [] := by
  intro other link at_
  rw [List.getElem?_set] at at_
  split at at_
  next same =>
    subst same
    split at at_
    · obtain rfl := Option.some.inj at_
      exact queue
    · contradiction
  next differs =>
    rw [others other differs]
    exact h.flushed other link at_

/-- A connection that a node does not use is not concerned when the node gets a new link. -/
theorem Sound.agrees_set (h : network.Sound) {node : Nat} {next link : Link Topic}
    {c : ConnectionId} {wire : Wire} (unused : network.wireOf? node ≠ some c)
    (found : network.wires[c]? = some wire) (live : wire.live = true)
    (at_ : (network.links.set node next)[wire.node]? = some link) :
    requested wire.up (network.hub.topicsOf c) = link.wanted := by
  have apart : ¬ node = wire.node := by
    rintro rfl
    exact unused (h.wireOf?_of_wire found live)
  rw [List.getElem?_set_ne apart] at at_
  exact h.agrees c wire link found live at_

theorem Sound.withLink_disconnected (h : network.Sound) {node : Nat} {link after : Link Topic}
    (at_ : network.links[node]? = some link) (used : network.wireOf? node = none)
    {requests : List Request} (use : link.Use after requests) :
    (network.withLink node after).Sound := by
  have own := use.own (h.own link (List.mem_of_getElem? at_))
  have queue : after.queue = (network.wireOf? node).map fun _ => [] := by
    rw [use.queue, h.flushed node link at_, used]
    rfl
  rw [h.withLink_of_none at_ used use]
  refine h.revise rfl rfl ?_ (h.flushed_set queue fun _ _ => rfl) (forall_mem_set h.own node own)
    h.proper h.listed ?_
  · simpa using h.wires
  · intro c wire other found live at'
    exact h.agrees_set (by simp [used]) found live at'

theorem Sound.withLink_connected (h : network.Sound) {node : Nat} {link after : Link Topic}
    (at_ : network.links[node]? = some link) {c : ConnectionId}
    (used : network.wireOf? node = some c) {requests : List Request}
    (use : link.Use after requests) : (network.withLink node after).Sound := by
  have inside : node < network.links.length := (List.getElem?_eq_some_iff.1 at_).1
  have own := use.own (h.own link (List.mem_of_getElem? at_))
  obtain ⟨wire, found, live, mine⟩ := users_eq_some.1 (users_of_wireOf? used)
  rw [h.withLink_of_some at_ used use]
  refine h.revise (users_modify c fun _ => rfl) (served_modify c fun _ => rfl) ?_
    (h.flushed_set (by rw [used]; rfl) fun _ _ => rfl) (forall_mem_set h.own node own) h.proper
    h.listed ?_
  · rw [List.length_set]
    apply forall_mem_modify h.wires
    intro other found'
    obtain rfl := Option.some.inj (found.symm.trans found')
    exact (h.wires wire (List.mem_of_getElem? found)).send live requests
  · intro d other next found' live' at'
    rcases getElem?_modify_eq_some.1 found' with ⟨rfl, old, found'', rfl⟩ | ⟨differs, found''⟩
    · obtain rfl := Option.some.inj (found.symm.trans found'')
      have before := h.agrees c wire link found live (mine ▸ at_)
      simp only [Hub.topicsOf] at before
      dsimp only at at' ⊢
      rw [mine, List.getElem?_set_self inside] at at'
      rw [requested_append, before, requested_sent, use.wanted, ← Option.some.inj at']
      rfl
    · exact h.agrees_set (by simpa [used] using differs) found'' live' at'

/-- A node that uses its link keeps the network to its rules. -/
theorem Sound.withLink (h : network.Sound) {node : Nat} {link after : Link Topic}
    (at_ : network.links[node]? = some link) {requests : List Request}
    (use : link.Use after requests) : (network.withLink node after).Sound := by
  cases used : network.wireOf? node with
  | none => exact h.withLink_disconnected at_ used use
  | some c => exact h.withLink_connected at_ used use

theorem topicsOf_eq_empty (h : network.Sound) {c : ConnectionId}
    (gone : network.served[c]? ≠ some true) : network.hub.topicsOf c = ∅ := by
  ext topic
  constructor
  · exact fun listed => absurd (h.listed c topic listed) gone
  · exact fun never => absurd never (Set.notMem_empty topic)

theorem users_joined (node : Nat) (link : Link Topic) {c : ConnectionId} {other : Nat} :
    (network.joined node link).users[c]? = some (some other) ↔
      network.users[c]? = some (some other) ∨ c = network.wires.length ∧ node = other := by
  simp only [users, joined]
  rw [List.map_append, List.map_singleton, getElem?_concat_eq_some, List.length_map]
  simp [Wire.user?]

theorem served_joined (node : Nat) (link : Link Topic) {c : ConnectionId} :
    (network.joined node link).served[c]? = some true ↔
      network.served[c]? = some true ∨ c = network.wires.length := by
  simp only [served, joined]
  rw [List.map_append, List.map_singleton, getElem?_concat_eq_some, List.length_map]
  simp

theorem Sound.alone_joined (h : network.Sound) {node : Nat} (link : Link Topic)
    (used : network.wireOf? node = none) : (network.joined node link).Alone := by
  have absent := wireOf?_eq_none.1 used
  have older : ∀ {c : ConnectionId} {other : Nat}, network.users[c]? = some (some other) →
      c ≠ network.wires.length := by
    intro c other user
    obtain ⟨wire, found, -, -⟩ := users_eq_some.1 user
    exact Nat.ne_of_lt (List.getElem?_eq_some_iff.1 found).1
  intro c d other first second
  rcases (users_joined node link).1 first with first | ⟨rfl, rfl⟩
  · rcases (users_joined node link).1 second with second | ⟨rfl, rfl⟩
    · exact h.alone c d other first second
    · exact absurd first (absent c)
  · rcases (users_joined node link).1 second with second | ⟨rfl, -⟩
    · exact absurd second (absent d)
    · rfl

theorem Sound.wireOf?_joined_self (h : network.Sound) {node : Nat} (link : Link Topic)
    (used : network.wireOf? node = none) :
    (network.joined node link).wireOf? node = some network.wires.length :=
  (h.alone_joined link used).wireOf?_eq_some.2 ((users_joined node link).2 (.inr ⟨rfl, rfl⟩))

theorem Sound.wireOf?_joined_other (h : network.Sound) {node other : Nat} (link : Link Topic)
    (used : network.wireOf? node = none) (differs : ¬ node = other) :
    (network.joined node link).wireOf? other = network.wireOf? other := by
  refine h.alone.wireOf?_congr (h.alone_joined link used) fun c => (users_joined node link).trans ?_
  simp [differs]

theorem Sound.hub_joined (h : network.Sound) (node : Nat) (link : Link Topic) :
    (network.joined node link).hub =
      { network.hub with connections := network.hub.connections ++ [network.wires.length] } := by
  simp only [joined, Hub.attach]
  rw [if_neg]
  intro registered
  obtain ⟨wire, found, -⟩ := served_eq_some.1 ((h.registered _).1 registered)
  simp at found

/-- A node that starts a session keeps the network to its rules: the hub does not list the new
connection, and the node asks for all the topics that have a listener. -/
theorem Sound.joined (h : network.Sound) {node : Nat} {link : Link Topic}
    (at_ : network.links[node]? = some link) (used : network.wireOf? node = none) :
    (network.joined node link).Sound := by
  have inside : node < network.links.length := (List.getElem?_eq_some_iff.1 at_).1
  have hub := h.hub_joined node link
  have topics : ∀ c, (network.joined node link).hub.topicsOf c = network.hub.topicsOf c := by
    intro c
    rw [hub]
    rfl
  constructor
  case alone => exact h.alone_joined link used
  case wires =>
    have lengths : (network.joined node link).links.length = network.links.length :=
      List.length_set
    rw [lengths]
    intro wire member
    rcases List.mem_append.1 member with old | new
    · exact h.wires wire old
    · rw [List.mem_singleton.1 new]
      exact .fresh inside link.greeting
  case flushed =>
    apply h.flushed_set
    · rw [h.wireOf?_joined_self link used]
      rfl
    · exact fun other differs => h.wireOf?_joined_other link used differs
  case own => exact forall_mem_set h.own node (h.own link (List.mem_of_getElem? at_))
  case registered =>
    intro c
    rw [hub, served_joined, List.mem_append, List.mem_singleton]
    exact or_congr_left (h.registered c)
  case unbroken =>
    rw [hub]
    exact h.unbroken
  case proper =>
    rw [hub]
    exact h.proper
  case listed =>
    intro c topic listed
    rw [hub] at listed
    exact (served_joined node link).2 (.inl (h.listed c topic listed))
  case agrees =>
    intro c wire other found live at'
    rw [topics]
    rcases getElem?_concat_eq_some.1 found with before | ⟨rfl, rfl⟩
    · exact h.agrees_set (by simp [used]) before live at'
    · have unknown : network.served[network.wires.length]? ≠ some true := by
        simp [Network.served]
      have same : other.wanted = link.wanted := by
        obtain rfl := Option.some.inj ((List.getElem?_set_self inside).symm.trans at')
        rfl
      rw [topicsOf_eq_empty h unknown, requested_sent, Link.foldl_greeting, same]

theorem users_left (node : Nat) (link : Link Topic) {c d : ConnectionId} {kept other : Nat} :
    (network.left node link c kept).users[d]? = some (some other) ↔
      d ≠ c ∧ network.users[d]? = some (some other) := by
  rw [users_eq_some, users_eq_some]
  simp only [left]
  constructor
  · rintro ⟨wire, found, live, same⟩
    rcases getElem?_modify_eq_some.1 found with ⟨-, old, -, rfl⟩ | ⟨differs, found'⟩
    · contradiction
    · exact ⟨Ne.symm differs, wire, found', live, same⟩
  · rintro ⟨differs, wire, found, live, same⟩
    exact ⟨wire, getElem?_modify_eq_some.2 (.inr ⟨Ne.symm differs, found⟩), live, same⟩

theorem Sound.alone_left (h : network.Sound) (node : Nat) (link : Link Topic) (c : ConnectionId)
    (kept : Nat) : (network.left node link c kept).Alone := by
  intro d e other first second
  exact h.alone d e other ((users_left node link).1 first).2 ((users_left node link).1 second).2

theorem Sound.wireOf?_left_self (h : network.Sound) {node : Nat} (link : Link Topic)
    {c : ConnectionId} (kept : Nat) (used : network.wireOf? node = some c) :
    (network.left node link c kept).wireOf? node = none := by
  refine wireOf?_eq_none.2 fun d user => ?_
  obtain ⟨differs, before⟩ := (users_left node link).1 user
  exact differs (h.alone d c node before (users_of_wireOf? used))

theorem Sound.wireOf?_left_other (h : network.Sound) {node other : Nat} (link : Link Topic)
    {c : ConnectionId} (kept : Nat) (used : network.wireOf? node = some c)
    (differs : ¬ node = other) :
    (network.left node link c kept).wireOf? other = network.wireOf? other := by
  refine h.alone.wireOf?_congr (h.alone_left node link c kept) fun d =>
    (users_left node link).trans (and_iff_right_of_imp fun user => ?_)
  rintro rfl
  have both := user.symm.trans (users_of_wireOf? used)
  exact differs (Option.some.inj (Option.some.inj both)).symm

/-- A node that loses its session keeps the network to its rules. -/
theorem Sound.left (h : network.Sound) {node kept : Nat} {link : Link Topic} {c : ConnectionId}
    (at_ : network.links[node]? = some link) (used : network.wireOf? node = some c) :
    (network.left node link c kept).Sound := by
  have served : (network.left node link c kept).served = network.served :=
    served_modify c fun _ => rfl
  constructor
  case alone => exact h.alone_left node link c kept
  case wires =>
    have lengths : (network.left node link c kept).links.length = network.links.length :=
      List.length_set
    rw [lengths]
    exact forall_mem_modify h.wires fun wire found =>
      (h.wires wire (List.mem_of_getElem? found)).cut kept
  case flushed =>
    apply h.flushed_set
    · rw [h.wireOf?_left_self link kept used]
      rfl
    · exact fun other differs => h.wireOf?_left_other link kept used differs
  case own => exact forall_mem_set h.own node (h.own link (List.mem_of_getElem? at_))
  case registered =>
    rw [served]
    exact h.registered
  case unbroken => exact h.unbroken
  case proper => exact h.proper
  case listed =>
    rw [served]
    exact h.listed
  case agrees =>
    intro d wire other found live at'
    rcases getElem?_modify_eq_some.1 found with ⟨-, old, -, rfl⟩ | ⟨differs, found'⟩
    · contradiction
    · exact h.agrees_set (by simpa [used] using differs) found' live at'

theorem served_hangUp {c d : ConnectionId} :
    (network.hangUp c).served[d]? = some true ↔ network.served[d]? = some true ∧ d ≠ c := by
  rw [served_eq_some, served_eq_some]
  simp only [Network.hangUp, modifyWire]
  constructor
  · rintro ⟨wire, found, serves⟩
    rcases getElem?_modify_eq_some.1 found with ⟨-, old, -, rfl⟩ | ⟨differs, found'⟩
    · contradiction
    · exact ⟨⟨wire, found', serves⟩, Ne.symm differs⟩
  · rintro ⟨⟨wire, found, serves⟩, differs⟩
    exact ⟨wire, getElem?_modify_eq_some.2 (.inr ⟨Ne.symm differs, found⟩), serves⟩

/-- The hub closing a connection that its node has left keeps the network to its rules. -/
theorem Sound.hangUp (h : network.Sound) {c : ConnectionId} {wire : Wire}
    (at_ : network.wires[c]? = some wire) (gone : wire.live = false) :
    (network.hangUp c).Sound := by
  have users : (network.hangUp c).users = network.users := users_modify c fun _ => rfl
  constructor
  case alone =>
    rw [Alone, users]
    exact h.alone
  case wires =>
    apply forall_mem_modify h.wires
    intro other found
    obtain rfl := Option.some.inj (at_.symm.trans found)
    exact (h.wires wire (List.mem_of_getElem? found)).close gone
  case flushed =>
    intro node link at'
    rw [wireOf?_congr users]
    exact h.flushed node link at'
  case own => exact h.own
  case registered =>
    intro d
    rw [served_hangUp, ← h.registered]
    exact (List.mem_filter).trans (by simp)
  case unbroken => exact h.unbroken
  case proper => exact h.proper.removeAll c
  case listed =>
    intro d topic listed
    obtain ⟨before, differs⟩ := Subscribers.mem_removeAll.1 listed
    exact served_hangUp.2 ⟨h.listed d topic before, differs⟩
  case agrees =>
    intro d other link found live at'
    rcases getElem?_modify_eq_some.1 found with ⟨rfl, old, found', rfl⟩ | ⟨differs, found'⟩
    · obtain rfl := Option.some.inj (at_.symm.trans found')
      rw [gone] at live
      contradiction
    · rw [← h.agrees d other link found' live at']
      congr 1
      ext topic
      exact Subscribers.mem_removeAll.trans (and_iff_left (Ne.symm differs))

section Reach

variable {targets : List ConnectionId} {bytes : Bytes} {c : ConnectionId} {wire : Wire}

theorem user?_reach : (reach targets bytes c wire).user? = wire.user? := by
  simp only [reach]
  split <;> rfl

theorem served_reach : (reach targets bytes c wire).served = wire.served := by
  simp only [reach]
  split <;> rfl

theorem up_reach : (reach targets bytes c wire).up = wire.up := by
  simp only [reach]
  split <;> rfl

theorem live_reach : (reach targets bytes c wire).live = wire.live := by
  simp only [reach]
  split <;> rfl

theorem node_reach : (reach targets bytes c wire).node = wire.node := by
  simp only [reach]
  split <;> rfl

theorem sound_reach {nodes : Nat} (h : wire.Sound nodes) {topic : Topic} {payload origin : Bytes}
    (encoded : (Frame.deliver topic.nameBytes payload (some origin)).encode = .ok bytes) :
    (reach targets bytes c wire).Sound nodes := by
  simp only [reach]
  split
  next reached =>
    exact {
      linked := h.linked
      served := h.served
      up := h.up
      down := by
        intro other member
        rcases List.mem_append.1 member with before | new
        · exact h.down other before
        · exact ⟨topic, payload, origin, List.mem_singleton.1 new ▸ encoded⟩
      closed := h.closed
      lost := by
        intro gone
        have live : wire.live = true := reached.2
        rw [gone] at live
        contradiction }
  next => exact h

end Reach

theorem HubReads.sound (h : network.Sound) {c : ConnectionId} {after : Network}
    (reads : network.HubReads c after) : after.Sound := by
  cases reads with
  | idle => exact h
  | closes at_ serves gone => exact h.hangUp at_ gone
  | @lists wire request bytes rest subscribers at_ serves up encoded listing proper own others =>
    have known := served_eq_some.2 ⟨wire, at_, serves⟩
    refine h.revise (users_modify c fun _ => rfl) (served_modify c fun _ => rfl) ?_ h.flushed h.own
      proper ?_ ?_
    · apply forall_mem_modify h.wires
      intro other found
      obtain rfl := Option.some.inj (at_.symm.trans found)
      exact (h.wires wire (List.mem_of_getElem? at_)).rest up
    · intro d topic listed
      by_cases same : d = c
      · rw [same]
        exact known
      · exact h.listed d topic ((others d same topic).1 listed)
    · intro d other link found live linked
      rcases getElem?_modify_eq_some.1 found with ⟨rfl, old, found', rfl⟩ | ⟨differs, found'⟩
      · obtain rfl := Option.some.inj (at_.symm.trans found')
        rw [own, ← h.agrees c wire link at_ live linked, up, requested_cons encoded]
      · rw [← h.agrees d other link found' live linked]
        congr 1
        ext topic
        exact others d (Ne.symm differs) topic
  | @forwards wire topic payload origin bytes forwarded rest at_ serves up encoded encoded' =>
    have changed : ∀ other ∈ network.wires.modify c fun wire => { wire with up := rest },
        other.Sound network.links.length := by
      apply forall_mem_modify h.wires
      intro other found
      obtain rfl := Option.some.inj (at_.symm.trans found)
      exact (h.wires wire (List.mem_of_getElem? at_)).rest up
    refine h.revise ?_ ?_ ?_ h.flushed h.own h.proper h.listed ?_
    · rw [map_mapIdx Wire.user? fun _ _ => user?_reach]
      exact users_modify c fun _ => rfl
    · rw [map_mapIdx Wire.served fun _ _ => served_reach]
      exact served_modify c fun _ => rfl
    · intro other member
      obtain ⟨d, inside, rfl⟩ := List.mem_mapIdx.1 member
      exact sound_reach (changed _ (List.getElem_mem inside)) encoded'
    · intro d other link found live linked
      rw [List.getElem?_mapIdx] at found
      obtain ⟨old, found', rfl⟩ := Option.map_eq_some_iff.1 found
      rw [live_reach] at live
      rw [node_reach] at linked
      rw [up_reach]
      rcases getElem?_modify_eq_some.1 found' with ⟨rfl, before, found'', rfl⟩ | ⟨-, found''⟩
      · obtain rfl := Option.some.inj (at_.symm.trans found'')
        rw [← h.agrees c wire link at_ live linked, up, requested_cons encoded]
        rfl
      · exact h.agrees d old link found'' live linked

theorem NodeReads.sound (h : network.Sound) {node : Nat} {called : List Invocation}
    {after : Network} (reads : network.NodeReads node called after) : after.Sound := by
  cases reads with
  | idle => exact h
  | @takes link c wire topic payload origin bytes rest linked used at_ down encoded =>
    refine h.revise (users_modify c fun _ => rfl) (served_modify c fun _ => rfl) ?_ h.flushed h.own
      h.proper h.listed ?_
    · apply forall_mem_modify h.wires
      intro other found
      obtain rfl := Option.some.inj (at_.symm.trans found)
      exact (h.wires wire (List.mem_of_getElem? at_)).take down
    · intro d other link' found live linked'
      rcases getElem?_modify_eq_some.1 found with ⟨rfl, old, found', rfl⟩ | ⟨-, found'⟩
      · exact h.agrees c old link' found' live linked'
      · exact h.agrees d other link' found' live linked'

/-- Every step keeps a network to its rules. -/
theorem Sound.step (h : network.Sound) (step : Step) : (network.step step).2.Sound := by
  have useLink : ∀ (node : Nat) (use : Link Topic → Link Topic),
      (∀ link : Link Topic, ∃ requests, link.Use (use link) requests) →
      (network.atNode node use).Sound := by
    intro node use uses
    simp only [atNode]
    cases at_ : network.links[node]? with
    | none => exact h
    | some link =>
      obtain ⟨requests, use'⟩ := uses link
      exact h.withLink at_ use'
  cases step with
  | subscribe node topic =>
    apply useLink node _
    intro link
    obtain ⟨requests, -, use⟩ := link.use_subscribe topic
    exact ⟨requests, use⟩
  | unsubscribe node topic =>
    apply useLink node _
    intro link
    obtain ⟨requests, -, use⟩ := link.use_unsubscribe topic
    exact ⟨requests, use⟩
  | publish node topic payload =>
    exact useLink node _ fun link => ⟨_, link.use_publish topic payload⟩
  | connect node =>
    rcases network.connect_cases node with ⟨same, -⟩ | ⟨link, at_, used, eq⟩
    · simpa only [Network.step, same] using h
    · simpa only [Network.step, eq] using h.joined at_ used
  | lose node kept =>
    rcases network.lose_cases node kept with ⟨same, -⟩ | ⟨link, c, at_, used, eq⟩
    · simpa only [Network.step, same] using h
    · simpa only [Network.step, eq] using h.left at_ used
  | hubReads c => exact (h.hubReads c).sound h
  | nodeReads node => exact (h.nodeReads node).sound h

theorem Sound.run (h : network.Sound) (steps : List Step) : (network.run steps).2.Sound := by
  induction steps generalizing network with
  | nil => exact h
  | cons step steps ih => exact ih (h.step step)

/-- In every run from nodes without connections, the requests that are on their way from a node,
handled in order, make the hub list the node's connection under exactly the topics that have a
listener in the node; without such requests it is listed so already. A connection that the hub
closes is listed under no topic, and neither is any connection that it has closed. -/
theorem subscriptions_agree (ids : List String) (steps : List Step) :
    (∀ (c : ConnectionId) (wire : Wire) (link : Link Topic),
      ((ofNodes ids).run steps).2.wires[c]? = some wire → wire.live = true →
      ((ofNodes ids).run steps).2.links[wire.node]? = some link →
      requested wire.up (((ofNodes ids).run steps).2.hub.topicsOf c) = link.wanted ∧
      (wire.up = [] → ((ofNodes ids).run steps).2.hub.topicsOf c = link.wanted)) ∧
    (∀ c : ConnectionId, (((ofNodes ids).run steps).2.hub.disconnect c).topicsOf c = ∅) ∧
    ∀ (c : ConnectionId) (wire : Wire),
      ((ofNodes ids).run steps).2.wires[c]? = some wire → wire.served = false →
      ((ofNodes ids).run steps).2.hub.topicsOf c = ∅ := by
  have sound := (sound_ofNodes ids).run steps
  refine ⟨?_, ?_, ?_⟩
  · intro c wire link at_ live linked
    have agrees := sound.agrees c wire link at_ live linked
    refine ⟨agrees, fun settled => ?_⟩
    rw [← agrees, settled, requested_nil]
  · intro c
    ext topic
    exact Subscribers.mem_removeAll.trans (by simp)
  · intro c wire at_ closed
    apply topicsOf_eq_empty sound
    intro known
    obtain ⟨other, found, serves⟩ := served_eq_some.1 known
    rw [Option.some.inj (at_.symm.trans found), serves] at closed
    contradiction

/-- A node that has come back under a second connection and asks for its topic again, while the hub
still lists the first. -/
def returned : List Step :=
  [.connect 0, .subscribe 0 .messages, .hubReads 0, .lose 0 0, .connect 0]

theorem subscriptions_agree_returned :
    ∃ (wire : Wire) (link : Link Topic),
      ((ofNodes ["node"]).run returned).2.wires[1]? = some wire ∧ wire.live = true ∧
      ((ofNodes ["node"]).run returned).2.links[wire.node]? = some link ∧
      requested wire.up (((ofNodes ["node"]).run returned).2.hub.topicsOf 1) = link.wanted := by
  have at_ : ((ofNodes ["node"]).run returned).2.wires[1]? =
      some { node := 0, up := Request.sent [.subscribe .messages] } := by
    decide +kernel
  have linked : ((ofNodes ["node"]).run returned).2.links[0]? =
      some { nodeId := "node", listeners := [(.messages, .messages)], queue := some [] } := by
    decide +kernel
  have agree := subscriptions_agree ["node"] returned
  exact ⟨_, _, at_, rfl, linked, (agree.1 1 _ _ at_ rfl linked).1⟩

end Fanout.Network
