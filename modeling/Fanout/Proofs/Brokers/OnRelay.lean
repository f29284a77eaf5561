import Fanout.Proofs.Brokers.Boards

/-!
# Brokers around a hub

A network that has settled (`Settled`) does with each use of its brokers, once everything that is
then on its way has been handled in some order, what brokers have to do (`Settled.uses`). A use that
is no publish puts no payload on its way. A publish puts one on its way, which the hub forwards to
the connections that it lists; by the agreement of hub and nodes these are those of the nodes that
have a listener.
-/

namespace Fanout.Network

variable {network after : Network} {node : Nat} {link : Link Topic}

/-- A network that keeps to its rules and in which nothing is on its way. -/
structure Settled (network : Network) : Prop where
  sound : network.Sound
  quiet : network.Quiet

/-- Whether no payload is on its way. -/
def Still (network : Network) : Prop :=
  (∀ c, network.flow.waiting c = []) ∧ ∀ node, network.flow.arriving node = []

theorem Quiet.inbox (h : network.Quiet) (node : Nat) : network.inbox node = [] :=
  inbox_eq_nil fun _ wire _ at_ => h.2 wire (List.mem_of_getElem? at_)

theorem Quiet.still (h : network.Quiet) : network.Still := by
  constructor
  · intro c
    exact congrArg (List.filterMap _) (outbox_of_done (h.1 c))
  · intro node
    exact congrArg (List.filterMap _) (h.inbox node)

/-- Without a publish a network in which no payload is on its way stays so, and nobody is called. -/
theorem Flows.still {step : Step} {called : List Invocation}
    (flows : network.Flows step called after) (still : network.Still)
    (other : ∀ node topic payload, step ≠ .publish node topic payload) :
    after.Still ∧ called = [] := by
  obtain ⟨issued, taken, moves, rfl, published⟩ := flows
  obtain ⟨waiting, arriving⟩ := still
  simp only [Still]
  generalize after.flow = flow at moves
  cases moves with
  | loses fewer cut =>
    refine ⟨⟨fun c => List.prefix_nil.1 (waiting c ▸ fewer c), fun node => ?_⟩, rfl⟩
    rcases cut node with same | none_
    · exact same.trans (arriving node)
    · exact none_
  | issues c item =>
    obtain ⟨node, publishes, -⟩ := published c item rfl
    exact absurd publishes (other node item.1 item.2)
  | forwards first =>
    rw [waiting] at first
    contradiction
  | takes first =>
    rw [arriving] at first
    contradiction

/-- If no payload is on its way, handling everything that is calls no listener. -/
theorem Sound.called_of_still (h : network.Sound) (still : network.Still) {turns : List Step}
    (only : ∀ turn ∈ turns, turn.isTurn = true) : (network.run turns).1 = [] := by
  have both : (network.run turns).2.Still ∧ (network.run turns).1 = [] := by
    refine h.turns_induction (p := fun called next => next.Still ∧ called = []) [] ⟨still, rfl⟩
      ?_ ?_ only
    · rintro called next c sound ⟨still, rfl⟩
      have flows := sound.flows (.hubReads c)
      exact flows.still still (by simp)
    · rintro called next n sound ⟨still, rfl⟩
      have flows := sound.flows (.nodeReads n)
      exact flows.still still (by simp)
  exact both.2

/-- The listener that a payload on its way to a node calls. -/
def calledBy (network : Network) (node : Nat) (bytes : Bytes) : List Invocation :=
  match carried? .deliver bytes with
  | some (topic, payload) =>
    if network.hasListener node topic then [{ node, topic, payload }] else []
  | none => []

/-- The calls that what is on its way to a node still brings about. -/
def due (network : Network) (node : Nat) : List Invocation :=
  (network.inbox node).flatMap (network.calledBy node)

theorem NodeReads.called_eq {called : List Invocation}
    (reads : network.NodeReads node called after) :
    called = ((network.inbox node).take 1).flatMap (network.calledBy node) := by
  cases reads with
  | idle nothing =>
    rw [inbox_eq_nil nothing]
    rfl
  | takes linked used at_ down encoded =>
    rw [inbox_eq used at_, down]
    simp [calledBy, carried?_deliver encoded, hasListener, linked]

theorem NodeReads.eq_of_nil {called : List Invocation}
    (reads : network.NodeReads node called after) (nothing : network.inbox node = []) :
    called = [] ∧ after = network := by
  cases reads with
  | idle => exact ⟨rfl, rfl⟩
  | takes linked used at_ down =>
    rw [inbox_eq used at_, down] at nothing
    contradiction

theorem node_of_mem_calledBy {bytes : Bytes} {called : Invocation}
    (h : called ∈ network.calledBy node bytes) : called.node = node := by
  simp only [calledBy] at h
  split at h
  · split at h
    · rw [List.mem_singleton.1 h]
    · contradiction
  · contradiction

theorem filter_calls (network : Network) (node q : Nat) (down : List Bytes) :
    (down.flatMap (network.calledBy node)).filter (·.node = q) =
      if q = node then down.flatMap (network.calledBy node) else [] := by
  split
  next same =>
    apply List.filter_eq_self.2
    intro called member
    obtain ⟨bytes, -, among⟩ := List.mem_flatMap.1 member
    simp [same, node_of_mem_calledBy among]
  next differs =>
    apply List.filter_eq_nil_iff.2
    intro called member
    obtain ⟨bytes, -, among⟩ := List.mem_flatMap.1 member
    simpa [node_of_mem_calledBy among] using Ne.symm differs

/-- A turn of a node makes calls that were due. -/
theorem NodeReads.due {called : List Invocation} (reads : network.NodeReads node called after)
    (q : Nat) : called.filter (·.node = q) ++ after.due q = network.due q := by
  have same : after.calledBy q = network.calledBy q := by
    unfold calledBy hasListener
    rw [reads.links]
  simp only [Network.due]
  rw [reads.called_eq, filter_calls, reads.inbox, same]
  by_cases here : q = node
  · rw [if_pos here, if_pos here, ← here, ← List.flatMap_append, ← List.drop_one,
      List.take_append_drop]
  · rw [if_neg here, if_neg here, List.nil_append]

section Publishing

variable {c : ConnectionId} {topic : Topic} {payload bytes : Bytes}

theorem Sound.publish_of_none (h : network.Sound) (at_ : network.links[node]? = some link)
    (used : network.wireOf? node = none) :
    network.withLink node (link.publish topic payload) = network := by
  have queue : link.queue = none := by
    rw [h.flushed node link at_, used]
    rfl
  have same : link.publish topic payload = link := by
    obtain ⟨nodeId, listeners, frames⟩ := link
    obtain rfl : frames = none := queue
    rfl
  rw [h.withLink_of_none at_ used (link.use_publish topic payload), same,
    set_eq_self at_]

theorem Sound.publish_of_some (h : network.Sound) (at_ : network.links[node]? = some link)
    (used : network.wireOf? node = some c)
    (encoded : (Request.publish topic payload (Bytes.ofText link.nodeId)).frame.encode =
      .ok bytes) :
    network.withLink node (link.publish topic payload) =
      network.modifyWire c fun wire => { wire with up := wire.up ++ [bytes] } := by
  have queue : link.queue = some [] := by
    rw [h.flushed node link at_, used]
    rfl
  have same : { link.publish topic payload with queue := some [] } = link := by
    obtain ⟨nodeId, listeners, frames⟩ := link
    obtain rfl : frames = some [] := queue
    rfl
  rw [h.withLink_of_some at_ used (link.use_publish topic payload), same,
    set_eq_self at_, Request.sent_cons_of_ok encoded, Request.sent_nil]
  rfl

/-- In a settled network the hub lists a connection under the topics that have a listener. -/
theorem Settled.listed_iff (h : network.Settled) (used : network.wireOf? node = some c)
    (topic : Topic) :
    c ∈ network.hub.subscribers.on topic.nameBytes ↔ network.hasListener node topic = true := by
  obtain ⟨wire, at_, live, rfl⟩ := users_eq_some.1 (users_of_wireOf? used)
  obtain ⟨link, linked⟩ := h.sound.linked used
  have agrees := h.sound.agrees c wire link at_ live linked
  rw [(h.quiet.1 c wire at_).1, requested_nil] at agrees
  rw [hasListener_eq linked, ← Link.mem_wanted, ← agrees]
  rfl

/-- When the hub turns to a connection with a publish on it, everyone who is listed under the topic
gets the payload. -/
theorem HubReads.inbox_of_publish (reads : network.HubReads c after) {rest : List Bytes}
    (up : network.outbox c = bytes :: rest)
    (carries : carried? .publish bytes = some (topic, payload)) :
    ∃ forwarded, carried? .deliver forwarded = some (topic, payload) ∧
      ∀ node, after.inbox node = network.inbox node ++
        match network.wireOf? node with
        | some d => if d ∈ network.hub.subscribers.on topic.nameBytes then [forwarded] else []
        | none => [] := by
  cases reads with
  | idle nothing =>
    rw [outbox_of_done nothing] at up
    contradiction
  | closes at_ serves gone done =>
    rw [outbox_eq at_, done] at up
    contradiction
  | lists at_ serves up' encoded listing =>
    rw [outbox_eq at_, up'] at up
    rw [← List.head_eq_of_cons_eq up, carried?_of_isListing encoded listing] at carries
    contradiction
  | @forwards wire topic' payload' origin bytes' forwarded rest' at_ serves up' encoded encoded' =>
    rw [outbox_eq at_, up'] at up
    rw [← List.head_eq_of_cons_eq up, carried?_publish encoded] at carries
    obtain ⟨rfl, rfl⟩ := Prod.mk.inj (Option.some.inj carries)
    exact ⟨forwarded, carried?_deliver encoded', inbox_forwards⟩

/-- A network in which a single request of a connected node is all that is on its way. -/
structure Sole (network : Network) (node : Nat) (c : ConnectionId) (bytes : Bytes) : Prop where
  sound : network.Sound
  used : network.wireOf? node = some c
  up : network.outbox c = [bytes]
  rest : ∀ d, d ≠ c → network.Done d
  inbox : ∀ q, network.inbox q = []

/-- The hub is done with every connection once it has turned to the one with the request. -/
theorem Sole.done (h : network.Sole node c bytes) (d : ConnectionId) :
    (network.hubReads c).Done d := by
  have reads := h.sound.hubReads c
  by_cases same : d = c
  · subst same
    intro wire at_
    have users : (network.hubReads d).users[d]? = some (some node) := by
      rw [reads.users]
      exact users_of_wireOf? h.used
    obtain ⟨wire', at', live, -⟩ := users_eq_some.1 users
    obtain rfl := Option.some.inj (at_.symm.trans at')
    refine ⟨?_, .inl live⟩
    rw [← outbox_eq at_, reads.outbox, if_pos rfl, h.up, List.tail_cons]
  · exact reads.done_of_done (h.rest d same)

/-- In whatever order a single request is handled, the calls are those that are due once the hub has
handled it. -/
theorem Sole.called (h : network.Sole node c bytes) {turns : List Step}
    (only : ∀ turn ∈ turns, turn.isTurn = true) (quiet : (network.run turns).2.Quiet) (q : Nat) :
    (network.run turns).1.filter (·.node = q) = (network.hubReads c).due q := by
  -- Until the hub turns to the connection nothing changes; afterwards only nodes make calls.
  have either := h.sound.turns_induction
    (p := fun called next => (called = [] ∧ next = network) ∨
      (∀ d, next.Done d) ∧
        ∀ q, called.filter (·.node = q) ++ next.due q = (network.hubReads c).due q)
    [] (.inl ⟨rfl, rfl⟩) ?_ ?_ only
  · rcases either with ⟨-, same⟩ | ⟨-, made⟩
    · have nothing := outbox_of_done (quiet.1 c)
      rw [same, h.up] at nothing
      contradiction
    · have none_ : (network.run turns).2.due q = [] := by
        rw [due, quiet.inbox]
        rfl
      rw [← made q, none_, List.append_nil]
      rfl
  · rintro called next d sound (⟨rfl, rfl⟩ | ⟨done, made⟩)
    · by_cases same : d = c
      · subst same
        exact .inr ⟨h.done, fun _ => rfl⟩
      · exact .inl ⟨rfl, (sound.hubReads d).eq_of_done (h.rest d same)⟩
    · rw [(sound.hubReads d).eq_of_done (done d)]
      exact .inr ⟨done, made⟩
  · rintro called next n sound (⟨rfl, rfl⟩ | ⟨done, made⟩)
    · exact .inl ((sound.nodeReads n).eq_of_nil (h.inbox n))
    · refine .inr ⟨fun d => (sound.nodeReads n).done_of_done (done d), fun q => ?_⟩
      rw [List.filter_append, List.append_assoc, (sound.nodeReads n).due, made]

theorem Settled.sole (h : network.Settled) (at_ : network.links[node]? = some link)
    (used : network.wireOf? node = some c)
    (encoded : (Request.publish topic payload (Bytes.ofText link.nodeId)).frame.encode =
      .ok bytes) :
    (network.withLink node (link.publish topic payload)).Sole node c bytes := by
  have sound := h.sound.withLink at_ (link.use_publish topic payload)
  rw [h.sound.publish_of_some at_ used encoded] at sound ⊢
  obtain ⟨wire, at', -, -⟩ := users_eq_some.1 (users_of_wireOf? used)
  have users : (network.modifyWire c fun wire => { wire with up := wire.up ++ [bytes] }).users =
      network.users := users_modify c fun _ => rfl
  refine ⟨sound, (wireOf?_congr users node).trans used, ?_, ?_, ?_⟩
  · rw [outbox_modify _ at' rfl, if_pos rfl, (h.quiet.1 c wire at').1]
    rfl
  · intro d differs other found
    simp only [modifyWire] at found
    rw [List.getElem?_modify_ne _ _ (Ne.symm differs)] at found
    exact h.quiet.1 d other found
  · intro p
    exact (inbox_congr users (down_modify c fun _ => rfl) p).trans (h.quiet.inbox p)

/-- A payload that is published in a settled network calls the listeners for its topic in all
connected nodes. -/
theorem Settled.publish_due (h : network.Settled) (at_ : network.links[node]? = some link)
    (used : network.wireOf? node = some c)
    (encoded : (Request.publish topic payload (Bytes.ofText link.nodeId)).frame.encode =
      .ok bytes) (q : Nat) :
    ((network.withLink node (link.publish topic payload)).hubReads c).due q =
      if (network.wireOf? q).isSome && network.hasListener q topic then
        [{ node := q, topic, payload }]
      else [] := by
  have sole := h.sole at_ used encoded
  have same := h.sound.publish_of_some at_ used encoded
  generalize network.withLink node (link.publish topic payload) = sent at sole same ⊢
  have users : sent.users = network.users := by
    subst same
    exact users_modify c fun _ => rfl
  have hub : sent.hub = network.hub := by
    subst same
    rfl
  have reads := sole.sound.hubReads c
  have links : (sent.hubReads c).links = network.links := by
    rw [reads.links]
    subst same
    rfl
  obtain ⟨forwarded, carries, arrives⟩ :=
    reads.inbox_of_publish sole.up (carried?_publish encoded)
  rw [due, arrives, sole.inbox, List.nil_append, wireOf?_congr users, hub]
  cases reached : network.wireOf? q with
  | none => rfl
  | some d =>
    have listed := h.listed_iff reached topic
    have calls : (sent.hubReads c).calledBy q forwarded =
        if network.hasListener q topic then [{ node := q, topic, payload }] else [] := by
      unfold calledBy hasListener
      rw [carries, links]
    cases listens : network.hasListener q topic with
    | true => simp [listed.2 listens, calls, listens]
    | false =>
      have unlisted : d ∉ network.hub.subscribers.on topic.nameBytes := by
        rw [listed, listens]
        exact Bool.false_ne_true
      simp [unlisted]

end Publishing

/-- In a settled network a use calls whom it has to call. -/
theorem Settled.calls (h : network.Settled) {use : Use} (fits : use.Fits network.ids)
    {turns : List Step} (only : ∀ turn ∈ turns, turn.isTurn = true)
    (quiet : ((network.step (stepOf use)).2.run turns).2.Quiet) (q : Nat) :
    (((network.step (stepOf use)).2.run turns).1.filter (·.node = q)).map
        (fun called => (called.topic, called.payload)) =
      (network.board.seenBy q use).2 := by
  have quietly : (∀ p topic payload, stepOf use ≠ .publish p topic payload) →
      ((network.step (stepOf use)).2.run turns).1 = [] := by
    intro other
    have still := (h.sound.flows (stepOf use)).still h.quiet.still other
    exact (h.sound.step (stepOf use)).called_of_still still.1 only
  cases use with
  | publish p topic payload =>
    simp only [stepOf, Network.step, atNode] at quiet ⊢
    cases at_ : network.links[p]? with
    | none =>
      have absent := h.sound.wireOf?_of_none at_
      dsimp only
      rw [h.sound.called_of_still h.quiet.still only]
      simp [Board.seenBy, board, absent]
    | some link =>
      rw [at_] at quiet
      dsimp only at quiet ⊢
      cases used : network.wireOf? p with
      | none =>
        rw [h.sound.publish_of_none at_ used, h.sound.called_of_still h.quiet.still only]
        simp [Board.seenBy, board, used]
      | some c =>
        have id : network.ids[p]? = some link.nodeId := by
          rw [ids, List.getElem?_map, at_]
          rfl
        obtain ⟨bytes, encoded⟩ := Frame.encode_of_size_le (fits link.nodeId id)
        rw [(h.sole at_ used encoded).called only quiet, h.publish_due at_ used encoded]
        simp only [Board.seenBy, board, used, Option.isSome_some, Bool.true_and]
        split <;> rfl
  | _ =>
    rw [quietly (by simp [stepOf])]
    rfl

/-- A settled network does with each use what brokers have to do. -/
theorem Settled.uses (h : network.Settled) {use : Use} (fits : use.Fits network.ids)
    {outcome : Outcome} (uses : network.Uses use outcome after) :
    after.Settled ∧ after.ids = network.ids ∧ after.board = network.board.use use ∧
      ∀ q, outcome.seenBy q = network.board.seenBy q use := by
  obtain ⟨only, quiet⟩ := uses
  have sound := h.sound.step (stepOf use)
  refine ⟨⟨sound.run _, quiet⟩, ?_, ?_, fun q => ?_⟩
  · exact (ids_congr (sound.links_of_turns only)).trans (ids_step network use)
  · exact (sound.board_of_turns only).trans (h.sound.board_step use)
  · have none_ : (network.step (stepOf use)).1 = [] := by
      cases use <;> rfl
    apply Prod.ext (answer_eq network use q)
    rw [Outcome.seenBy, none_, List.nil_append]
    exact h.calls fits only quiet q

/-- A settled network does with all uses what brokers have to do. -/
theorem Settled.usesAll (h : network.Settled) {uses : List Use}
    (fits : ∀ use ∈ uses, use.Fits network.ids) {outcomes : List Outcome}
    (run : network.UsesAll uses outcomes after) :
    after.board = uses.foldl Board.use network.board ∧
      ∀ q, outcomes.map (Outcome.seenBy q) = network.board.allSeenBy q uses := by
  induction run with
  | nil => exact ⟨rfl, fun _ => rfl⟩
  | cons first rest ih =>
    obtain ⟨settled, ids, board, seen⟩ := h.uses (fits _ List.mem_cons_self) first
    rw [← ids] at fits
    obtain ⟨board', seen'⟩ := ih settled fun use member => fits use (List.mem_cons_of_mem _ member)
    rw [board] at board' seen'
    refine ⟨board', fun q => ?_⟩
    rw [List.map_cons, Board.allSeenBy, seen, seen']

/-- Whatever the uses are, everything that they put on its way can be handled. -/
theorem Sound.exists_usesAll (h : network.Sound) (uses : List Use) :
    ∃ outcomes after, network.UsesAll uses outcomes after := by
  induction uses generalizing network with
  | nil => exact ⟨[], network, .nil⟩
  | cons use uses ih =>
    have sound := h.step (stepOf use)
    have quiet := sound.settle_quiet
    rw [settle_eq] at quiet
    obtain ⟨outcomes, after, rest⟩ := ih (sound.run _)
    exact ⟨_, after, .cons (.settles (isTurn_of_mem_settle _) quiet) rest⟩

end Fanout.Network
