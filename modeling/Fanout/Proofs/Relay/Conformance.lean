import Fanout.Proofs.Hub.Sessions
import Fanout.Proofs.Relay.Calls

/-!
# Nodes and the hub speak one protocol

The hub understands every request that fits, and what it forwards is no larger than what was
published (`size_le_of_forwarded?`). Main statement: of what a node queues only publishes that are
too large are lost, and the hub handles everything else without complaint; what the hub forwards,
whoever published it, can be sent and is read back, so that no session of a node ends with an error
because of it (`nodes_and_hub_conform`).
-/

namespace Fanout

namespace Frame

variable {frame forwarded : Frame} {topic : Bytes}

/-- What is forwarded is no larger than what was published. -/
theorem size_le_of_forwarded? (h : frame.forwarded? = some (topic, forwarded)) :
    forwarded.size ≤ frame.size := by
  unfold forwarded? at h
  split at h
  next name payload _ named paid =>
    obtain ⟨-, rfl⟩ := Prod.mk.inj (Option.some.inj h)
    apply size_le_of_part
    rintro (_ | _) <;> simp [get?, named, paid]
  next => contradiction

theorem fits_of_forwarded? (fits : frame.fits = true)
    (h : frame.forwarded? = some (topic, forwarded)) : forwarded.fits = true :=
  decide_eq_true (Nat.le_trans (size_le_of_forwarded? h) (of_decide_eq_true fits))

/-- The frame is read back from its bytes, and every hub handles it, whoever sends it. -/
structure Understood (frame : Frame) : Prop where
  readBack : frame.ReadBack
  handled : ∀ (hub : Hub) (source : ConnectionId), ∃ after, hub.handle source frame = .ok after

/-- The frame is a publish above the limit, and is refused as such when it is to be written. -/
structure Oversized (frame : Frame) : Prop where
  event : frame.event = .publish
  large : limit < frame.size
  refused : frame.encode = .error (.oversizedFrame frame.size limit)

end Frame

namespace Request

theorem refusal?_frame (request : Request) : request.frame.refusal? = none := by
  cases request <;> rfl

/-- A request is understood unless it is a publish that is too large. -/
theorem oversized_or_understood (request : Request) :
    request.frame.Oversized ∨ request.frame.Understood := by
  cases fits : request.frame.fits with
  | true =>
    refine .inr ⟨Frame.readBack_of_fits fits, fun hub source => ?_⟩
    exact ⟨_, Hub.handle_of_accepted request.refusal?_frame hub source⟩
  | false =>
    refine .inl ⟨?_, Nat.not_le.1 (of_decide_eq_false fits), Frame.encode_of_not_fits fits⟩
    cases listing : request.isListing with
    | true =>
      obtain ⟨bytes, encoded⟩ := encode_of_isListing listing
      rw [Frame.fits_of_encode encoded] at fits
      contradiction
    | false =>
      cases request with
      | publish => rfl
      | _ => contradiction

end Request

namespace Hub

theorem fits_of_mem_forwards {hub : Hub} {frame : Frame} (fits : frame.fits = true)
    {delivery : Delivery} (h : delivery ∈ hub.forwards frame) : delivery.frame.fits = true := by
  unfold forwards at h
  split at h
  next forwards =>
    obtain ⟨c, -, rfl⟩ := List.mem_map.1 h
    exact Frame.fits_of_forwarded? fits forwards
  next => contradiction

end Hub

namespace Server

/-- What the hub forwards fits, whatever has arrived on its connections. -/
theorem fits_of_mem_step {server : Server} {step : Step} {delivery : Delivery}
    (h : delivery ∈ (server.step step).1) (forwarded : delivery.frame.event = .deliver) :
    delivery.frame.fits = true := by
  cases step with
  | turn c =>
    rw [Server.step] at h
    cases found : Table.get? server.inboxes c with
    | none => simp [turn, found] at h
    | some inbox =>
      rw [turn_eq found] at h
      cases next : inbox.next with
      | frame frame rest =>
        rw [next] at h
        obtain ⟨n, reads, -⟩ := Inbox.reads_of_next next
        exact Hub.fits_of_mem_forwards (Frame.fits_of_reads reads) h
      | fault fault =>
        rw [next] at h
        obtain ⟨c, -, rfl⟩ := List.mem_map.1 h
        contradiction
      | closed | nothing => simp [next] at h
  | _ => contradiction

theorem fits_of_mem_run {steps : List Step} {delivery : Delivery}
    (h : delivery ∈ (run {} steps).1) (forwarded : delivery.frame.event = .deliver) :
    delivery.frame.fits = true := by
  induction steps using List.reverseRecOn with
  | nil => contradiction
  | append_singleton steps step ih =>
    rw [run_concat] at h
    rcases List.mem_append.1 h with before | now
    · exact ih before
    · exact fits_of_mem_step now forwarded

/-- The frames that the hub has forwarded to a connection in the course of a run, in order. -/
def delivered (c : ConnectionId) (steps : List Step) : List Frame :=
  (framesTo c (run {} steps).1).filter (·.event = .deliver)

theorem fits_of_mem_delivered {c : ConnectionId} {steps : List Step} {frame : Frame}
    (h : frame ∈ delivered c steps) : frame.fits = true := by
  obtain ⟨sent, forwarded⟩ := List.mem_filter.1 h
  obtain ⟨delivery, member, rfl⟩ := List.mem_map.1 sent
  exact fits_of_mem_run (List.mem_of_mem_filter member) (of_decide_eq_true forwarded)

end Server

namespace Link

variable {κ : Type}

namespace Talk

/-- The connection has not broken: it may stop anywhere as long as more may come, and if the node
has ended it then behind a whole frame. -/
def Unbroken (talk : Talk κ) (chunks : List Bytes) (ending : Option Ending) : Prop :=
  ending = none ∨ ending = some .closed ∧ ∃ n, chunks.flatten = (talk.written.take n).flatten

/-- What has arrived on a connection that has not broken can go on to whole frames. -/
theorem Unbroken.whole {talk : Talk κ} {chunks : List Bytes} {ending : Option Ending}
    (h : talk.Unbroken chunks ending) (arrived : chunks.flatten <+: talk.written.flatten) :
    ∃ more n, Frame.Continues ending more .closed ∧
      chunks.flatten ++ more = (talk.written.take n).flatten := by
  obtain rfl | ⟨rfl, n, all⟩ := h
  · obtain ⟨more, all⟩ := arrived
    have everything : talk.written.take talk.written.length = talk.written := List.take_length
    exact ⟨more, _, Frame.continues_none more .closed, by rw [all, everything]⟩
  · exact ⟨[], n, Frame.Continues.nothing (some .closed), by rw [List.append_nil, all]⟩

/-- The frames that a session has written, which are among those that were queued and fit. -/
theorem Sound.exists_frames {talk : Talk κ} (h : talk.Sound) :
    ∃ frames, frames <+: talk.queued.filter Frame.fits ∧
      frames.map Frame.encode = talk.written.map .ok ∧
      ∀ frame ∈ frames, frame.refusal? = none := by
  obtain ⟨taken, waiting, split, written, -⟩ := h.accounted
  have front : taken.filter Frame.fits <+: talk.queued.filter Frame.fits := by
    rw [split, List.filter_append]
    exact List.prefix_append _ _
  refine ⟨_, front, by rw [map_encode_fits, written], fun frame member => ?_⟩
  obtain ⟨request, rfl⟩ := h.asked frame (List.mem_of_mem_filter (front.subset member))
  exact request.refusal?_frame

variable {talk : Talk κ} {c : ConnectionId} {chunks : List Bytes} {ending : Option Ending}
  {steps : List Server.Step}

/-- The hub handles in order what a node has written, and has nothing to complain about but that the
connection has broken. -/
theorem Sound.served (h : talk.Sound) (session : Server.Session c chunks ending steps)
    (arrived : chunks.flatten <+: talk.written.flatten) :
    Server.handled c steps <+: talk.queued.filter Frame.fits ∧
      ∀ report ∈ Server.reports c steps, ∃ fault : Fault,
        report = .report fault.code fault.message ∧
          ∃ reason, fault = .headerUnread reason ∨ fault = .bodyUnread reason := by
  obtain ⟨frames, front, written, accepted⟩ := h.exists_frames
  obtain ⟨handled, unfaulted⟩ := Course.of_front written accepted arrived (ending.getD .closed)
  have handled := handled.trans front
  obtain ⟨running, ended⟩ := (Server.life_run session).course (Frame.Continues.nothing ending)
  rw [List.append_nil] at running ended
  by_cases closed : ((Server.run {} steps).2.standing c).inbox = none
  · obtain ⟨all, told⟩ | ⟨-, some_, none_⟩ := ended closed
    · refine ⟨all ▸ handled, fun report member => ?_⟩
      rw [told] at member
      obtain ⟨fault, faulted, rfl⟩ := List.mem_map.1 member
      exact ⟨fault, rfl, unfaulted fault (Option.mem_toList.1 faulted)⟩
    · exact ⟨some_.trans handled, by simp [none_]⟩
  · obtain ⟨some_, none_⟩ := running closed
    exact ⟨some_.trans handled, by simp [none_]⟩

/-- As long as the connection of a node has not broken the hub reports no fault to it. -/
theorem Sound.unreported (h : talk.Sound) (session : Server.Session c chunks ending steps)
    (arrived : chunks.flatten <+: talk.written.flatten) (unbroken : talk.Unbroken chunks ending) :
    Server.reports c steps = [] := by
  obtain ⟨more, n, continues, whole⟩ := unbroken.whole arrived
  obtain ⟨frames, -, written, accepted⟩ := h.exists_frames
  have encoded : (frames.take n).map Frame.encode = (talk.written.take n).map .ok := by
    rw [List.map_take, List.map_take, written]
  obtain ⟨rest, all⟩ := Frame.readAll_encodings { chunks := [(talk.written.take n).flatten] }
    encoded (by simp [ByteStream.bytes]) rfl
  have course : Course.of (chunks.flatten ++ more) .closed =
      { handled := frames.take n, fault := none } := by
    rw [whole, Course.of, Course.ofStream, all]
    exact Course.ofFrames_of_accepted fun frame member =>
      accepted frame (List.mem_of_mem_take member)
  obtain ⟨running, ended⟩ := (Server.life_run session).course continues
  by_cases closed : ((Server.run {} steps).2.standing c).inbox = none
  · obtain ⟨-, told⟩ | ⟨-, -, none_⟩ := ended closed
    · rw [told, course]
      rfl
    · exact none_
  · exact (running closed).2

end Talk

/-- A link that is sent frames that fit receives them all and sees a clean end. -/
theorem receive_encodings (link : Link κ) {frames : List Frame}
    (fit : ∀ frame ∈ frames, frame.fits = true) {chunks : List Bytes}
    (whole : chunks.flatten = (encodeEach frames).1.flatten) :
    link.receive { chunks } = (frames.filterMap link.respond, .ended) := by
  have written := map_encode_fits frames
  rw [List.filter_eq_self.2 fit] at written
  obtain ⟨rest, all⟩ := Frame.readAll_encodings { chunks } written whole rfl
  rw [receive, all]

theorem encodeEach_snd_of_fits {frames : List Frame} (fit : ∀ frame ∈ frames, frame.fits = true) :
    (encodeEach frames).2 = [] := by
  induction frames with
  | nil => rfl
  | cons frame frames ih =>
    obtain ⟨first, others⟩ := List.forall_mem_cons.1 fit
    simp only [encodeEach, Frame.encode_of_fits frame (of_decide_eq_true first), ih others]

end Link

/-- What a node and the hub can rely on when the node has used its link. -/
structure Conformance {κ : Type} (nodeId : String) (calls : List (Link.Call κ)) : Prop where
  /-- A publish is queued as it was asked for if there is a connection. -/
  published : ∀ (topic : Topic) (payload : Bytes),
    (Link.Talk.run nodeId calls).link.isConnected = true →
      (Link.Talk.run nodeId (calls ++ [.publish topic payload])).queued =
        (Link.Talk.run nodeId calls).queued ++
          [.publish topic.nameBytes payload (Bytes.ofText nodeId)]
  /-- Each frame that was queued in the session is a publish that is too large, or is read back and
  handled by every hub. -/
  queued : ∀ frame ∈ (Link.Talk.run nodeId calls).queued, frame.Oversized ∨ frame.Understood
  /-- Those that were taken from the queue were written if they fit, in order, whatever was dropped
  between them, and are read back in whatever chunks they arrive. -/
  written : ∃ taken waiting, (Link.Talk.run nodeId calls).queued = taken ++ waiting ∧
    (∀ rest ∈ (Link.Talk.run nodeId calls).link.queue, rest = waiting) ∧
    (taken.filter Frame.fits).map Frame.encode = (Link.Talk.run nodeId calls).written.map .ok ∧
    ∀ chunks : List Bytes, chunks.flatten = (Link.Talk.run nodeId calls).written.flatten →
      ∃ rest, Frame.readAll { chunks } = (taken.filter Frame.fits, .ended, rest)
  /-- A hub that serves the node among others handles what was written, in order, and reports no
  fault to the node, or at most, once its connection has broken, that it has. -/
  served : ∀ (steps : List Server.Step) (c : ConnectionId) (chunks : List Bytes)
    (ending : Option Ending), Server.Session c chunks ending steps →
    chunks.flatten <+: (Link.Talk.run nodeId calls).written.flatten →
      Server.handled c steps <+: (Link.Talk.run nodeId calls).queued.filter Frame.fits ∧
      ((Link.Talk.run nodeId calls).Unbroken chunks ending → Server.reports c steps = []) ∧
      ∀ report ∈ Server.reports c steps, ∃ fault : Fault,
        report = .report fault.code fault.message ∧
          ∃ reason, fault = .headerUnread reason ∨ fault = .bodyUnread reason
  /-- Whatever a peer sends, what a hub forwards for it can be written and is read back. -/
  forwarded : ∀ input : ByteStream, ∀ frame ∈ (Frame.readAll input).1,
    ∀ (hub : Hub) (source : ConnectionId) (after : Hub) (sent : List Delivery),
      hub.handle source frame = .ok (after, sent) →
        ∀ delivery ∈ sent, delivery.frame.event = .deliver ∧ delivery.frame.ReadBack
  /-- Whatever happens at a hub, nothing that it has forwarded to a connection is dropped, and none
  of it ends the session of the node that receives it with an error. -/
  received : ∀ (steps : List Server.Step) (c : ConnectionId),
    (Link.encodeEach (Server.delivered c steps)).2 = [] ∧
      ∀ (link : Link κ) (chunks : List Bytes),
        chunks.flatten = (Link.encodeEach (Server.delivered c steps)).1.flatten →
          link.receive { chunks } =
            ((Server.delivered c steps).filterMap link.respond, .ended)

/-- However a node uses its link, it and the hub understand each other. -/
theorem nodes_and_hub_conform {κ : Type} (nodeId : String) (calls : List (Link.Call κ)) :
    Conformance nodeId calls := by
  have sound := Link.Talk.sound_run nodeId calls
  exact {
    published := fun topic payload connected => Link.Talk.queued_publish connected topic payload
    queued := fun frame member => by
      obtain ⟨request, rfl⟩ := sound.asked frame member
      exact request.oversized_or_understood
    written := by
      obtain ⟨taken, waiting, split, written, now⟩ := sound.accounted
      have encoded : (taken.filter Frame.fits).map Frame.encode =
          (Link.Talk.run nodeId calls).written.map .ok := by
        rw [Link.map_encode_fits, written]
      exact ⟨taken, waiting, split, now, encoded, fun chunks whole =>
        Frame.readAll_encodings { chunks } encoded whole rfl⟩
    served := fun steps c chunks ending session arrived => by
      obtain ⟨handled, broken⟩ := sound.served session arrived
      exact ⟨handled, sound.unreported session arrived, broken⟩
    forwarded := fun input frame member hub source after sent handled delivery among => by
      rw [Hub.handle_eq] at handled
      split at handled
      · contradiction
      · obtain ⟨-, rfl⟩ := Prod.mk.inj (Except.ok.inj handled)
        have fits := Hub.fits_of_mem_forwards (Frame.fits_of_mem_readAll member) among
        exact ⟨Hub.event_of_mem_forwards among, Frame.readBack_of_fits fits⟩
    received := fun steps c => by
      have fit : ∀ frame ∈ Server.delivered c steps, frame.fits = true := fun frame =>
        Server.fits_of_mem_delivered
      exact ⟨Link.encodeEach_snd_of_fits fit, fun link chunks => link.receive_encodings fit⟩ }

/-- A node follows a topic, connects, and publishes on the topic. -/
def chatter : List (Link.Call Unit) :=
  [.subscribe .chats (), .attach, .publish .chats [42], .flush]

/-- What it has written arrives at a hub, which reads it frame by frame. -/
def hosting : List Server.Step :=
  [.connect 0, .arrive 0 (Link.Talk.run "node" chatter).written.flatten, .turn 0, .turn 0]

theorem nodes_and_hub_conform_chatter :
    Server.reports 0 hosting = [] ∧
      (Link.Talk.run "node" chatter).link.receive
          { chunks := (Link.encodeEach (Server.delivered 0 hosting)).1 } =
        ([.called () [42]], .ended) := by
  have conforms := nodes_and_hub_conform "node" chatter
  have delivered : Server.delivered 0 hosting =
      [.deliver Topic.chats.nameBytes [42] (some (Bytes.ofText "node"))] := by
    decide +kernel
  constructor
  · have served := conforms.served hosting 0 [(Link.Talk.run "node" chatter).written.flatten] none
      rfl (by simp)
    exact served.2.1 (.inl rfl)
  · refine ((conforms.received hosting 0).2 _ _ rfl).trans ?_
    rw [delivered]
    decide +kernel

end Fanout
