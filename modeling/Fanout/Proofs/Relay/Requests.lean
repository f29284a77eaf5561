import Fanout.Link
import Fanout.Proofs.Relay.Subscribers
import Mathlib.Data.Set.Insert

/-!
# What nodes ask of the hub

A node sends the hub three kinds of frames. Two of them change which topics the hub lists the
connection under, the third publishes. Frames that wait on a connection are read as the changes they
will bring about (`requested`); what a link sends when it is used brings the hub from the topics
that had a listener before to those that have one afterwards (`Link.Use`).
-/

namespace Fanout

/-- What a node asks of the hub. -/
inductive Request
  | subscribe (topic : Topic)
  | unsubscribe (topic : Topic)
  | publish (topic : Topic) (payload origin : Bytes)
  deriving DecidableEq, Repr

namespace Frame

/-- What becomes of the topics that a connection is listed under when the hub handles a frame from
it. -/
def applied (frame : Frame) (topics : Set Bytes) : Set Bytes :=
  match frame.event, frame.topic with
  | .subscribe, some topic => insert topic topics
  | .unsubscribe, some topic => topics \ {topic}
  | _, _ => topics

theorem encode_of_size_le {frame : Frame} (h : frame.size ≤ limit) :
    ∃ bytes, frame.encode = .ok bytes := by
  rw [encode, if_neg (Nat.not_lt.2 h)]
  exact ⟨_, rfl⟩

theorem size_subscribe (topic : Bytes) : (subscribe topic).size = 10 + topic.length := by
  simp [size, fields, Field.all, subscribe, get?, fieldsSize, headerSize]
  omega

theorem size_unsubscribe (topic : Bytes) : (unsubscribe topic).size = 10 + topic.length := by
  simp [size, fields, Field.all, unsubscribe, get?, fieldsSize, headerSize]
  omega

/-- What is forwarded is as long as what was published. -/
theorem size_deliver (topic payload origin : Bytes) :
    (deliver topic payload (some origin)).size = (publish topic payload origin).size := rfl

end Frame

/-- The topics that a hub lists a connection under. -/
def Hub.topicsOf (hub : Hub) (c : ConnectionId) : Set Bytes :=
  { topic | c ∈ hub.subscribers.on topic }

theorem Topic.nameBytes_inj {first second : Topic} :
    first.nameBytes = second.nameBytes ↔ first = second :=
  ⟨Topic.nameBytes_injective, congrArg Topic.nameBytes⟩

theorem Topic.length_nameBytes_le (topic : Topic) : topic.nameBytes.length ≤ 20 := by
  cases topic <;> decide

namespace Request

def frame : Request → Frame
  | subscribe topic => .subscribe topic.nameBytes
  | unsubscribe topic => .unsubscribe topic.nameBytes
  | publish topic payload origin => .publish topic.nameBytes payload origin

/-- Whether a request changes what the hub lists. -/
def isListing : Request → Bool
  | publish .. => false
  | _ => true

theorem encode_of_isListing {request : Request} (h : request.isListing = true) :
    ∃ bytes, request.frame.encode = .ok bytes := by
  apply Frame.encode_of_size_le
  cases request with
  | subscribe topic =>
    have short := topic.length_nameBytes_le
    rw [frame, Frame.size_subscribe, Frame.limit]
    omega
  | unsubscribe topic =>
    have short := topic.length_nameBytes_le
    rw [frame, Frame.size_unsubscribe, Frame.limit]
    omega
  | publish => contradiction

theorem applied_of_not_isListing {request : Request} (h : request.isListing = false)
    (topics : Set Bytes) : request.frame.applied topics = topics := by
  cases request with
  | publish => rfl
  | _ => contradiction

/-- The requests that can be sent, as bytes. -/
def sent (requests : List Request) : List Bytes :=
  (Link.encodeEach (requests.map frame)).1

@[simp] theorem sent_nil : sent [] = [] := rfl

theorem sent_cons_of_ok {request : Request} {bytes : Bytes} (h : request.frame.encode = .ok bytes)
    (requests : List Request) : sent (request :: requests) = bytes :: sent requests := by
  simp only [sent, List.map_cons, Link.encodeEach, h]

theorem sent_cons_of_error {request : Request} {fault : Fault}
    (h : request.frame.encode = .error fault) (requests : List Request) :
    sent (request :: requests) = sent requests := by
  simp only [sent, List.map_cons, Link.encodeEach, h]

theorem exists_of_mem_sent {requests : List Request} {bytes : Bytes} (h : bytes ∈ sent requests) :
    ∃ request ∈ requests, request.frame.encode = .ok bytes := by
  induction requests with
  | nil => contradiction
  | cons request requests ih =>
    have later : bytes ∈ sent requests →
        ∃ other ∈ request :: requests, other.frame.encode = .ok bytes := by
      intro member
      obtain ⟨other, among, encoded⟩ := ih member
      exact ⟨other, List.mem_cons_of_mem request among, encoded⟩
    cases encoded : request.frame.encode with
    | error fault => exact later (sent_cons_of_error encoded requests ▸ h)
    | ok first =>
      rw [sent_cons_of_ok encoded] at h
      rcases List.mem_cons.1 h with rfl | member
      · exact ⟨request, List.mem_cons_self, encoded⟩
      · exact later member

end Request

/-- What becomes of the topics that a connection is listed under when the hub handles, in order,
what is on its way to it. -/
def requested (up : List Bytes) (topics : Set Bytes) : Set Bytes :=
  up.foldl
    (fun topics bytes =>
      match Frame.parse bytes with
      | .ok frame => frame.applied topics
      | .error _ => topics)
    topics

@[simp] theorem requested_nil (topics : Set Bytes) : requested [] topics = topics := rfl

theorem requested_append (first second : List Bytes) (topics : Set Bytes) :
    requested (first ++ second) topics = requested second (requested first topics) :=
  List.foldl_append

theorem requested_cons {frame : Frame} {bytes : Bytes} (h : frame.encode = .ok bytes)
    (up : List Bytes) (topics : Set Bytes) :
    requested (bytes :: up) topics = requested up (frame.applied topics) := by
  simp only [requested]
  rw [List.foldl_cons, Frame.parse_encode h]

/-- A request that cannot be sent would not have changed what the hub lists. -/
theorem requested_sent (requests : List Request) (topics : Set Bytes) :
    requested (Request.sent requests) topics =
      requests.foldl (fun topics request => request.frame.applied topics) topics := by
  induction requests generalizing topics with
  | nil => rfl
  | cons request requests ih =>
    rw [List.foldl_cons, ← ih]
    cases encoded : request.frame.encode with
    | ok bytes => rw [Request.sent_cons_of_ok encoded, requested_cons encoded]
    | error fault =>
      have other : request.isListing = false := by
        apply Bool.eq_false_iff.2
        intro listing
        obtain ⟨bytes, ok⟩ := Request.encode_of_isListing listing
        rw [encoded] at ok
        contradiction
      rw [Request.sent_cons_of_error encoded, Request.applied_of_not_isListing other]

namespace Link

variable {link : Link Topic}

/-- The names of the topics that have a listener. -/
def wanted (link : Link Topic) : Set Bytes :=
  { name | ∃ topic, link.listeners.contains topic = true ∧ topic.nameBytes = name }

theorem mem_wanted {topic : Topic} :
    topic.nameBytes ∈ link.wanted ↔ link.listeners.contains topic = true := by
  constructor
  · rintro ⟨other, listed, same⟩
    rwa [← Topic.nameBytes_injective same]
  · exact fun listed => ⟨topic, listed, rfl⟩

/-- Topics that are all named by topics are the same if they name the same topics. -/
theorem wanted_eq {topics : Set Bytes} (named : ∀ name ∈ topics, ∃ topic : Topic,
      topic.nameBytes = name)
    (same : ∀ topic : Topic, topic.nameBytes ∈ topics ↔ link.listeners.contains topic = true) :
    topics = link.wanted := by
  ext name
  constructor
  · intro member
    obtain ⟨topic, rfl⟩ := named name member
    exact mem_wanted.2 ((same topic).1 member)
  · rintro ⟨topic, listed, rfl⟩
    exact (same topic).2 listed

theorem named_of_mem_wanted {name : Bytes} (h : name ∈ link.wanted) :
    ∃ topic : Topic, topic.nameBytes = name := by
  obtain ⟨topic, -, same⟩ := h
  exact ⟨topic, same⟩

/-- Every listener is known by its topic. -/
def Own (link : Link Topic) : Prop :=
  ∀ topic listener, Table.get? link.listeners topic = some listener → listener = topic

/-- A use of a link: it queues requests that bring what the hub lists from the topics that had a
listener to those that have one now. -/
structure Use (link after : Link Topic) (requests : List Request) : Prop where
  queue : after.queue = link.queue.map (· ++ requests.map Request.frame)
  wanted : requests.foldl (fun topics request => request.frame.applied topics) link.wanted =
    after.wanted
  own : link.Own → after.Own

theorem Use.rfl (link : Link Topic) : Use link link [] where
  queue := by simp
  wanted := by simp
  own := id

theorem use_subscribe (link : Link Topic) (topic : Topic) :
    ∃ requests : List Request, (∀ request ∈ requests, request.isListing = true) ∧
      Use link (link.subscribe topic topic).2 requests := by
  simp only [Link.subscribe, Listeners.register]
  by_cases present : link.listeners.contains topic = true
  · rw [if_pos present]
    exact ⟨[], by simp, .rfl link⟩
  · rw [if_neg present]
    refine ⟨[.subscribe topic], by simp [Request.isListing], ?_, ?_, ?_⟩
    · simp [enqueue, Request.frame]
    · refine wanted_eq ?_ fun other => ?_
      · rintro name (rfl | member)
        · exact ⟨topic, rfl⟩
        · exact named_of_mem_wanted member
      · show other.nameBytes = topic.nameBytes ∨ other.nameBytes ∈ link.wanted ↔ _
        rw [mem_wanted, Topic.nameBytes_inj]
        simp only [enqueue, Listeners.contains, Table.has, Table.get?_set]
        by_cases same : topic = other
        · simp [same]
        · simp [same, Ne.symm same]
    · intro own other listener found
      simp only [enqueue, Table.get?_set] at found
      split at found
      next same => rw [← same, ← Option.some.inj found]
      next => exact own other listener found

theorem use_unsubscribe (link : Link Topic) (topic : Topic) :
    ∃ requests : List Request, (∀ request ∈ requests, request.isListing = true) ∧
      Use link (link.unsubscribe topic) requests := by
  simp only [Link.unsubscribe, Listeners.unregister]
  cases present : link.listeners.contains topic with
  | false => exact ⟨[], by simp, .rfl link⟩
  | true =>
    refine ⟨[.unsubscribe topic], by simp [Request.isListing], ?_, ?_, ?_⟩
    · simp [enqueue, Request.frame]
    · refine wanted_eq ?_ fun other => ?_
      · exact fun name member => named_of_mem_wanted member.1
      · show other.nameBytes ∈ link.wanted ∧ ¬ other.nameBytes = topic.nameBytes ↔ _
        rw [mem_wanted, Topic.nameBytes_inj]
        simp only [enqueue, Listeners.contains, Table.has, Table.get?_erase]
        by_cases same : topic = other
        · simp [same]
        · simp [same, Ne.symm same]
    · intro own other listener found
      simp only [enqueue, Table.get?_erase] at found
      split at found
      · contradiction
      · exact own other listener found

theorem use_publish (link : Link Topic) (topic : Topic) (payload : Bytes) :
    Use link (link.publish topic payload)
      [.publish topic payload (Bytes.ofText link.nodeId)] where
  queue := rfl
  wanted := rfl
  own := id

/-- What a session starts with. -/
def greeting (link : Link Topic) : List Request :=
  link.listeners.topics.map .subscribe

theorem attach_queue (link : Link Topic) :
    link.attach.queue = some (link.greeting.map Request.frame) := by
  rw [greeting, List.map_map]
  rfl

theorem mem_foldl_subscribe (asked : List Topic) (topics : Set Bytes) (name : Bytes) :
    name ∈ (asked.map Request.subscribe).foldl
        (fun topics request => request.frame.applied topics) topics ↔
      name ∈ topics ∨ ∃ topic ∈ asked, topic.nameBytes = name := by
  induction asked generalizing topics with
  | nil => simp
  | cons first asked ih =>
    rw [List.map_cons, List.foldl_cons, ih]
    show (name = first.nameBytes ∨ name ∈ topics) ∨ _ ↔ _
    rw [List.exists_mem_cons_iff]
    tauto

/-- A session that starts asks for the topics that have a listener. -/
theorem foldl_greeting (link : Link Topic) :
    link.greeting.foldl (fun topics request => request.frame.applied topics) ∅ = link.wanted := by
  ext name
  rw [greeting, mem_foldl_subscribe]
  constructor
  · rintro (none_ | ⟨topic, asked, same⟩)
    · contradiction
    · exact ⟨topic, Listeners.mem_topics.1 asked, same⟩
  · rintro ⟨topic, listed, same⟩
    exact .inr ⟨topic, Listeners.mem_topics.2 listed, same⟩

end Link

end Fanout
