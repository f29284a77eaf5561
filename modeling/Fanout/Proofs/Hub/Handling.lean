import Fanout.Hub.Step
import Mathlib.Data.List.Induction

/-!
# What the hub makes of a frame

Whether the hub refuses a frame depends on the frame alone (`Frame.refusal?`), and so does what it
forwards (`Frame.forwarded?`). Of the hub's state a frame changes at most who is listed, by one
operation (`Frame.operation?`). Main statements: these three tell how a frame is handled
(`handle_eq`), and what a step of the hub does to its table and sends (`subscribers_step`,
`sent_step`).
-/

namespace Fanout

namespace Frame

/-- Why the hub refuses a frame, if it does: only the hub may send frames of its kind, or it lacks a
field that its kind needs. -/
def refusal? (frame : Frame) : Option Fault :=
  match frame.event with
  | .deliver => some .hubOnlyFrame
  | .error | .ok => none
  | .subscribe | .unsubscribe =>
    if frame.topic.isNone then some (.missingField frame.event .topic) else none
  | .publish =>
    if frame.topic.isNone then some (.missingField frame.event .topic)
    else if frame.payload.isNone then some (.missingField frame.event .payload)
    else none

/-- The topic that a frame publishes on and the frame that is forwarded for it: topic, payload and
origin as they were published, and nothing else. -/
def forwarded? (frame : Frame) : Option (Bytes × Frame) :=
  match frame.event, frame.topic, frame.payload with
  | .publish, some topic, some payload =>
    some (topic,
      { event := .deliver, topic := some topic, payload := some payload, origin := frame.origin })
  | _, _, _ => none

theorem forwarded?_eq_none_iff {frame : Frame} :
    frame.forwarded? = none ↔
      frame.event ≠ .publish ∨ frame.topic = none ∨ frame.payload = none := by
  obtain ⟨event, topic, payload, _, _, _⟩ := frame
  cases event <;> cases topic <;> cases payload <;> simp [forwarded?]

/-- A frame that is forwarded is a delivery. -/
theorem event_of_forwarded? {frame forwarded : Frame} {topic : Bytes}
    (h : frame.forwarded? = some (topic, forwarded)) : forwarded.event = .deliver := by
  unfold forwarded? at h
  split at h
  · simp only [Option.some.injEq, Prod.mk.injEq] at h
    rw [← h.2]
  · contradiction

end Frame

namespace Subscribers

inductive Operation
  | add (topic : Bytes) (c : ConnectionId)
  | remove (topic : Bytes) (c : ConnectionId)
  | removeAll (c : ConnectionId)
  deriving DecidableEq, Repr

def apply (subscribers : Subscribers) : Operation → Subscribers
  | .add topic c => subscribers.add topic c
  | .remove topic c => subscribers.remove topic c
  | .removeAll c => subscribers.removeAll c

def applyAll (subscribers : Subscribers) (operations : List Operation) : Subscribers :=
  operations.foldl apply subscribers

end Subscribers

/-- The operation that a frame from a connection asks for. -/
def Frame.operation? (source : ConnectionId) (frame : Frame) : Option Subscribers.Operation :=
  match frame.event, frame.topic with
  | .subscribe, some topic => some (.add topic source)
  | .unsubscribe, some topic => some (.remove topic source)
  | _, _ => none

theorem Frame.operation?_of_publish (source : ConnectionId) {frame : Frame}
    (h : frame.event = .publish) : frame.operation? source = none := by
  simp only [operation?, h]

theorem Frame.operation?_of_refusal (source : ConnectionId) {frame : Frame} {fault : Fault}
    (h : frame.refusal? = some fault) : frame.operation? source = none := by
  obtain ⟨event, topic, payload, _, _, _⟩ := frame
  cases topic with
  | none => cases event <;> rfl
  | some topic =>
    cases event with
    | subscribe => contradiction
    | unsubscribe => contradiction
    | _ => rfl

theorem Frame.forwarded?_of_refusal {frame : Frame} {fault : Fault}
    (h : frame.refusal? = some fault) : frame.forwarded? = none := by
  obtain ⟨event, topic, payload, _, _, _⟩ := frame
  cases event with
  | publish =>
    cases topic with
    | none => rfl
    | some topic =>
      cases payload with
      | none => rfl
      | some payload => contradiction
  | _ => rfl

/-- The frames among deliveries that are for a connection, in order. -/
def framesTo (c : ConnectionId) (deliveries : List Delivery) : List Frame :=
  (deliveries.filter (·.connection = c)).map (·.frame)

@[simp] theorem framesTo_nil (c : ConnectionId) : framesTo c [] = [] := rfl

@[simp] theorem framesTo_append (c : ConnectionId) (first second : List Delivery) :
    framesTo c (first ++ second) = framesTo c first ++ framesTo c second := by
  simp [framesTo]

namespace Hub

variable {hub : Hub}

/-- What the hub sends when it handles a frame. -/
def forwards (hub : Hub) (frame : Frame) : List Delivery :=
  match frame.forwarded? with
  | some (topic, forwarded) => hub.send (hub.subscribers.on topic) forwarded
  | none => []

theorem forwards_of_none {frame : Frame} (h : frame.forwarded? = none) :
    hub.forwards frame = [] := by
  rw [forwards, h]

theorem event_of_mem_forwards {frame : Frame} {delivery : Delivery}
    (h : delivery ∈ hub.forwards frame) : delivery.frame.event = .deliver := by
  unfold forwards at h
  split at h
  next forwards =>
    obtain ⟨c, -, rfl⟩ := List.mem_map.1 h
    exact Frame.event_of_forwarded? forwards
  next => contradiction

/-- The hub once it has handled a frame from a connection. -/
def heed (hub : Hub) (source : ConnectionId) (frame : Frame) : Hub :=
  { hub with subscribers := hub.subscribers.applyAll (frame.operation? source).toList }

theorem heed_of_none {source : ConnectionId} {frame : Frame}
    (h : frame.operation? source = none) (hub : Hub) : hub.heed source frame = hub := by
  rw [heed, h]
  rfl

/-- How a frame is handled, whoever sent it. -/
theorem handle_eq (hub : Hub) (source : ConnectionId) (frame : Frame) :
    hub.handle source frame =
      match frame.refusal? with
      | some fault => .error fault
      | none => .ok (hub.heed source frame, hub.forwards frame) := by
  obtain ⟨event, topic, payload, _, _, _⟩ := frame
  cases event <;> cases topic <;> cases payload <;> rfl

theorem handle_of_refusal {frame : Frame} {fault : Fault} (h : frame.refusal? = some fault)
    (hub : Hub) (source : ConnectionId) : hub.handle source frame = .error fault := by
  rw [handle_eq, h]

theorem handle_of_accepted {frame : Frame} (h : frame.refusal? = none) (hub : Hub)
    (source : ConnectionId) :
    hub.handle source frame = .ok (hub.heed source frame, hub.forwards frame) := by
  rw [handle_eq, h]

/-- A frame that is refused changes nothing, just as heeding and forwarding it do. -/
theorem answer_handle (hub : Hub) (source : ConnectionId) (frame : Frame) :
    (hub.answer (hub.handle source frame)).2 = (hub.heed source frame, hub.forwards frame) := by
  cases refused : frame.refusal? with
  | none =>
    rw [handle_of_accepted refused]
    rfl
  | some fault =>
    rw [handle_of_refusal refused, heed_of_none (Frame.operation?_of_refusal source refused),
      forwards_of_none (Frame.forwarded?_of_refusal refused)]
    rfl

/-- The frame that a step brings to the hub and the connection that it comes from. -/
def Step.frame? : Step → Option (ConnectionId × Frame)
  | .frame c handled => some (c, handled)
  | .raw c bytes =>
    match Frame.parse bytes with
    | .ok handled => some (c, handled)
    | .error _ => none
  | _ => none

/-- The operation that a step has the hub carry out on its table. -/
def Step.operation? : Step → Option Subscribers.Operation
  | .subscribe c topic => some (.add topic c)
  | .unsubscribe c topic => some (.remove topic c)
  | .unsubscribeAll c | .disconnect c => some (.removeAll c)
  | step => step.frame?.bind fun (c, handled) => handled.operation? c

/-- A step that brings a frame to the hub has the hub handle it. -/
theorem step_of_frame {step : Step} {source : ConnectionId} {frame : Frame}
    (h : step.frame? = some (source, frame)) (hub : Hub) :
    (hub.step step).2 = (hub.heed source frame, hub.forwards frame) := by
  cases step with
  | frame c given =>
    obtain ⟨rfl, rfl⟩ : c = source ∧ given = frame := by simpa [Step.frame?] using h
    exact answer_handle hub c given
  | raw c bytes =>
    simp only [Step.frame?] at h
    split at h
    next given parsed =>
      obtain ⟨rfl, rfl⟩ : c = source ∧ given = frame := by simpa using h
      rw [Hub.step, parsed]
      exact answer_handle hub c given
    next => contradiction
  | _ => simp [Step.frame?] at h

/-- Bytes that are no frame change nothing. -/
theorem step_of_unparsed {c : ConnectionId} {bytes : Bytes}
    (h : (Step.raw c bytes).frame? = none) (hub : Hub) :
    (hub.step (.raw c bytes)).2 = (hub, []) := by
  simp only [Step.frame?] at h
  split at h
  · contradiction
  next refused =>
    rw [Hub.step, refused]
    rfl

/-- Frames, as such or as bytes, leave alone who is registered and to whom sends fail. -/
theorem kept_of_frame (hub : Hub) (c : ConnectionId) (frame : Frame) :
    (hub.step (.frame c frame)).2.1.connections = hub.connections ∧
      (hub.step (.frame c frame)).2.1.broken = hub.broken := by
  rw [Hub.step, answer_handle]
  exact ⟨rfl, rfl⟩

theorem kept_of_raw (hub : Hub) (c : ConnectionId) (bytes : Bytes) :
    (hub.step (.raw c bytes)).2.1.connections = hub.connections ∧
      (hub.step (.raw c bytes)).2.1.broken = hub.broken := by
  cases arrives : (Step.raw c bytes).frame? with
  | none =>
    rw [step_of_unparsed arrives]
    exact ⟨rfl, rfl⟩
  | some arrival =>
    rw [step_of_frame arrives]
    exact ⟨rfl, rfl⟩

/-- What a step sends is what is forwarded for the frame that it brings. -/
theorem sent_step (hub : Hub) (step : Step) :
    (hub.step step).2.2 = step.frame?.toList.flatMap fun (_, frame) => hub.forwards frame := by
  cases arrives : step.frame? with
  | some arrival =>
    rw [step_of_frame arrives]
    simp
  | none =>
    cases step with
    | frame => contradiction
    | raw c bytes =>
      rw [step_of_unparsed arrives]
      rfl
    | _ => rfl

/-- A step changes the table of who is listed by the operation that it asks for. -/
theorem subscribers_step (hub : Hub) (step : Step) :
    (hub.step step).2.1.subscribers = hub.subscribers.applyAll step.operation?.toList := by
  cases arrives : step.frame? with
  | some arrival =>
    have asked : step.operation? = arrival.2.operation? arrival.1 := by
      cases step with
      | frame | raw => simp only [Step.operation?, arrives, Option.bind_some]
      | _ => simp [Step.frame?] at arrives
    rw [step_of_frame arrives, asked]
    rfl
  | none =>
    cases step with
    | frame => contradiction
    | raw c bytes =>
      have nothing : (Step.raw c bytes).operation? = none := by
        simp only [Step.operation?, arrives, Option.bind_none]
      rw [step_of_unparsed arrives, nothing]
      rfl
    | attach c =>
      simp only [Hub.step, settled, attach]
      split <;> rfl
    | _ => rfl

@[simp] theorem run_nil (hub : Hub) : hub.run [] = (hub, []) := rfl

theorem run_concat (hub : Hub) (steps : List Step) (step : Step) :
    hub.run (steps ++ [step]) =
      (((hub.run steps).1.step step).2.1,
        (hub.run steps).2 ++ ((hub.run steps).1.step step).2.2) := by
  simp [run, List.foldl_append]

theorem run_append (hub : Hub) (first second : List Step) :
    hub.run (first ++ second) =
      (((hub.run first).1.run second).1,
        (hub.run first).2 ++ ((hub.run first).1.run second).2) := by
  induction second using List.reverseRecOn with
  | nil => simp
  | append_singleton second step ih =>
    rw [← List.append_assoc, run_concat, run_concat, ih]
    simp

/-- The operations that steps have the hub carry out on its table, in order. -/
def operations (steps : List Step) : List Subscribers.Operation :=
  steps.filterMap Step.operation?

theorem operations_concat (steps : List Step) (step : Step) :
    operations (steps ++ [step]) = operations steps ++ step.operation?.toList := by
  rw [operations, List.filterMap_append, operations]
  cases asked : step.operation? <;> simp [asked]

/-- After a run the table is what the operations have made of it. -/
theorem subscribers_run (hub : Hub) (steps : List Step) :
    (hub.run steps).1.subscribers = hub.subscribers.applyAll (operations steps) := by
  induction steps using List.reverseRecOn with
  | nil => rfl
  | append_singleton steps step ih =>
    rw [run_concat, subscribers_step, ih, operations_concat]
    exact List.foldl_append.symm

end Hub

end Fanout
