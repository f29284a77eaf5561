import Fanout.Hub.Work
import Fanout.Proofs.Hub.Handling

/-!
# What the hub rejects

A frame breaks the protocol in one of three ways (`Frame.Breaks`), whatever the state of the hub. At
work the hub finds this out before it changes its table or sends anything, as it does with bytes
that are no frame. Main statements: the hub at work ends as its steps say (`runOn_handle`,
`runOn_receive`); what it rejects leaves it as it was, and it rejects nothing else
(`rejection_exact`); so a run comes to the same without what is rejected (`run_accepted`).
-/

namespace Fanout

/-- The ways in which a frame breaks the protocol, each with its fault. -/
inductive Frame.Breaks (frame : Frame) : Fault → Prop
  | hubOnly (kind : frame.event = .deliver) : frame.Breaks .hubOnlyFrame
  | topicMissing
      (kind : frame.event = .subscribe ∨ frame.event = .unsubscribe ∨ frame.event = .publish)
      (topic : frame.topic = none) : frame.Breaks (.missingField frame.event .topic)
  | payloadMissing (kind : frame.event = .publish) (topic : frame.topic.isSome)
      (payload : frame.payload = none) : frame.Breaks (.missingField frame.event .payload)

namespace Frame

variable {frame : Frame} {fault : Fault}

theorem Breaks.refusal? (h : frame.Breaks fault) : frame.refusal? = some fault := by
  cases h with
  | hubOnly kind => simp [Frame.refusal?, kind]
  | topicMissing kind topic =>
    rcases kind with kind | kind | kind <;> simp [Frame.refusal?, kind, topic]
  | payloadMissing kind topic payload =>
    simp [Frame.refusal?, kind, Option.isSome_iff_ne_none.1 topic, payload]

theorem breaks_of_refusal? (h : frame.refusal? = some fault) : frame.Breaks fault := by
  obtain ⟨event, topic, payload, origin, errorCode, errorText⟩ := frame
  cases event with
  | deliver =>
    cases h
    exact .hubOnly rfl
  | error | ok => contradiction
  | subscribe | unsubscribe =>
    cases topic with
    | none =>
      cases h
      exact .topicMissing (by simp) rfl
    | some topic => contradiction
  | publish =>
    cases topic with
    | none =>
      cases h
      exact .topicMissing (by simp) rfl
    | some topic =>
      cases payload with
      | none =>
        cases h
        exact .payloadMissing rfl rfl rfl
      | some payload => contradiction

theorem breaks_iff : frame.Breaks fault ↔ frame.refusal? = some fault :=
  ⟨Breaks.refusal?, breaks_of_refusal?⟩

/-- The code that a peer is told for a frame that breaks the protocol. -/
theorem Breaks.code? (h : frame.Breaks fault) :
    fault.code? =
      some (if frame.event = .deliver then .invalidEventType else .missingField) := by
  cases h with
  | hubOnly kind => rw [if_pos kind, Fault.code?]
  | topicMissing kind topic =>
    rcases kind with kind | kind | kind <;> rw [kind] <;> rfl
  | payloadMissing kind topic payload =>
    rw [kind]
    rfl

end Frame

/-- Nobody is taken off a topic that nobody is on. -/
theorem Subscribers.remove_of_unlisted {subscribers : Subscribers} {topic : Bytes}
    (h : Table.get? subscribers topic = none) (c : ConnectionId) :
    subscribers.remove topic c = subscribers := by
  have empty : (subscribers.on topic).filter (· ≠ c) = [] := by
    rw [on, h]
    rfl
  rw [remove, empty]
  exact Table.erase_of_get?_eq_none h

namespace Hub

/-- A hub at work once something has come of what it did. -/
def Working.after (working : Working) (outcome : Except Fault Unit × Hub × List Delivery) :
    Except Fault Unit × Working :=
  (outcome.1, { hub := outcome.2.1, sent := working.sent ++ outcome.2.2 })

/-- Nothing more is sent. -/
theorem Working.after_quiet (working : Working) (result : Except Fault Unit) (hub : Hub) :
    working.after (result, hub, []) = (result, { working with hub }) := by
  rw [after, List.append_nil]

theorem send_cons (hub : Hub) (c : ConnectionId) (targets : List ConnectionId) (frame : Frame) :
    hub.send (c :: targets) frame = hub.send [c] frame ++ hub.send targets frame := by
  cases reached : hub.reaches c <;> simp [send, reached]

/-- Bytes that are a frame come to what the frame does. -/
theorem step_raw {bytes : Bytes} {given : Frame} (parsed : Frame.parse bytes = .ok given)
    (hub : Hub) (source : ConnectionId) :
    hub.step (.raw source bytes) = hub.step (.frame source given) := by
  rw [step, step, parsed]
  rfl

namespace Work

theorem runOn_sendOne (frame : Frame) (c : ConnectionId) (working : Working) :
    runOn (sendOne frame c) working =
      (.ok (working.hub.reaches c),
        { working with sent := working.sent ++ working.hub.send [c] frame }) := by
  simp only [sendOne, runOn_bind, runOn_get]
  cases reached : working.hub.reaches c with
  | false => simp [Hub.send, reached]
  | true => simp only [if_true, runOn_bind, runOn_modify, runOn_pure, Hub.send, reached,
      List.filter_cons_of_pos, List.filter_nil, List.map_cons, List.map_nil]

/-- One frame after the other comes to sending all of them. -/
theorem runOn_send (frame : Frame) (targets : List ConnectionId) (working : Working) :
    runOn (send frame targets) working =
      (.ok (working.hub.send targets frame).length,
        { working with sent := working.sent ++ working.hub.send targets frame }) := by
  induction targets generalizing working with
  | nil => simp [send, Hub.send]
  | cons c targets ih =>
    simp only [send, runOn_bind, runOn_sendOne, ih, runOn_pure, send_cons _ c targets]
    cases reached : working.hub.reaches c <;> simp [Hub.send, reached]

theorem runOn_publish (source : ConnectionId) {frame : Frame} (kind : frame.event = .publish)
    (working : Working) :
    runOn (publish frame) working = working.after (working.hub.step (.frame source frame)) := by
  obtain ⟨event, topic, payload, origin, errorCode, errorText⟩ := frame
  cases kind
  cases topic with
  | none => exact (working.after_quiet _ _).symm
  | some topic =>
    cases payload with
    | none => exact (working.after_quiet _ _).symm
    | some payload =>
      simp only [publish, runOn_bind, runOn_check, Frame.require, Frame.get?, runOn_get, runOn_send,
        runOn_pure]
      cases origin <;> rfl

/-- Handled as work, a frame comes to the step that it is. -/
theorem runOn_handle (source : ConnectionId) (frame : Frame) (working : Working) :
    runOn (handle source frame) working =
      working.after (working.hub.step (.frame source frame)) := by
  obtain ⟨event, topic, payload, origin, errorCode, errorText⟩ := frame
  cases event with
  | publish => exact runOn_publish source rfl working
  | subscribe | unsubscribe =>
    cases topic with
    | none | some => exact (working.after_quiet _ _).symm
  | deliver | error | ok => exact (working.after_quiet _ _).symm

/-- Handled as work, bytes come to the step that they are. -/
theorem runOn_receive (source : ConnectionId) (raw : Bytes) (working : Working) :
    runOn (receive source raw) working = working.after (working.hub.step (.raw source raw)) := by
  rw [receive, runOn_bind, runOn_check]
  cases parsed : Frame.parse raw with
  | error fault =>
    rw [Hub.step, parsed]
    exact (working.after_quiet _ _).symm
  | ok frame =>
    rw [step_raw parsed]
    exact runOn_handle source frame working

end Work

variable {hub : Hub} {step : Step} {fault : Fault}

/-- Why the hub rejects what a step brings, if it does. -/
def Step.fault? : Step → Option Fault
  | .frame _ given => given.refusal?
  | .raw _ bytes =>
    match Frame.parse bytes with
    | .ok given => given.refusal?
    | .error fault => some fault
  | _ => none

/-- What is rejected changes nothing and sends nothing. -/
theorem step_of_fault? (h : step.fault? = some fault) (hub : Hub) :
    hub.step step = (.error fault, hub, []) := by
  cases step with
  | frame source given => rw [Hub.step, handle_of_refusal h, answer]
  | raw source bytes =>
    rw [Step.fault?] at h
    cases parsed : Frame.parse bytes with
    | error other =>
      rw [parsed] at h
      cases h
      rw [Hub.step, parsed]
      rfl
    | ok given =>
      rw [parsed] at h
      rw [step_raw parsed, Hub.step, handle_of_refusal h, answer]
  | _ => contradiction

theorem step_fst_of_accepted (h : step.fault? = none) (hub : Hub) : (hub.step step).1 = .ok () := by
  cases step with
  | frame source given => rw [Hub.step, handle_of_accepted h, answer]
  | raw source bytes =>
    rw [Step.fault?] at h
    cases parsed : Frame.parse bytes with
    | error other =>
      rw [parsed] at h
      contradiction
    | ok given =>
      rw [parsed] at h
      rw [step_raw parsed, Hub.step, handle_of_accepted h, answer]
  | _ => rfl

/-- What the hub rejects does not depend on its state. -/
theorem step_fst_eq_error_iff : (hub.step step).1 = .error fault ↔ step.fault? = some fault := by
  cases rejected : step.fault? with
  | none =>
    rw [step_fst_of_accepted rejected]
    simp
  | some other =>
    rw [step_of_fault? rejected]
    simp

/-- A run comes to the same without what is rejected. -/
theorem run_accepted (hub : Hub) (steps : List Step) :
    hub.run (steps.filter (·.fault?.isNone)) = hub.run steps := by
  induction steps using List.reverseRecOn with
  | nil => rfl
  | append_singleton steps step ih =>
    rw [List.filter_append, run_append, run_append, ih]
    cases rejected : step.fault? with
    | none => simp [rejected]
    | some fault =>
      have nothing : (hub.run steps).1.run [step] = (hub.run steps).1.run [] := by
        rw [← List.nil_append [step], run_concat, step_of_fault? rejected]
        rfl
      rw [nothing]
      simp [rejected]

variable {frame : Frame}

theorem step_of_reported (h : frame.event = .error ∨ frame.event = .ok) (hub : Hub)
    (source : ConnectionId) : hub.step (.frame source frame) = (.ok (), hub, []) := by
  rcases h with kind | kind <;> rw [step, handle, kind] <;> rfl

theorem step_of_unlisted (kind : frame.event = .unsubscribe) {topic : Bytes}
    (named : frame.topic = some topic) (unlisted : Table.get? hub.subscribers topic = none)
    (source : ConnectionId) : hub.step (.frame source frame) = (.ok (), hub, []) := by
  have same : hub.handle source frame = .ok (hub, []) := by
    rw [handle, kind]
    simp only [Frame.require, Frame.get?, named]
    change Except.ok ({ hub with subscribers := hub.subscribers.remove topic source }, []) = _
    rw [Subscribers.remove_of_unlisted unlisted]
  rw [Hub.step, same, answer]

/-- What becomes of a frame. It fails if and only if it breaks the protocol, and then everything is
left as it was. -/
structure Working.Judges (working : Working) (source : ConnectionId) (frame : Frame) : Prop where
  fails_iff : ∀ fault, (Work.runOn (Work.handle source frame) working).1 = .error fault ↔
    frame.Breaks fault
  kept : ∀ fault, frame.Breaks fault → (Work.runOn (Work.handle source frame) working).2 = working
  code : ∀ fault, frame.Breaks fault → fault.code? =
    some (if frame.event = .deliver then .invalidEventType else .missingField)
  /-- What peers report does nothing. -/
  idle : frame.event = .error ∨ frame.event = .ok →
    Work.runOn (Work.handle source frame) working = (.ok (), working)
  /-- Leaving a topic that nobody is on does nothing. -/
  unlisted : frame.event = .unsubscribe → ∀ topic, frame.topic = some topic →
    Table.get? working.hub.subscribers topic = none →
      Work.runOn (Work.handle source frame) working = (.ok (), working)

theorem Working.judges (working : Working) (source : ConnectionId) (frame : Frame) :
    working.Judges source frame where
  fails_iff fault := by
    rw [Work.runOn_handle, after, step_fst_eq_error_iff]
    exact Frame.breaks_iff.symm
  kept fault breaks := by
    have refused : (Step.frame source frame).fault? = some fault := breaks.refusal?
    rw [Work.runOn_handle, step_of_fault? refused, after_quiet]
  code fault breaks := breaks.code?
  idle reported := by
    rw [Work.runOn_handle, step_of_reported reported, after_quiet]
  unlisted kind topic named unlisted := by
    rw [Work.runOn_handle, step_of_unlisted kind named unlisted, after_quiet]

/-- Bytes are rejected as no frame or as a frame that breaks the protocol. -/
theorem fault?_raw_iff (source : ConnectionId) (raw : Bytes) (fault : Fault) :
    (Step.raw source raw).fault? = some fault ↔
      Frame.parse raw = .error fault ∨
        ∃ frame, Frame.parse raw = .ok frame ∧ frame.Breaks fault := by
  rw [Step.fault?]
  cases Frame.parse raw with
  | error other => simp
  | ok given => simp [Frame.breaks_iff]

/-- Whatever bytes a hub at work receives, in whatever state, it comes to the step that they are. It
fails if they are no frame or a frame that breaks the protocol, and then its table, its connections
and what it has sent are as before. -/
theorem rejection_exact (working : Working) (source : ConnectionId) :
    (∀ raw, Work.runOn (Work.receive source raw) working =
      working.after (working.hub.step (.raw source raw))) ∧
      (∀ raw fault, (Work.runOn (Work.receive source raw) working).1 = .error fault ↔
        Frame.parse raw = .error fault ∨
          ∃ frame, Frame.parse raw = .ok frame ∧ frame.Breaks fault) ∧
      (∀ raw fault, (Work.runOn (Work.receive source raw) working).1 = .error fault →
        (Work.runOn (Work.receive source raw) working).2 = working) ∧
      ∀ frame, working.Judges source frame := by
  have fails_iff : ∀ raw fault, (Work.runOn (Work.receive source raw) working).1 = .error fault ↔
      (Step.raw source raw).fault? = some fault := by
    intro raw fault
    rw [Work.runOn_receive, Working.after, step_fst_eq_error_iff]
  refine ⟨fun raw => Work.runOn_receive source raw working, fun raw fault => ?_,
    fun raw fault fails => ?_, working.judges source⟩
  · rw [fails_iff, fault?_raw_iff]
  · rw [Work.runOn_receive, step_of_fault? ((fails_iff raw fault).1 fails), Working.after_quiet]

/-- Two connections on a topic, and the frame that was last sent there. -/
def topical : Working where
  hub := { subscribers := [([7], [1, 2])], connections := [1, 2] }
  sent := [{ connection := 2, frame := .deliver [7] [0] none }]

/-- Nothing comes of a length without a frame, of a publish without a payload, of a delivery that a
connection sends, of a reported fault, or of leaving a topic that nobody is on. -/
theorem rejection_exact_topical :
    Work.runOn (Work.receive 1 [0, 0, 0, 9]) topical = (.error .shortFrame, topical) ∧
      Work.runOn (Work.receive 1 [0, 0, 0, 11, 0x10, 1, 0, 0, 0, 1, 7]) topical =
        (.error (.missingField .publish .payload), topical) ∧
      Work.runOn (Work.handle 3 (.deliver [7] [0] none)) topical = (.error .hubOnlyFrame, topical) ∧
      Fault.hubOnlyFrame.code? = some .invalidEventType ∧
      Work.runOn (Work.handle 1 (.report .readFailed "gone")) topical = (.ok (), topical) ∧
      Work.runOn (Work.handle 1 (.unsubscribe [8])) topical = (.ok (), topical) := by
  obtain ⟨-, fails_iff, kept, -⟩ := rejection_exact topical 1
  have short := (fails_iff [0, 0, 0, 9] .shortFrame).2 (.inl rfl)
  have parsed : Frame.parse [0, 0, 0, 11, 0x10, 1, 0, 0, 0, 1, 7] =
      .ok { event := .publish, topic := some [7] } := by
    decide +kernel
  have empty := (fails_iff _ (.missingField .publish .payload)).2
    (.inr ⟨_, parsed, .payloadMissing rfl rfl rfl⟩)
  have judged := (rejection_exact topical 3).2.2.2 (.deliver [7] [0] none)
  have breaks : (Frame.deliver [7] [0] none).Breaks .hubOnlyFrame := .hubOnly rfl
  have judgedReport := (rejection_exact topical 1).2.2.2 (.report .readFailed "gone")
  have judgedLeaving := (rejection_exact topical 1).2.2.2 (.unsubscribe [8])
  exact ⟨Prod.ext short (kept _ _ short), Prod.ext empty (kept _ _ empty),
    Prod.ext ((judged.fails_iff _).2 breaks) (judged.kept _ breaks), judged.code _ breaks,
    judgedReport.idle (.inl rfl), judgedLeaving.unlisted rfl [8] rfl rfl⟩

end Hub

end Fanout
