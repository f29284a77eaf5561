import Fanout.Link.Work
import Fanout.Proofs.Frame.Reading

/-!
# What a link makes of the hub's frames

A frame hands a payload to a listener if it is a delivery on the listener's topic
(`Frame.Hands`); at work a link calls that listener and no other, and stays as it is. A fault that
the hub reports arrives with its code and its text, and a report without a code that is known counts
as internal. Main statements: the link at work ends as `respond` and `receive` say (`run_dispatch`,
`run_serve`), and the above holds of every frame and every report that fits (`dispatch_exact`).
-/

namespace Fanout

variable {κ : Type}

/-- That a frame delivers a payload on the topic of a listener. -/
def Frame.Hands (frame : Frame) (listeners : Listeners κ) (listener : κ) (payload : Bytes) : Prop :=
  ∃ topic : Topic, frame.event = .deliver ∧ frame.topic = some topic.nameBytes ∧
    frame.payload = some payload ∧ Table.get? listeners topic = some listener

/-- That a frame reports a fault by no code: it has none, one that is not two bytes long, or a
number that is no code's. -/
inductive Frame.Uncoded (frame : Frame) : Prop
  | missing (absent : frame.errorCode = none)
  | length {digits : Bytes} (present : frame.errorCode = some digits) (other : digits.length ≠ 2)
  | unknown {digits : Bytes} (present : frame.errorCode = some digits)
      (nobody : ∀ code : FaultCode, code.number ≠ Bytes.ofBigEndian digits)

theorem FaultCode.ofNumber?_eq_none {number : Nat}
    (nobody : ∀ code : FaultCode, code.number ≠ number) : ofNumber? number = none := by
  rw [ofNumber?, List.find?_eq_none]
  intro code _
  simpa using nobody code

theorem Frame.Uncoded.code? {frame : Frame} (h : frame.Uncoded) :
    frame.reportedFault.code? = some .internalServerError := by
  cases h with
  | missing absent => simp [reportedFault, absent, Fault.code?]
  | length present other => simp [reportedFault, present, other, Fault.code?]
  | unknown present nobody =>
    simp [reportedFault, present, FaultCode.ofNumber?_eq_none nobody, Fault.code?]

/-- A frame that was written is read from a stream that starts with it, in whatever chunks. -/
theorem Frame.read_of_encode {frame : Frame} {bytes later : Bytes}
    (written : frame.encode = .ok bytes) {stream : ByteStream}
    (starts : stream.bytes = bytes ++ later) :
    ∃ rest, Frame.read stream = (.frame frame, rest) ∧ rest.bytes = later := by
  obtain ⟨outcome, rest, taken, read, answers⟩ := exists_answers stream
  have reads := answers.reads
  rw [starts] at reads
  obtain ⟨rfl, rfl⟩ := reads.unique (reads_encode written stream.ending later)
  refine ⟨rest, read, ?_⟩
  rw [answers.left, starts, List.drop_left' rfl]

namespace Link

namespace Response

def call? : Response κ → Option (κ × Bytes)
  | .called listener payload => some (listener, payload)
  | .trouble _ => none

def trouble? : Response κ → Option Trouble
  | .called _ _ => none
  | .trouble trouble => some trouble

end Response

variable {link : Link κ} {frame : Frame} {listener : κ} {payload : Bytes}

/-- A link calls the listener that a frame hands something to. -/
theorem call?_respond_iff : (link.respond frame).bind Response.call? = some (listener, payload) ↔
    frame.Hands link.listeners listener payload := by
  constructor
  · intro calls
    obtain ⟨response, responds, same⟩ := Option.bind_eq_some_iff.1 calls
    unfold respond at responds
    split at responds
    next kind =>
      split at responds
      next topic given named carries =>
        obtain ⟨found, heard, rfl⟩ := Option.map_eq_some_iff.1 responds
        cases same
        obtain ⟨name, present, known⟩ := Option.bind_eq_some_iff.1 named
        rw [Topic.ofNameBytes?_eq_some_iff] at known
        exact ⟨topic, kind, known ▸ present, carries, heard⟩
      next => contradiction
    next =>
      cases responds
      contradiction
    next => contradiction
  · rintro ⟨topic, kind, named, carries, heard⟩
    have known : frame.topic.bind Topic.ofNameBytes? = some topic := by
      rw [named, Option.bind_some, Topic.ofNameBytes?_eq_some_iff]
    simp [respond, kind, known, carries, heard, Response.call?]

/-- A link takes down what the hub reports. -/
theorem trouble?_respond (link : Link κ) (frame : Frame) :
    (link.respond frame).bind Response.trouble? =
      if frame.event = .error then some (.reported frame.reportedFault) else none := by
  unfold respond
  cases frame.event with
  | deliver =>
    dsimp only
    split
    next =>
      cases Table.get? link.listeners _ <;> rfl
    next => rfl
  | _ => rfl

/-- A link at work once responses have been made; the link itself is the same. -/
def Working.after (working : Working κ) (responses : List (Response κ)) : Working κ :=
  { link := working.link
    called := working.called ++ responses.filterMap Response.call?
    troubles := working.troubles ++ responses.filterMap Response.trouble? }

@[simp] theorem Working.after_nil (working : Working κ) : working.after [] = working := by
  simp [after]

theorem Working.after_called (working : Working κ) (listener : κ) (payload : Bytes) :
    working.after [.called listener payload] =
      { working with called := working.called ++ [(listener, payload)] } := by
  simp [after, Response.call?, Response.trouble?]

theorem Working.after_trouble (working : Working κ) (trouble : Trouble) :
    working.after [.trouble trouble] =
      { working with troubles := working.troubles ++ [trouble] } := by
  simp [after, Response.call?, Response.trouble?]

theorem Working.after_toList (working : Working κ) (response : Option (Response κ)) :
    working.after response.toList =
      { link := working.link
        called := working.called ++ (response.bind Response.call?).toList
        troubles := working.troubles ++ (response.bind Response.trouble?).toList } := by
  cases response with
  | none => simp
  | some response =>
    cases response with
    | called listener payload => simp [after_called, Response.call?, Response.trouble?]
    | trouble trouble => simp [after_trouble, Response.call?, Response.trouble?]

theorem Working.after_append (working : Working κ) (first second : List (Response κ)) :
    working.after (first ++ second) = (working.after first).after second := by
  simp [after]

namespace Work

/-- Handled as work, a frame comes to the response to it. -/
theorem run_dispatch (frame : Frame) (working : Working κ) :
    (dispatch frame).run working = ((), working.after (working.link.respond frame).toList) := by
  have quiet : ((), working) = ((), working.after []) := by
    rw [Working.after_nil]
  unfold dispatch respond
  cases frame.event with
  | deliver =>
    cases frame.topic with
    | none => exact quiet
    | some name =>
      cases frame.payload with
      | none =>
        rw [Option.bind_some]
        cases Topic.ofNameBytes? name <;> exact quiet
      | some payload =>
        simp only [Option.bind_some]
        cases Topic.ofNameBytes? name with
        | none => exact quiet
        | some topic =>
          simp only [StateT.run_bind, StateT.run_get, pure_bind]
          cases Table.get? working.link.listeners topic with
          | none => exact quiet
          | some listener =>
            exact congrArg (Prod.mk ()) (working.after_called listener payload).symm
  | error => exact congrArg (Prod.mk ()) (working.after_trouble _).symm
  | publish | subscribe | unsubscribe | ok => exact quiet

/-- Handled as work, the frames of a stream come to the responses to them. -/
theorem run_serve (input : ByteStream) (working : Working κ) :
    (serve input).run working =
      ((working.link.receive input).2, working.after (working.link.receive input).1) := by
  induction size : input.size using Nat.strongRecOn generalizing input working with
  | ind n ih =>
    rw [serve]
    split
    next frame rest read =>
      have shorter := Frame.read_size_lt read
      have later := ih rest.size (size ▸ shorter) rest
        (working.after (working.link.respond frame).toList) rfl
      rw [StateT.run_bind, run_dispatch]
      apply later.trans
      rw [← Working.after_append]
      simp only [receive, Frame.readAll_of_frame read, Working.after, List.filterMap_cons]
      cases working.link.respond frame <;> rfl
    next outcome rest noFrame read =>
      rw [receive, Frame.readAll_of_not_frame read noFrame]
      exact congrArg (Prod.mk outcome) working.after_nil.symm

end Work

/-- That handling a frame leaves this behind. -/
structure Working.Dispatches (working : Working κ) (frame : Frame) (left : Working κ) : Prop where
  /-- A listener is called, once and with the payload, for a delivery on its topic. -/
  called_iff : ∀ listener payload, left.called = working.called ++ [(listener, payload)] ↔
    frame.Hands working.link.listeners listener payload
  /-- Otherwise none is called. -/
  uncalled : (∀ listener payload, ¬frame.Hands working.link.listeners listener payload) →
    left.called = working.called
  /-- Neither the listeners nor what is queued change. -/
  kept : left.link = working.link
  reported : frame.event = .error →
    left.troubles = working.troubles ++ [.reported frame.reportedFault]
  unreported : frame.event ≠ .error → left.troubles = working.troubles

theorem Working.dispatches (working : Working κ) (frame : Frame) :
    working.Dispatches frame ((Work.dispatch frame).run working).2 := by
  rw [Work.run_dispatch, after_toList, trouble?_respond]
  exact {
    called_iff listener payload := by
      rw [List.append_cancel_left_eq, Option.toList_eq_singleton_iff, call?_respond_iff]
    uncalled unhanded := by
      have nobody : (working.link.respond frame).bind Response.call? = none := by
        apply Option.eq_none_iff_forall_ne_some.2
        rintro ⟨listener, payload⟩ calls
        exact unhanded listener payload (call?_respond_iff.1 calls)
      simp [nobody]
    kept := rfl
    reported kind := by simp [kind]
    unreported kind := by simp [kind] }

/-- A link at work handles any frame as above, and the frames of a stream one after the other, which
comes to what it receives. A report that fits is read back, in whatever chunks it arrives, as the
fault with its code and its text, and taken down; a report by no code counts as internal. -/
theorem dispatch_exact (working : Working κ) :
    (∀ frame, working.Dispatches frame ((Work.dispatch frame).run working).2) ∧
      (∀ input, (Work.serve input).run working =
        ((working.link.receive input).2, working.after (working.link.receive input).1)) ∧
      (∀ code text bytes, (Frame.report code text).encode = .ok bytes →
        ∀ (stream : ByteStream) (later : Bytes), stream.bytes = bytes ++ later →
          ∃ frame rest, Frame.read stream = (.frame frame, rest) ∧ rest.bytes = later ∧
            frame.reportedFault = .reported code text ∧
              ((Work.dispatch frame).run working).2.troubles =
                working.troubles ++ [.reported (.reported code text)]) ∧
      ∀ frame : Frame, frame.Uncoded → frame.reportedFault.code? = some .internalServerError := by
  refine ⟨working.dispatches, fun input => Work.run_serve input working, ?_,
    fun frame uncoded => uncoded.code?⟩
  intro code text bytes written stream later starts
  obtain ⟨rest, read, left⟩ := Frame.read_of_encode written starts
  have fault := Frame.reportedFault_report code text
  have troubles := (working.dispatches (.report code text)).reported rfl
  rw [fault] at troubles
  exact ⟨.report code text, rest, read, left, fault, troubles⟩

/-- A link with one listener, for chats, and a frame in its queue. -/
def listening : Working Nat where
  link := { nodeId := "node", listeners := [(.chats, 5)], queue := some [.subscribe [7]] }

/-- A delivery on the topic calls the listener, one on another topic calls nobody, a report is read
back from two chunks, and a report with a number of three bytes counts as internal. -/
theorem dispatch_exact_listening :
    ((Work.dispatch (.deliver Topic.chats.nameBytes [1] none)).run listening).2.called =
        [(5, [1])] ∧
      ((Work.dispatch (.deliver Topic.accounts.nameBytes [1] none)).run listening).2.called = [] ∧
      (∃ frame rest, Frame.read { chunks :=
            [[0, 0, 0, 20, 0xF0, 8, 0, 0], [0, 2, 4, 3, 9, 0, 0, 0, 3, 111, 104, 33, 7]] } =
          (.frame frame, rest) ∧ rest.bytes = [7] ∧
        frame.reportedFault = .reported .readFailed "oh!") ∧
      ({ event := .error, errorCode := some [0, 4, 3] } : Frame).reportedFault.code? =
        some .internalServerError := by
  obtain ⟨handles, -, reads, uncoded⟩ := dispatch_exact listening
  have handed : (Frame.deliver Topic.chats.nameBytes [1] none).Hands listening.link.listeners 5
      [1] :=
    ⟨.chats, rfl, rfl, rfl, rfl⟩
  have unhanded : ∀ listener payload,
      ¬(Frame.deliver Topic.accounts.nameBytes [1] none).Hands listening.link.listeners listener
        payload := by
    rintro listener payload ⟨topic, -, named, -, heard⟩
    rw [← Topic.nameBytes_injective (Option.some.inj named)] at heard
    contradiction
  have written : (Frame.report .readFailed "oh!").encode =
      .ok [0, 0, 0, 20, 0xF0, 8, 0, 0, 0, 2, 4, 3, 9, 0, 0, 0, 3, 111, 104, 33] := by
    rfl
  obtain ⟨frame, rest, read, left, fault, -⟩ := reads _ _ _ written { chunks :=
    [[0, 0, 0, 20, 0xF0, 8, 0, 0], [0, 2, 4, 3, 9, 0, 0, 0, 3, 111, 104, 33, 7]] } [7] rfl
  exact ⟨((handles _).called_iff 5 [1]).2 handed, (handles _).uncalled unhanded,
    ⟨frame, rest, read, left, fault⟩, uncoded _ (.length rfl (by decide))⟩

end Link

end Fanout
