import Fanout.Hub.Server
import Fanout.Proofs.Hub.Course

/-!
# What stands next in an inbox

A turn of a connection handles a frame, ends the connection or does nothing (`Inbox.next`,
`turn_eq`), and with that follows the course that its input takes, whatever bytes still come
(`course_next`).
-/

namespace Fanout

/-- What stands next in an inbox. -/
inductive Inbox.Next
  /-- A frame that the hub handles, and the bytes behind it. -/
  | frame (frame : Frame) (rest : Bytes)
  /-- A fault that ends the connection. -/
  | fault (fault : Fault)
  /-- The clean end of the connection. -/
  | closed
  /-- Nothing as long as no more bytes come. -/
  | nothing

/-- The input that has arrived, with its end if that is known. -/
def Inbox.stream (inbox : Inbox) : ByteStream :=
  { chunks := [inbox.bytes], ending := inbox.ending.getD .closed }

/-- What stands next in an inbox. -/
def Inbox.next (inbox : Inbox) : Next :=
  let (outcome, rest) := Frame.read inbox.stream
  if inbox.ending.isNone && outcome.waits then .nothing
  else
    match outcome with
    | .frame given =>
      match given.refusal? with
      | some refusal => .fault refusal
      | none => .frame given rest.bytes
    | .ended => .closed
    | .failed failure => .fault failure

namespace Server

variable {server : Server} {c : ConnectionId}

/-- A turn of a connection does what stands next in its inbox. -/
theorem turn_eq {inbox : Inbox} (h : Table.get? server.inboxes c = some inbox) :
    server.turn c =
      match inbox.next with
      | .frame frame rest =>
        (server.hub.forwards frame,
          { hub := server.hub.heed c frame
            inboxes := Table.set server.inboxes c { inbox with bytes := rest } })
      | .fault fault => server.refuse c fault
      | .closed => ([], server.close c)
      | .nothing => ([], server) := by
  obtain ⟨bytes, ending⟩ := inbox
  obtain ⟨outcome, rest, read⟩ : ∃ outcome rest,
      Frame.read { chunks := [bytes], ending := ending.getD .closed } = (outcome, rest) :=
    ⟨_, _, rfl⟩
  simp only [turn, Inbox.next, Inbox.stream, h, read]
  cases outcome with
  | frame frame =>
    simp only [Hub.handle_eq, Frame.Read.waits, Bool.and_false]
    cases frame.refusal? <;> rfl
  | ended => cases ending <;> rfl
  | failed fault => cases fault <;> cases ending <;> rfl

end Server

namespace Inbox

variable {inbox : Inbox}

/-- What the next read of an inbox gives is told by its bytes; that decides what stands next. -/
theorem exists_reads (inbox : Inbox) :
    ∃ outcome n, Frame.Reads (inbox.ending.getD .closed) inbox.bytes outcome n ∧
      inbox.next =
        if inbox.ending.isNone && outcome.waits then .nothing
        else
          match outcome with
          | .frame given =>
            match given.refusal? with
            | some refusal => .fault refusal
            | none => .frame given (inbox.bytes.drop n)
          | .ended => .closed
          | .failed failure => .fault failure := by
  obtain ⟨outcome, rest, n, read, answers⟩ := Frame.exists_answers inbox.stream
  have whole : inbox.stream.bytes = inbox.bytes := by simp [stream, ByteStream.bytes]
  have reads := answers.reads
  have left := answers.left
  rw [whole] at reads left
  exact ⟨outcome, n, reads, by simp only [next, read, left]⟩

/-- What comes of input if this stands next and more bytes come behind it. If nothing stands next
then that is told by the whole input. -/
def Next.course (whole : Course) (more : Bytes) (ending : Ending) : Next → Course
  | .frame given rest => (Course.of (rest ++ more) ending).behind [given]
  | .fault refusal => { handled := [], fault := some refusal }
  | .closed => { handled := [], fault := none }
  | .nothing => whole

/-- What stands next in an inbox is the next part of the course that the input takes. -/
theorem course_next (inbox : Inbox) {more : Bytes} {ending : Ending}
    (continues : Frame.Continues inbox.ending more ending) :
    Course.of (inbox.bytes ++ more) ending =
      inbox.next.course (Course.of (inbox.bytes ++ more) ending) more ending := by
  obtain ⟨outcome, n, reads, next⟩ := inbox.exists_reads
  by_cases waiting : (inbox.ending.isNone && outcome.waits) = true
  · rw [next, if_pos waiting, Next.course]
  · have settled : inbox.ending = none → outcome.waits = false := by
      intro unknown
      simpa [unknown] using waiting
    have reads' := reads.extend settled continues
    rw [next, if_neg waiting]
    cases outcome with
    | frame frame =>
      dsimp only
      cases refused : frame.refusal? with
      | some fault => exact Course.of_refused reads' refused
      | none =>
        rw [Course.of_frame reads' refused, List.drop_append_of_le_length reads.within, Next.course]
    | ended => exact Course.of_ended reads'
    | failed fault => exact Course.of_failed reads'

/-- A frame that stands next was read from the bytes, and what is left stands behind it. -/
theorem reads_of_next {frame : Frame} {rest : Bytes} (h : inbox.next = .frame frame rest) :
    ∃ n, Frame.Reads (inbox.ending.getD .closed) inbox.bytes (.frame frame) n ∧
      rest = inbox.bytes.drop n := by
  obtain ⟨outcome, n, reads, next⟩ := inbox.exists_reads
  rw [next] at h
  split at h
  · contradiction
  · cases outcome with
    | frame given =>
      dsimp only at h
      split at h
      · contradiction
      · obtain ⟨rfl, rfl⟩ := Next.frame.inj h
        exact ⟨n, reads, rfl⟩
    | _ => contradiction

theorem length_rest_lt {frame : Frame} {rest : Bytes} (h : inbox.next = .frame frame rest) :
    rest.length < inbox.bytes.length := by
  obtain ⟨n, reads, rfl⟩ := reads_of_next h
  rw [List.length_drop]
  have := reads.pos
  have := reads.within
  omega

/-- If nothing stands next then the end of the input is not known, and were it to end here, then
either cleanly or for want of the rest of a frame. -/
theorem of_next_nothing (h : inbox.next = .nothing) :
    inbox.ending = none ∧ (Course.of inbox.bytes .closed).handled = [] ∧
      ∀ fault ∈ (Course.of inbox.bytes .closed).fault, ∃ reason, fault = .bodyUnread reason := by
  obtain ⟨outcome, n, reads, next⟩ := inbox.exists_reads
  rw [next] at h
  split at h
  next waiting =>
    obtain ⟨unknown, waits⟩ := Bool.and_eq_true_iff.1 waiting
    have unknown := Option.isNone_iff_eq_none.1 unknown
    rw [unknown, Option.getD_none] at reads
    refine ⟨unknown, ?_⟩
    cases outcome with
    | frame => contradiction
    | ended =>
      rw [Course.of_ended reads]
      simp
    | failed fault =>
      rw [Course.of_failed reads]
      cases fault with
      | bodyUnread reason => simp
      | _ => contradiction
  next =>
    cases outcome with
    | frame given =>
      dsimp only at h
      split at h <;> contradiction
    | _ => contradiction

end Inbox

end Fanout
