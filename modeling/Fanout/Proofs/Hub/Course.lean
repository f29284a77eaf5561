import Fanout.Proofs.Frame.Reading
import Fanout.Proofs.Hub.Handling

/-!
# What comes of a connection's input

The bytes of a connection and how they end tell which frames the hub handles and which fault, if
any, ends the connection: frames are handled up to the first that is refused, or else up to where
reading stops (`Course.of`). What was read without waiting for more bytes is read just so whatever
comes behind it (`Reads.extend`), so that the course can be followed one read at a time while bytes
still come.
-/

namespace Fanout

namespace Frame

/-- Whether reading stopped only because the bytes did: with more of them it might have gone on. -/
def Read.waits : Read → Bool
  | .ended => true
  | .failed (.bodyUnread _) => true
  | _ => false

/-- What may still come of the input of a connection of which an end is known or not: more bytes and
some end, or nothing but the end that is known. -/
def Continues (known : Option Ending) (more : Bytes) (ending : Ending) : Prop :=
  ∀ last, known = some last → more = [] ∧ ending = last

theorem Continues.nothing (known : Option Ending) : Continues known [] (known.getD .closed) := by
  rintro last rfl
  exact ⟨rfl, rfl⟩

theorem continues_none (more : Bytes) (ending : Ending) : Continues none more ending := by
  rintro last known
  contradiction

theorem Reads.within {ending : Ending} {bytes : Bytes} {outcome : Read} {n : Nat}
    (h : Reads ending bytes outcome n) : n ≤ bytes.length := by
  cases h with
  | ended | headerUnread | bodyUnread => exact Nat.le_refl _
  | lengthBelowHeader whole | lengthAboveLimit whole => exact whole
  | frame _ _ enough | refused _ _ enough => exact enough

theorem Reads.pos {ending : Ending} {bytes : Bytes} {frame : Frame} {n : Nat}
    (h : Reads ending bytes (.frame frame) n) : 0 < n := by
  cases h with
  | frame _ announced => exact Nat.lt_of_lt_of_le (by decide) announced.least

/-- What was read without waiting for more bytes is read just so with more bytes, however they
end. -/
theorem Reads.append {bytes : Bytes} {outcome : Read} {n : Nat} (h : Reads .closed bytes outcome n)
    (settled : outcome.waits = false) (more : Bytes) (ending : Ending) :
    Reads ending (bytes ++ more) outcome n := by
  have longer : bytes.length ≤ (bytes ++ more).length := by simp
  cases h with
  | ended | bodyUnread => contradiction
  | headerUnread _ _ failed => contradiction
  | lengthBelowHeader whole low =>
    rw [← declared_append whole more] at low ⊢
    exact .lengthBelowHeader (Nat.le_trans whole longer) low
  | lengthAboveLimit whole high =>
    rw [← declared_append whole more] at high ⊢
    exact .lengthAboveLimit (Nat.le_trans whole longer) high
  | frame frame announced enough parsed =>
    rw [← take_declared_append announced enough more] at parsed
    rw [← declared_append announced.whole more] at enough ⊢
    exact .frame frame (announced.append more) (Nat.le_trans enough longer) parsed
  | refused fault announced enough parsed =>
    rw [← take_declared_append announced enough more] at parsed
    rw [← declared_append announced.whole more] at enough ⊢
    exact .refused fault (announced.append more) (Nat.le_trans enough longer) parsed

/-- What a read gives before the end of the input is known, unless it waits, and what it gives
afterwards, it gives however the input continues. -/
theorem Reads.extend {known : Option Ending} {bytes more : Bytes} {ending : Ending} {outcome : Read}
    {n : Nat} (h : Reads (known.getD .closed) bytes outcome n)
    (settled : known = none → outcome.waits = false) (continues : Continues known more ending) :
    Reads ending (bytes ++ more) outcome n := by
  cases known with
  | none => exact h.append (settled rfl) more ending
  | some last =>
    obtain ⟨rfl, rfl⟩ := continues last rfl
    rwa [List.append_nil]

/-- Whether reading stopped because the bytes did, be it within a length prefix. -/
def Read.Cut (outcome : Read) : Prop :=
  outcome = .ended ∨ ∃ reason,
    outcome = .failed (.headerUnread reason) ∨ outcome = .failed (.bodyUnread reason)

theorem exists_reads_of_short {bytes : Bytes} (short : bytes.length < 4) (ending : Ending) :
    ∃ outcome n, Reads ending bytes outcome n ∧ outcome.Cut := by
  cases ending with
  | closed => exact ⟨_, _, .ended short rfl, .inl rfl⟩
  | failed reason => exact ⟨_, _, .headerUnread reason short rfl, .inr ⟨reason, .inl rfl⟩⟩

/-- Where the bytes stop within a frame that was written, reading stops because they do. -/
theorem exists_reads_of_part {frame : Frame} {bytes front later : Bytes}
    (encoded : frame.encode = .ok bytes) (part : front ++ later = bytes) (missing : later ≠ [])
    (ending : Ending) : ∃ outcome n, Reads ending front outcome n ∧ outcome.Cut := by
  by_cases short : front.length < 4
  · exact exists_reads_of_short short ending
  · have whole : 4 ≤ front.length := Nat.not_lt.1 short
    have small : bytes.length ≤ limit := length_encode encoded ▸ size_le_limit_of_encode encoded
    have length : declared front = bytes.length := by
      rw [← declared_append whole later, part, (declared_of_parse (parse_encode encoded)).2]
    have header := (declared_of_parse (parse_encode encoded)).1
    have announced : Announced front := ⟨whole, by omega, by omega⟩
    have enough : front.length < declared front := by
      have := List.length_pos_iff.2 missing
      rw [length, ← part, List.length_append]
      omega
    exact ⟨_, _, .bodyUnread announced enough, .inr ⟨_, .inr rfl⟩⟩

end Frame

/-- What comes of a connection's input. -/
@[ext]
structure Course where
  /-- The frames that the hub handles, in order. -/
  handled : List Frame
  /-- The fault that ends the connection, if one does. -/
  fault : Option Fault
  deriving DecidableEq, Repr

namespace Course

/-- The course with frames handled before. -/
def behind (frames : List Frame) (course : Course) : Course :=
  { course with handled := frames ++ course.handled }

/-- What comes of frames behind which reading stops with an outcome. -/
def ofFrames : List Frame → Frame.Read → Course
  | [], .failed fault => { handled := [], fault := some fault }
  | [], _ => { handled := [], fault := none }
  | frame :: frames, last =>
    match frame.refusal? with
    | some fault => { handled := [], fault := some fault }
    | none => (ofFrames frames last).behind [frame]

/-- What comes of a stream of input. -/
def ofStream (input : ByteStream) : Course :=
  ofFrames (Frame.readAll input).1 (Frame.readAll input).2.1

/-- What comes of bytes and their end. -/
def of (bytes : Bytes) (ending : Ending) : Course :=
  ofStream { chunks := [bytes], ending }

@[simp] theorem behind_behind (first second : List Frame) (course : Course) :
    (course.behind second).behind first = course.behind (first ++ second) := by
  simp [behind]

/-- What comes of a stream does not depend on its chunks. -/
theorem ofStream_eq (input : ByteStream) : ofStream input = of input.bytes input.ending := by
  obtain ⟨frames, outcome, rest, taken, all, readsAll, -⟩ := Frame.exists_readsAll input
  obtain ⟨frames', outcome', rest', taken', all', readsAll', -⟩ :=
    Frame.exists_readsAll { chunks := [input.bytes], ending := input.ending }
  have bytes : ByteStream.bytes { chunks := [input.bytes], ending := input.ending } =
      input.bytes := by simp [ByteStream.bytes]
  rw [bytes] at readsAll'
  obtain ⟨rfl, rfl, rfl⟩ := readsAll'.unique readsAll
  simp only [of, ofStream, all, all']

variable {bytes : Bytes} {ending : Ending} {n : Nat}

/-- One read of bytes gives what they tell, and the stream that is left. -/
theorem exists_read {outcome : Frame.Read} (reads : Frame.Reads ending bytes outcome n) :
    ∃ rest, Frame.read { chunks := [bytes], ending } = (outcome, rest) ∧
      rest.bytes = bytes.drop n ∧ rest.ending = ending := by
  obtain ⟨outcome', rest, taken, eq, answers⟩ :=
    Frame.exists_answers { chunks := [bytes], ending }
  have whole : ByteStream.bytes { chunks := [bytes], ending } = bytes := by
    simp [ByteStream.bytes]
  have reads' := answers.reads
  have left := answers.left
  rw [whole] at reads' left
  obtain ⟨rfl, rfl⟩ := reads'.unique reads
  exact ⟨rest, eq, left, answers.ending⟩

theorem of_frame {frame : Frame} (reads : Frame.Reads ending bytes (.frame frame) n)
    (accepted : frame.refusal? = none) :
    of bytes ending = (of (bytes.drop n) ending).behind [frame] := by
  obtain ⟨rest, read, left, sameEnding⟩ := exists_read reads
  have next : ofStream rest = of (bytes.drop n) ending := by rw [ofStream_eq, left, sameEnding]
  rw [of, ofStream, Frame.readAll_of_frame read, ofFrames, accepted, ← next]
  rfl

theorem of_refused {frame : Frame} {fault : Fault}
    (reads : Frame.Reads ending bytes (.frame frame) n) (refused : frame.refusal? = some fault) :
    of bytes ending = { handled := [], fault := some fault } := by
  obtain ⟨rest, read, -⟩ := exists_read reads
  rw [of, ofStream, Frame.readAll_of_frame read, ofFrames, refused]

theorem of_failed {fault : Fault} (reads : Frame.Reads ending bytes (.failed fault) n) :
    of bytes ending = { handled := [], fault := some fault } := by
  obtain ⟨rest, read, -⟩ := exists_read reads
  rw [of, ofStream, Frame.readAll_of_not_frame read (by simp)]
  rfl

theorem of_ended (reads : Frame.Reads ending bytes .ended n) :
    of bytes ending = { handled := [], fault := none } := by
  obtain ⟨rest, read, -⟩ := exists_read reads
  rw [of, ofStream, Frame.readAll_of_not_frame read (by simp)]
  rfl

/-- The connection ends without a fault, or because its bytes could not be read on. -/
def Unfaulted (course : Course) : Prop :=
  ∀ fault ∈ course.fault, ∃ reason, fault = .headerUnread reason ∨ fault = .bodyUnread reason

theorem of_cut {outcome : Frame.Read} (reads : Frame.Reads ending bytes outcome n)
    (cut : outcome.Cut) : (of bytes ending).handled = [] ∧ (of bytes ending).Unfaulted := by
  obtain rfl | ⟨reason, rfl | rfl⟩ := cut
  · rw [of_ended reads]
    exact ⟨rfl, by simp [Unfaulted]⟩
  · rw [of_failed reads]
    exact ⟨rfl, by simp [Unfaulted]⟩
  · rw [of_failed reads]
    exact ⟨rfl, by simp [Unfaulted]⟩

/-- What comes of a first part of frames that were written and are accepted: some of them are
handled, and there is no fault but that the last one is cut. -/
theorem of_front {frames : List Frame} {wires : List Bytes}
    (written : frames.map Frame.encode = wires.map .ok)
    (accepted : ∀ frame ∈ frames, frame.refusal? = none) (front : bytes <+: wires.flatten)
    (ending : Ending) :
    (of bytes ending).handled <+: frames ∧ (of bytes ending).Unfaulted := by
  induction frames generalizing wires bytes with
  | nil =>
    obtain rfl : wires = [] := by simpa using written.symm
    obtain rfl : bytes = [] := List.prefix_nil.1 front
    have short : ([] : Bytes).length < 4 := by decide
    obtain ⟨outcome, n, reads, cut⟩ := Frame.exists_reads_of_short short ending
    obtain ⟨handled, unfaulted⟩ := of_cut reads cut
    exact ⟨handled ▸ List.nil_prefix, unfaulted⟩
  | cons frame frames ih =>
    obtain ⟨first, others⟩ := List.forall_mem_cons.1 accepted
    cases wires with
    | nil => simp at written
    | cons wire wires =>
      rw [List.map_cons, List.map_cons, List.cons.injEq] at written
      obtain ⟨encoded, written⟩ := written
      -- the bytes stop within the first frame, or go on behind it
      by_cases within : ∃ later, later ≠ [] ∧ bytes ++ later = wire
      · obtain ⟨later, missing, part⟩ := within
        obtain ⟨outcome, n, reads, cut⟩ := Frame.exists_reads_of_part encoded part missing ending
        obtain ⟨handled, unfaulted⟩ := of_cut reads cut
        exact ⟨handled ▸ List.nil_prefix, unfaulted⟩
      · obtain ⟨behind, rfl, onward⟩ : ∃ behind, bytes = wire ++ behind ∧
            behind <+: wires.flatten := by
          obtain ⟨later, all⟩ := front
          obtain ⟨rest, part, -⟩ | ⟨behind, beyond, all⟩ := List.append_eq_append_iff.1 all
          · have complete : rest = [] := by
              by_contra missing
              exact within ⟨rest, missing, part.symm⟩
            rw [complete, List.append_nil] at part
            exact ⟨[], by rw [part, List.append_nil], List.nil_prefix⟩
          · exact ⟨behind, beyond, later, all.symm⟩
        obtain ⟨handled, unfaulted⟩ := ih written others onward
        rw [of_frame (Frame.reads_encode encoded ending behind) first, List.drop_left' rfl]
        exact ⟨(List.prefix_append_right_inj [frame]).2 handled, unfaulted⟩

/-- Frames that are accepted up to a clean end are all handled. -/
theorem ofFrames_of_accepted {frames : List Frame}
    (accepted : ∀ frame ∈ frames, frame.refusal? = none) :
    ofFrames frames .ended = { handled := frames, fault := none } := by
  induction frames with
  | nil => rfl
  | cons frame frames ih =>
    obtain ⟨first, others⟩ := List.forall_mem_cons.1 accepted
    rw [ofFrames, first, ih others]
    rfl

end Course

end Fanout
