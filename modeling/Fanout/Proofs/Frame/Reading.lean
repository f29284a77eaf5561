import Fanout.Frame.Reader
import Fanout.Proofs.Frame.Encoding

/-!
# Frames from bytes, whatever the chunks

What one read gives is told from the bytes to come and how they end (`Reads`), and so is what
reading to the end gives (`ReadsAll`): the frames, the outcome that stopped the reading, and the
number of bytes taken. Reading a stream gives just that, in whatever chunks the bytes arrive
(`readAll_any_chunks`). In particular frames that are written one after the other are read back.
-/

namespace Fanout

namespace ByteStream

theorem ending_take? (n : Nat) (stream : ByteStream) :
    (stream.take? n).2.ending = stream.ending := by
  unfold take?
  split <;> rfl

theorem take?_of_le {n : Nat} {stream : ByteStream} (h : n ≤ stream.bytes.length) :
    ∃ rest, stream.take? n = (some (stream.bytes.take n), rest) ∧
      rest.bytes = stream.bytes.drop n ∧ rest.ending = stream.ending := by
  have taken := stream.take?_bytes n
  rw [Bytes.split?_eq, if_pos h, Prod.mk.injEq] at taken
  exact ⟨(stream.take? n).2, Prod.ext taken.1 rfl, taken.2, stream.ending_take? n⟩

theorem take?_of_lt {n : Nat} {stream : ByteStream} (h : stream.bytes.length < n) :
    ∃ rest, stream.take? n = (none, rest) ∧ rest.bytes = [] ∧ rest.ending = stream.ending := by
  have taken := stream.take?_bytes n
  rw [Bytes.split?_eq, if_neg (Nat.not_le.2 h), Prod.mk.injEq] at taken
  exact ⟨(stream.take? n).2, Prod.ext taken.1 rfl, taken.2, stream.ending_take? n⟩

end ByteStream

namespace Frame

/-- The length that the first four bytes declare. -/
def declared (bytes : Bytes) : Nat :=
  Bytes.ofBigEndian (bytes.take 4)

/-- Whether a length prefix stands before the bytes, and declares a length that is allowed. -/
structure Announced (bytes : Bytes) : Prop where
  whole : 4 ≤ bytes.length
  least : 5 ≤ declared bytes
  most : declared bytes ≤ limit

theorem declared_append {bytes : Bytes} (whole : 4 ≤ bytes.length) (more : Bytes) :
    declared (bytes ++ more) = declared bytes := by
  rw [declared, List.take_append_of_le_length whole, declared]

theorem Announced.append {bytes : Bytes} (h : Announced bytes) (more : Bytes) :
    Announced (bytes ++ more) where
  whole := by
    rw [List.length_append]
    exact Nat.le_add_right_of_le h.whole
  least := by
    rw [declared_append h.whole]
    exact h.least
  most := by
    rw [declared_append h.whole]
    exact h.most

theorem take_declared_append {bytes : Bytes} (h : Announced bytes)
    (enough : declared bytes ≤ bytes.length) (more : Bytes) :
    (bytes ++ more).take (declared (bytes ++ more)) = bytes.take (declared bytes) := by
  rw [declared_append h.whole, List.take_append_of_le_length enough]

/-- Bytes that are a frame declare their own number. -/
theorem declared_of_parse {raw : Bytes} {frame : Frame} (h : parse raw = .ok frame) :
    5 ≤ raw.length ∧ declared raw = raw.length := by
  unfold parse at h
  split at h
  next a b c d tag body =>
    dsimp only at h
    split at h
    · contradiction
    next number => exact ⟨by simp, Decidable.of_not_not number⟩
  next => contradiction

theorem announced_of_parse {raw : Bytes} {frame : Frame} (h : parse raw = .ok frame)
    (small : raw.length ≤ limit) : Announced raw := by
  obtain ⟨header, length⟩ := declared_of_parse h
  exact ⟨by omega, by omega, by omega⟩

/-- What one read gives for the bytes to come and how they end, and the number of bytes it takes. -/
inductive Reads (ending : Ending) (bytes : Bytes) : Read → Nat → Prop
  /-- A clean end before the length prefix is complete is the end of the frames. -/
  | ended : bytes.length < 4 → ending = .closed → Reads ending bytes .ended bytes.length
  | headerUnread (reason : String) :
    bytes.length < 4 → ending = .failed reason →
      Reads ending bytes (.failed (.headerUnread reason)) bytes.length
  | lengthBelowHeader :
    4 ≤ bytes.length → declared bytes < 5 →
      Reads ending bytes (.failed (.lengthBelowHeader (declared bytes))) 4
  | lengthAboveLimit :
    4 ≤ bytes.length → limit < declared bytes →
      Reads ending bytes (.failed (.lengthAboveLimit (declared bytes))) 4
  | bodyUnread :
    Announced bytes → bytes.length < declared bytes →
      Reads ending bytes (.failed (.bodyUnread ending.reason)) bytes.length
  | frame (frame : Frame) :
    Announced bytes → declared bytes ≤ bytes.length →
      parse (bytes.take (declared bytes)) = .ok frame →
        Reads ending bytes (.frame frame) (declared bytes)
  | refused (fault : Fault) :
    Announced bytes → declared bytes ≤ bytes.length →
      parse (bytes.take (declared bytes)) = .error fault →
        Reads ending bytes (.failed fault) (declared bytes)

/-- What reading until the end or a fault gives: the frames, the outcome that stops the reading, and
the number of bytes taken. -/
inductive ReadsAll (ending : Ending) : Bytes → List Frame → Read → Nat → Prop
  | stop {bytes : Bytes} {outcome : Read} {taken : Nat} :
    Reads ending bytes outcome taken → (∀ frame, outcome ≠ .frame frame) →
      ReadsAll ending bytes [] outcome taken
  | next {bytes : Bytes} {frame : Frame} {frames : List Frame} {outcome : Read} {taken more : Nat} :
    Reads ending bytes (.frame frame) taken →
      ReadsAll ending (bytes.drop taken) frames outcome more →
        ReadsAll ending bytes (frame :: frames) outcome (taken + more)

/-- The bytes to come and how they end tell what one read gives. -/
theorem Reads.unique {ending : Ending} {bytes : Bytes} {first second : Read} {n m : Nat}
    (a : Reads ending bytes first n) (b : Reads ending bytes second m) :
    first = second ∧ n = m := by
  cases a <;> cases b <;> grind [Announced, limit]

theorem ReadsAll.unique {ending : Ending} {bytes : Bytes} {first second : List Frame}
    {outcome other : Read} {n m : Nat} (a : ReadsAll ending bytes first outcome n)
    (b : ReadsAll ending bytes second other m) : first = second ∧ outcome = other ∧ n = m := by
  induction a generalizing second m with
  | stop reads noFrame =>
    cases b with
    | stop reads' _ =>
      obtain ⟨rfl, rfl⟩ := reads.unique reads'
      exact ⟨rfl, rfl, rfl⟩
    | next reads' _ => exact absurd (reads.unique reads').1 (noFrame _)
  | next reads _ ih =>
    cases b with
    | stop reads' noFrame => exact absurd (reads'.unique reads).1 (noFrame _)
    | next reads' later =>
      obtain ⟨same, rfl⟩ := reads.unique reads'
      obtain ⟨rfl, rfl, rfl⟩ := ih later
      exact ⟨by rw [Read.frame.inj same], rfl, rfl⟩

/-- Whether an outcome of reading a stream, the number of bytes taken and the rest of the stream are
what the bytes to come and their ending tell. -/
structure Answers (stream : ByteStream) (outcome : Read) (taken : Nat) (rest : ByteStream) :
    Prop where
  reads : Reads stream.ending stream.bytes outcome taken
  within : taken ≤ stream.bytes.length
  left : rest.bytes = stream.bytes.drop taken
  ending : rest.ending = stream.ending

theorem answers_of_cut {stream : ByteStream} (short : stream.bytes.length < 4) :
    ∃ outcome rest, read stream = (outcome, rest) ∧
      Answers stream outcome stream.bytes.length rest := by
  obtain ⟨rest, cut, nothing, sameEnding⟩ := ByteStream.take?_of_lt short
  have left : rest.bytes = stream.bytes.drop stream.bytes.length := by simp [nothing]
  cases ending : rest.ending with
  | closed =>
    have closed := sameEnding.symm.trans ending
    exact ⟨.ended, rest, by simp only [read, cut, ending],
      .ended short closed, Nat.le_refl _, left, sameEnding⟩
  | failed reason =>
    have failed := sameEnding.symm.trans ending
    exact ⟨.failed (.headerUnread reason), rest, by simp only [read, cut, ending],
      .headerUnread reason short failed, Nat.le_refl _, left, sameEnding⟩

/-- Behind a length prefix, reading a frame is a matter of the length that it declares. -/
theorem read_eq_of_prefix {stream rest : ByteStream}
    (prefixed : stream.take? 4 = (some (stream.bytes.take 4), rest)) :
    read stream =
      if declared stream.bytes < 5 then
        (.failed (.lengthBelowHeader (declared stream.bytes)), rest)
      else if limit < declared stream.bytes then
        (.failed (.lengthAboveLimit (declared stream.bytes)), rest)
      else
        match rest.take? (declared stream.bytes - 4) with
        | (none, rest) => (.failed (.bodyUnread rest.ending.reason), rest)
        | (some body, rest) =>
          match parse (stream.bytes.take 4 ++ body) with
          | .ok frame => (.frame frame, rest)
          | .error fault => (.failed fault, rest) := by
  rw [read, prefixed]
  rfl

theorem answers_of_announced {stream : ByteStream} (announced : Announced stream.bytes) :
    ∃ outcome rest taken, read stream = (outcome, rest) ∧ Answers stream outcome taken rest := by
  have whole := announced.whole
  have least := announced.least
  obtain ⟨rest, prefixed, left, sameEnding⟩ := ByteStream.take?_of_le whole
  have size : rest.bytes.length = stream.bytes.length - 4 := by rw [left, List.length_drop]
  have unfolded := read_eq_of_prefix prefixed
  rw [if_neg (Nat.not_lt.2 least), if_neg (Nat.not_lt.2 announced.most)] at unfolded
  by_cases enough : declared stream.bytes ≤ stream.bytes.length
  · have bodyFits : declared stream.bytes - 4 ≤ rest.bytes.length := by omega
    obtain ⟨behind, bodied, left', sameEnding'⟩ := ByteStream.take?_of_le bodyFits
    have body : stream.bytes.take 4 ++ rest.bytes.take (declared stream.bytes - 4) =
        stream.bytes.take (declared stream.bytes) := by
      rw [left, ← List.take_add]
      congr 1
      omega
    have drop : behind.bytes = stream.bytes.drop (declared stream.bytes) := by
      rw [left', left, List.drop_drop]
      congr 1
      omega
    have ends := sameEnding'.trans sameEnding
    simp only [bodied, body] at unfolded
    cases parsed : parse (stream.bytes.take (declared stream.bytes)) with
    | ok frame =>
      simp only [parsed] at unfolded
      exact ⟨_, behind, _, unfolded, .frame frame announced enough parsed, enough, drop, ends⟩
    | error fault =>
      simp only [parsed] at unfolded
      exact ⟨_, behind, _, unfolded, .refused fault announced enough parsed, enough, drop, ends⟩
  · have bodyCut : rest.bytes.length < declared stream.bytes - 4 := by omega
    obtain ⟨behind, cut, nothing, sameEnding'⟩ := ByteStream.take?_of_lt bodyCut
    have ends := sameEnding'.trans sameEnding
    have drop : behind.bytes = stream.bytes.drop stream.bytes.length := by simp [nothing]
    simp only [cut, ends] at unfolded
    exact ⟨_, behind, _, unfolded, .bodyUnread announced (Nat.not_le.1 enough), Nat.le_refl _,
      drop, ends⟩

/-- One read of a stream gives what its bytes and its ending tell, and leaves the other bytes. -/
theorem exists_answers (stream : ByteStream) :
    ∃ outcome rest taken, read stream = (outcome, rest) ∧ Answers stream outcome taken rest := by
  by_cases whole : 4 ≤ stream.bytes.length
  · obtain ⟨rest, prefixed, left, sameEnding⟩ := ByteStream.take?_of_le whole
    have unfolded := read_eq_of_prefix prefixed
    by_cases low : declared stream.bytes < 5
    · rw [if_pos low] at unfolded
      exact ⟨_, rest, 4, unfolded, .lengthBelowHeader whole low, whole, left, sameEnding⟩
    · by_cases high : limit < declared stream.bytes
      · rw [if_neg low, if_pos high] at unfolded
        exact ⟨_, rest, 4, unfolded, .lengthAboveLimit whole high, whole, left, sameEnding⟩
      · exact answers_of_announced ⟨whole, Nat.not_lt.1 low, Nat.not_lt.1 high⟩
  · obtain ⟨outcome, rest, reads, answers⟩ := answers_of_cut (Nat.not_le.1 whole)
    exact ⟨outcome, rest, _, reads, answers⟩

theorem readAll_of_not_frame {stream rest : ByteStream} {outcome : Read}
    (h : read stream = (outcome, rest)) (noFrame : ∀ frame, outcome ≠ .frame frame) :
    readAll stream = ([], outcome, rest) := by
  rw [readAll, readOnto]
  split
  next frame _ reads =>
    rw [h, Prod.mk.injEq] at reads
    exact absurd reads.1 (noFrame frame)
  next other _ reads =>
    rw [h, Prod.mk.injEq] at reads
    rw [reads.1, reads.2]
    rfl

/-- Reading a stream to the end gives what its bytes and its ending tell, and leaves the bytes that
were not taken. -/
theorem exists_readsAll (stream : ByteStream) :
    ∃ frames outcome rest taken, readAll stream = (frames, outcome, rest) ∧
      ReadsAll stream.ending stream.bytes frames outcome taken ∧ taken ≤ stream.bytes.length ∧
      rest.bytes = stream.bytes.drop taken := by
  induction size : stream.size using Nat.strongRecOn generalizing stream with
  | ind n ih =>
    obtain ⟨outcome, rest, taken, reads, answers⟩ := exists_answers stream
    by_cases isFrame : ∃ frame, outcome = .frame frame
    · obtain ⟨frame, rfl⟩ := isFrame
      have smaller : rest.size < n := size ▸ read_size_lt reads
      obtain ⟨frames, outcome, behind, more, all, readsAll, within, left⟩ :=
        ih rest.size smaller rest rfl
      rw [answers.ending, answers.left] at readsAll
      rw [answers.left, List.length_drop] at within
      rw [answers.left, List.drop_drop] at left
      have first := answers.within
      exact ⟨frame :: frames, outcome, behind, taken + more, by rw [readAll_of_frame reads, all],
        .next answers.reads readsAll, by omega, left⟩
    · have noFrame : ∀ frame, outcome ≠ .frame frame := fun frame same => isFrame ⟨frame, same⟩
      exact ⟨[], outcome, rest, taken, readAll_of_not_frame reads noFrame,
        .stop answers.reads noFrame, answers.within, answers.left⟩

/-- A frame within the limit is read from the bytes that it starts, whatever follows. -/
theorem reads_of_parse {raw : Bytes} {frame : Frame} (h : parse raw = .ok frame)
    (small : raw.length ≤ limit) (ending : Ending) (later : Bytes) :
    Reads ending (raw ++ later) (.frame frame) raw.length := by
  have announced := announced_of_parse h small
  have length := (declared_of_parse h).2
  have prefixed : declared (raw ++ later) = raw.length := by
    rw [declared_append announced.whole, length]
  have enough : declared (raw ++ later) ≤ (raw ++ later).length := by
    rw [prefixed, List.length_append]
    exact Nat.le_add_right _ _
  have parsed : parse ((raw ++ later).take (declared (raw ++ later))) = .ok frame := by
    rw [prefixed, List.take_left' rfl, h]
  have reads : Reads ending (raw ++ later) (.frame frame) (declared (raw ++ later)) :=
    .frame frame (announced.append later) enough parsed
  rwa [prefixed] at reads

/-- A frame that was written is read from the bytes that it starts, whatever follows. -/
theorem reads_encode {frame : Frame} {bytes : Bytes} (h : frame.encode = .ok bytes)
    (ending : Ending) (later : Bytes) :
    Reads ending (bytes ++ later) (.frame frame) bytes.length :=
  reads_of_parse (parse_encode h) (length_encode h ▸ size_le_limit_of_encode h) ending later

/-- Frames that were written one after the other are read to the end. -/
theorem readsAll_encodings {frames : List Frame} {wires : List Bytes}
    (written : frames.map encode = wires.map .ok) :
    ReadsAll .closed wires.flatten frames .ended wires.flatten.length := by
  induction frames generalizing wires with
  | nil =>
    obtain rfl : wires = [] := by simpa using written.symm
    exact .stop (.ended (by decide) rfl) (by simp)
  | cons frame frames ih =>
    cases wires with
    | nil => simp at written
    | cons bytes wires =>
      rw [List.map_cons, List.map_cons, List.cons.injEq] at written
      have first := reads_encode written.1 .closed wires.flatten
      have others := ih written.2
      rw [List.flatten_cons, List.length_append]
      apply ReadsAll.next first
      rwa [List.drop_left' rfl]

/-- The bytes to come and how they end tell which frames are read from them, what stops the reading
and how many bytes it takes, in whatever chunks the bytes arrive. Where the bytes are frames written
one after the other and end cleanly, these frames are read and all bytes are taken. A length below
the header's is malformed, one above the limit is too large, and a body that is cut short cannot be
read. -/
theorem readAll_any_chunks (bytes : Bytes) (ending : Ending) :
    ∃ frames outcome taken, ReadsAll ending bytes frames outcome taken ∧ taken ≤ bytes.length ∧
      (∀ chunks : List Bytes, chunks.flatten = bytes →
        ∃ rest, readAll { chunks, ending } = (frames, outcome, rest) ∧
          rest.bytes = bytes.drop taken) ∧
      (∀ (messages : List Frame) (wires : List Bytes), messages.map encode = wires.map .ok →
        wires.flatten = bytes → ending = .closed →
          frames = messages ∧ outcome = .ended ∧ taken = bytes.length) ∧
      ∀ (length : Nat) (reason : String),
        (Fault.lengthBelowHeader length).code = .malformedTlv ∧
          (Fault.lengthAboveLimit length).code = .frameTooLarge ∧
          (Fault.bodyUnread reason).code = .readFailed := by
  obtain ⟨frames, outcome, -, taken, -, readsAll, within, -⟩ :=
    exists_readsAll { chunks := [bytes], ending }
  have whole : ByteStream.bytes { chunks := [bytes], ending } = bytes := by
    simp [ByteStream.bytes]
  rw [whole] at readsAll within
  refine ⟨frames, outcome, taken, readsAll, within, ?_, ?_, fun _ _ => ⟨rfl, rfl, rfl⟩⟩
  · rintro chunks rfl
    obtain ⟨frames', outcome', rest, taken', all, readsAll', -, left⟩ :=
      exists_readsAll { chunks, ending }
    obtain ⟨rfl, rfl, rfl⟩ := readsAll'.unique readsAll
    exact ⟨rest, all, left⟩
  · rintro messages wires written rfl rfl
    exact readsAll.unique (readsAll_encodings written)

/-- A listing and an acknowledgement, cut inside the first length prefix and inside the topic. -/
theorem readAll_any_chunks_listing :
    ∃ rest, readAll { chunks :=
          [[0, 0], [0, 12, 0x11, 1, 0, 0, 0, 2, 104], [105, 0], [0, 0, 5, 0xF1]] } =
        ([.subscribe [104, 105], { event := .ok }], .ended, rest) ∧ rest.bytes = [] := by
  obtain ⟨frames, outcome, taken, -, -, any, messages, -⟩ :=
    readAll_any_chunks [0, 0, 0, 12, 0x11, 1, 0, 0, 0, 2, 104, 105, 0, 0, 0, 5, 0xF1] .closed
  obtain ⟨rfl, rfl, rfl⟩ := messages [.subscribe [104, 105], { event := .ok }]
    [[0, 0, 0, 12, 0x11, 1, 0, 0, 0, 2, 104, 105], [0, 0, 0, 5, 0xF1]] rfl rfl rfl
  exact any [[0, 0], [0, 12, 0x11, 1, 0, 0, 0, 2, 104], [105, 0], [0, 0, 5, 0xF1]] rfl

end Frame

end Fanout
