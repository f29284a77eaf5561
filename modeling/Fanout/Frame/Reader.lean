import Fanout.Frame.Wire

/-!
# Frames from a stream

Bytes arrive in chunks of any size and then end or fail. Reading takes the four bytes of a length
prefix, refuses lengths outside the limits, and then takes the rest of the frame. A stream that ends
before the prefix is complete counts as ended. Reading all frames stops because every frame takes at
least its header from the stream (`read_size_lt`).
-/

namespace Fanout

/-- How a stream ends once its bytes are used up: cleanly, or with a failure. -/
inductive Ending
  | closed
  | failed (reason : String)
  deriving DecidableEq, Repr

namespace Ending

def reason : Ending → String
  | closed => "early eof"
  | failed reason => reason

end Ending

/-- The bytes still to come, in the portions in which they arrive. -/
structure ByteStream where
  chunks : List Bytes
  ending : Ending := .closed
  deriving DecidableEq, Repr

namespace ByteStream

def bytes (stream : ByteStream) : Bytes :=
  stream.chunks.flatten

def size (stream : ByteStream) : Nat :=
  stream.bytes.length

/-- Moves up to `n` bytes of a chunk onto `taken`, which holds its bytes reversed. The answer is the
number of bytes still wanted, the bytes taken and what is left of the chunk. -/
def drain : Nat → Bytes → Bytes → Nat × Bytes × Bytes
  | 0, taken, chunk => (0, taken, chunk)
  | n, taken, [] => (n, taken, [])
  | n + 1, taken, byte :: chunk => drain n (byte :: taken) chunk

def pull : Nat → Bytes → List Bytes → Option (Bytes × List Bytes)
  | 0, taken, chunks => some (taken.reverse, chunks)
  | _ + 1, _, [] => none
  | n + 1, taken, chunk :: chunks =>
    match drain (n + 1) taken chunk with
    | (0, taken, rest) => some (taken.reverse, rest :: chunks)
    | (wanted, taken, _) => pull wanted taken chunks

/-- Takes exactly `n` bytes off the stream; a stream with fewer is used up. -/
def take? (n : Nat) (stream : ByteStream) : Option Bytes × ByteStream :=
  match pull n [] stream.chunks with
  | some (taken, chunks) => (some taken, { stream with chunks })
  | none => (none, { stream with chunks := [] })

theorem drain_eq (n : Nat) (taken chunk : Bytes) :
    drain n taken chunk =
      (n - chunk.length, (chunk.take n).reverse ++ taken, chunk.drop n) := by
  induction n generalizing taken chunk with
  | zero => simp [drain]
  | succ n ih =>
    cases chunk with
    | nil => simp [drain]
    | cons byte chunk => simp [drain, ih, Nat.add_sub_add_right]

/-- Taking bytes depends on the bytes to come and not on how they are split into chunks. -/
theorem pull_eq (n : Nat) (taken : Bytes) (chunks : List Bytes) :
    (pull n taken chunks).map (fun found => (found.1, found.2.flatten)) =
      (Bytes.split? n chunks.flatten).map (fun found => (taken.reverse ++ found.1, found.2)) := by
  induction chunks generalizing n taken with
  | nil => cases n <;> simp [pull, Bytes.split?_eq]
  | cons chunk chunks ih =>
    cases n with
    | zero => simp [pull, Bytes.split?_eq]
    | succ n =>
      rw [pull, drain_eq]
      rcases Nat.lt_or_ge chunk.length (n + 1) with short | long
      · obtain ⟨wanted, eq⟩ : ∃ wanted, n + 1 - chunk.length = wanted + 1 :=
          ⟨n - chunk.length, by omega⟩
        have all : chunk.take (n + 1) = chunk := List.take_of_length_le (by omega)
        rw [eq, all]
        simp only [ih]
        rw [← eq]
        simp only [Bytes.split?_eq, List.flatten_cons, List.length_append]
        by_cases enough : n + 1 ≤ chunk.length + chunks.flatten.length
        · rw [if_pos enough, if_pos (by omega)]
          simp [List.take_append, List.drop_append, List.take_of_length_le (Nat.le_of_lt short),
            List.drop_of_length_le (Nat.le_of_lt short)]
        · rw [if_neg enough, if_neg (by omega)]
          rfl
      · have zero : n + 1 - chunk.length = 0 := by omega
        rw [zero]
        simp [Bytes.split?_eq, List.take_append, List.drop_append, zero]
        omega

theorem take?_bytes (n : Nat) (stream : ByteStream) :
    ((take? n stream).1, (take? n stream).2.bytes) =
      match Bytes.split? n stream.bytes with
      | some (taken, rest) => (some taken, rest)
      | none => (none, []) := by
  have eq := pull_eq n [] stream.chunks
  simp only [take?, bytes] at *
  cases found : pull n [] stream.chunks with
  | none =>
    rw [found] at eq
    cases split : Bytes.split? n stream.chunks.flatten with
    | none => simp
    | some pair => simp [split] at eq
  | some pair =>
    rw [found] at eq
    cases split : Bytes.split? n stream.chunks.flatten with
    | none => simp [split] at eq
    | some pair' =>
      obtain ⟨taken, rest⟩ := pair
      obtain ⟨taken', rest'⟩ := pair'
      simp only [split, Option.map_some, List.reverse_nil, List.nil_append, Option.some.injEq,
        Prod.mk.injEq] at eq
      simp [eq]

theorem size_take?_of_some {n : Nat} {stream : ByteStream} {taken : Bytes}
    (h : (take? n stream).1 = some taken) : (take? n stream).2.size + n = stream.size := by
  have eq := take?_bytes n stream
  rw [h] at eq
  simp only [size]
  rw [Bytes.split?_eq] at eq
  by_cases enough : n ≤ stream.bytes.length
  · simp only [if_pos enough, Prod.mk.injEq] at eq
    rw [eq.2, List.length_drop]
    omega
  · simp [if_neg enough] at eq

end ByteStream

namespace Frame

inductive Read
  | frame (frame : Frame)
  | ended
  | failed (fault : Fault)
  deriving DecidableEq, Repr

def read (stream : ByteStream) : Read × ByteStream :=
  match stream.take? 4 with
  | (none, rest) =>
    match rest.ending with
    | .closed => (.ended, rest)
    | .failed reason => (.failed (.headerUnread reason), rest)
  | (some digits, rest) =>
    let declared := Bytes.ofBigEndian digits
    if declared < headerSize then
      (.failed (.lengthBelowHeader declared), rest)
    else if limit < declared then
      (.failed (.lengthAboveLimit declared), rest)
    else
      match rest.take? (declared - 4) with
      | (none, rest) => (.failed (.bodyUnread rest.ending.reason), rest)
      | (some body, rest) =>
        match parse (digits ++ body) with
        | .ok frame => (.frame frame, rest)
        | .error fault => (.failed fault, rest)

/-- Every frame takes bytes off its stream. -/
theorem read_size_lt {stream rest : ByteStream} {frame : Frame}
    (h : read stream = (.frame frame, rest)) : rest.size < stream.size := by
  unfold read at h
  split at h
  · split at h <;> simp at h
  · next digits rest' prefixed =>
    have first : (stream.take? 4).2.size + 4 = stream.size :=
      ByteStream.size_take?_of_some (by rw [prefixed])
    simp only [prefixed] at first
    dsimp only at h
    split at h
    · simp at h
    · split at h
      · simp at h
      · split at h
        · simp at h
        · next body rest'' bodied =>
          have second : (rest'.take? _).2.size + _ = rest'.size :=
            ByteStream.size_take?_of_some (by rw [bodied])
          simp only [bodied] at second
          split at h
          · simp only [Prod.mk.injEq] at h
            rw [← h.2]
            omega
          · simp at h

/-- Reads frames onto `frames`, which holds them reversed, until the stream ends or one cannot be
read. -/
def readOnto (frames : List Frame) (stream : ByteStream) : List Frame × Read × ByteStream :=
  match _read : read stream with
  | (.frame frame, rest) => readOnto (frame :: frames) rest
  | (outcome, rest) => (frames.reverse, outcome, rest)
  termination_by stream.size
  decreasing_by exact read_size_lt _read

/-- Reads frames until the stream ends or one cannot be read. The answer is the frames, the outcome
that stopped the reading, and the stream behind it. -/
def readAll (stream : ByteStream) : List Frame × Read × ByteStream :=
  readOnto [] stream

theorem readOnto_eq (frames : List Frame) (stream : ByteStream) :
    readOnto frames stream = (frames.reverse ++ (readAll stream).1, (readAll stream).2) := by
  suffices general : ∀ n, ∀ stream : ByteStream, stream.size ≤ n → ∀ a b : List Frame,
      readOnto (a ++ b) stream = (b.reverse ++ (readOnto a stream).1, (readOnto a stream).2) by
    exact general stream.size stream (Nat.le_refl _) [] frames
  intro n
  induction n with
  | zero =>
    intro stream small a b
    rw [readOnto, readOnto]
    split
    next read => have := read_size_lt read; omega
    next => simp
  | succ n ih =>
    intro stream small a b
    rw [readOnto, readOnto]
    split
    next frame rest read =>
      have := read_size_lt read
      exact ih rest (by omega) (frame :: a) b
    next => simp

theorem readAll_of_frame {stream rest : ByteStream} {frame : Frame}
    (h : read stream = (.frame frame, rest)) :
    readAll stream = (frame :: (readAll rest).1, (readAll rest).2) := by
  have unfolded : readAll stream = readOnto [frame] rest := by
    rw [readAll, readOnto]
    split
    next read =>
      rw [h] at read
      simp only [Prod.mk.injEq, Read.frame.injEq] at read
      rw [read.1, read.2]
    next notFrame other =>
      rw [h] at other
      simp only [Prod.mk.injEq] at other
      exact absurd other.1.symm (notFrame frame)
  rw [unfolded, readOnto_eq]
  rfl

end Frame

end Fanout
