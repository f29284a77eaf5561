import Fanout.Proofs.Frame.Reading
import Mathlib.Data.List.Forall2

/-!
# Where frames may break off

A stream that ends behind complete frames is read as these frames and then as ended. So is one that
ends inside the length prefix of a further frame: the up to three bytes of it are lost and nothing
is reported (`ended_within_prefix`), while a frame that is cut behind its prefix is a failure. These
are all ways in which reading ends without a failure (`ended_iff`).
-/

namespace Fanout.Frame

variable {pieces : List Bytes} {frames : List Frame} {piece left : Bytes} {frame : Frame}

/-- Whether the bytes are a frame within the limit. -/
structure Carries (piece : Bytes) (frame : Frame) : Prop where
  parsed : parse piece = .ok frame
  small : piece.length ≤ limit

/-- What reading gives for bytes, it gives behind complete frames once these are read. -/
theorem readsAll_behind (carried : List.Forall₂ Carries pieces frames) {ending : Ending}
    {more : List Frame} {outcome : Read} {taken : Nat}
    (h : ReadsAll ending left more outcome taken) :
    ReadsAll ending (pieces.flatten ++ left) (frames ++ more) outcome
      (pieces.flatten.length + taken) := by
  induction carried with
  | nil =>
    rw [List.flatten_nil, List.length_nil, Nat.zero_add]
    exact h
  | @cons piece frame pieces frames first _ ih =>
    have reads := reads_of_parse first.parsed first.small ending (pieces.flatten ++ left)
    rw [List.flatten_cons, List.append_assoc, List.length_append, Nat.add_assoc]
    refine ReadsAll.next reads ?_
    rwa [List.drop_left' rfl]

theorem readsAll_short (short : left.length < 4) :
    ReadsAll .closed left [] .ended left.length :=
  .stop (.ended short rfl) fun _ => Read.noConfusion

/-- The bytes of a frame up to somewhere behind its length prefix announce the frame. -/
theorem announced_take (carries : Carries piece frame) {k : Nat} (whole : 4 ≤ k)
    (part : k ≤ piece.length) :
    Announced (piece.take k) ∧ declared (piece.take k) = piece.length := by
  have length := (declared_of_parse carries.parsed).2
  have header := (declared_of_parse carries.parsed).1
  have prefixed : 4 ≤ (piece.take k).length := by rwa [List.length_take_of_le part]
  have same : declared (piece.take k) = piece.length := by
    rw [← declared_append prefixed (piece.drop k), List.take_append_drop, length]
  exact ⟨⟨prefixed, same ▸ header, same ▸ carries.small⟩, same⟩

/-- A frame that breaks off is taken for the end if not even its length prefix is complete, and is a
failure otherwise. -/
theorem readsAll_take (carries : Carries piece frame) {k : Nat} (part : k < piece.length) :
    ReadsAll .closed (piece.take k) []
      (if k < 4 then .ended else .failed (.bodyUnread Ending.closed.reason)) k := by
  have length : (piece.take k).length = k := List.length_take_of_le (Nat.le_of_lt part)
  split
  next short =>
    have ended := readsAll_short (length ▸ short)
    rwa [length] at ended
  next long =>
    obtain ⟨announced, same⟩ := announced_take carries (Nat.not_lt.1 long) (Nat.le_of_lt part)
    have enough : (piece.take k).length < declared (piece.take k) := by rwa [length, same]
    have cut : Reads .closed (piece.take k) _ _ := .bodyUnread announced enough
    rw [length] at cut
    exact .stop cut fun _ => Read.noConfusion

/-- Frames behind which reading ends were read from consecutive bytes, and what is left of these is
shorter than a length prefix. -/
theorem exists_pieces {ending : Ending} {bytes : Bytes} {outcome : Read} {taken : Nat}
    (h : ReadsAll ending bytes frames outcome taken) (ended : outcome = .ended) :
    ∃ pieces left, List.Forall₂ Carries pieces frames ∧ left.length < 4 ∧
      bytes = pieces.flatten ++ left := by
  induction h with
  | @stop bytes outcome taken reads _ =>
    subst ended
    cases reads with
    | ended short _ => exact ⟨[], bytes, .nil, short, rfl⟩
  | @next bytes frame frames outcome taken more reads _ ih =>
    obtain ⟨pieces, left, carried, short, behind⟩ := ih ended
    cases reads with
    | frame _ announced enough parsed =>
      have small : (bytes.take (declared bytes)).length ≤ limit :=
        Nat.le_trans (List.length_take_le _ _) announced.most
      refine ⟨_ :: pieces, left, .cons ⟨parsed, small⟩ carried, short, ?_⟩
      rw [List.flatten_cons, List.append_assoc, ← behind, List.take_append_drop]

/-- What the bytes to come and their end tell is what reading gives. -/
theorem readAll_of_readsAll (stream : ByteStream) {outcome : Read} {taken : Nat}
    (h : ReadsAll stream.ending stream.bytes frames outcome taken) :
    ∃ rest, readAll stream = (frames, outcome, rest) ∧ rest.bytes = stream.bytes.drop taken := by
  obtain ⟨frames', outcome', rest, taken', all, readsAll, -, behind⟩ := exists_readsAll stream
  obtain ⟨rfl, rfl, rfl⟩ := readsAll.unique h
  exact ⟨rest, all, behind⟩

/-- Frames are read and then the end exactly if the bytes are those of the frames, one after the
other, and fewer bytes than a length prefix has. And where a frame breaks off behind others, these
are read, and then the end if the length prefix of the last frame is not complete, and a failure to
read its body if it is. -/
theorem ended_iff (frames : List Frame) (chunks : List Bytes) :
    ((∃ rest, readAll { chunks } = (frames, .ended, rest)) ↔
      ∃ pieces left, List.Forall₂ Carries pieces frames ∧ left.length < 4 ∧
        chunks.flatten = pieces.flatten ++ left) ∧
    ∀ pieces piece frame k, List.Forall₂ Carries pieces frames → Carries piece frame →
      k < piece.length → chunks.flatten = pieces.flatten ++ piece.take k →
        ∃ rest, readAll { chunks } =
            (frames, if k < 4 then .ended else .failed (.bodyUnread "early eof"), rest) ∧
          rest.bytes = [] := by
  refine ⟨⟨?_, ?_⟩, ?_⟩
  · rintro ⟨rest, all⟩
    obtain ⟨frames', outcome, rest', taken, all', readsAll, -⟩ := exists_readsAll { chunks }
    obtain ⟨rfl, ended, -⟩ : frames' = frames ∧ outcome = .ended ∧ rest' = rest := by
      simpa using all'.symm.trans all
    exact exists_pieces readsAll ended
  · rintro ⟨pieces, left, carried, short, whole⟩
    have readsAll := readsAll_behind carried (readsAll_short short)
    rw [← whole, List.append_nil] at readsAll
    obtain ⟨rest, all, -⟩ := readAll_of_readsAll { chunks } readsAll
    exact ⟨rest, all⟩
  · intro pieces piece frame k carried carries part whole
    have readsAll := readsAll_behind carried (readsAll_take carries part)
    rw [← whole, List.append_nil] at readsAll
    obtain ⟨rest, all, behind⟩ := readAll_of_readsAll { chunks } readsAll
    refine ⟨rest, all, ?_⟩
    have length : (piece.take k).length = k := List.length_take_of_le (Nat.le_of_lt part)
    have all_taken : chunks.flatten.length = pieces.flatten.length + k := by
      rw [whole, List.length_append, length]
    rw [behind, ByteStream.bytes, ← all_taken, List.drop_length]

/-- An acknowledgement is read, and then the listing that breaks off in its topic is a failure. -/
theorem ended_iff_severed :
    ∃ rest, readAll { chunks := [[0, 0, 0, 5, 0xF1, 0, 0], [0, 12, 0x11, 1, 0, 0, 0, 2, 104]] } =
        ([{ event := .ok }], .failed (.bodyUnread "early eof"), rest) ∧ rest.bytes = [] := by
  have acknowledged : Carries [0, 0, 0, 5, 0xF1] { event := .ok } := ⟨by cbv, by decide⟩
  have listing : Carries [0, 0, 0, 12, 0x11, 1, 0, 0, 0, 2, 104, 105] (.subscribe [104, 105]) :=
    ⟨by cbv, by decide⟩
  exact (ended_iff [{ event := .ok }] _).2 [_] _ _ 11 (.cons acknowledged .nil) listing (by decide)
    rfl

/-- A listing is read, and then the two bytes that a further frame begins with are taken for the
end, although these bytes are in no frame. -/
theorem ended_within_prefix :
    (∃ rest, readAll { chunks := [[0, 0, 0, 12, 0x11, 1, 0, 0, 0, 2, 104, 105, 0, 0]] } =
        ([.subscribe [104, 105]], .ended, rest)) ∧
      ¬ ∃ pieces, List.Forall₂ Carries pieces [.subscribe [104, 105]] ∧
        pieces.flatten = [0, 0, 0, 12, 0x11, 1, 0, 0, 0, 2, 104, 105, 0, 0] := by
  have listing : Carries [0, 0, 0, 12, 0x11, 1, 0, 0, 0, 2, 104, 105] (.subscribe [104, 105]) :=
    ⟨by cbv, by decide⟩
  have short : ([0, 0] : Bytes).length < 4 := by decide
  refine ⟨?_, ?_⟩
  · have readsAll := readsAll_behind (.cons listing .nil) (readsAll_short short)
    obtain ⟨rest, all, -⟩ := readAll_of_readsAll
      { chunks := [[0, 0, 0, 12, 0x11, 1, 0, 0, 0, 2, 104, 105, 0, 0]] } readsAll
    exact ⟨rest, all⟩
  · rintro ⟨pieces, carried, whole⟩
    obtain ⟨piece, _, first, nothing, rfl⟩ := List.forall₂_cons_right_iff.1 carried
    obtain rfl := List.forall₂_nil_right_iff.1 nothing
    obtain rfl : piece = _ := by simpa using whole
    exact absurd (declared_of_parse first.parsed).2 (by decide)

end Fanout.Frame
