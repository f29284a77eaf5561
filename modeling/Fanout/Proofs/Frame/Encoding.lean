import Fanout.Frame.Wire

/-!
# Which frames have bytes

A frame takes five bytes for its header and, for each field that is present, five more and those of
its value. A frame that takes more bytes than the limit is refused; every other frame is written in
exactly that many bytes, which tell their number first and are read back as the frame
(`encode_exact`).
-/

namespace Fanout.Frame

variable (frame : Frame)

/-- The bytes that some kinds of field take in a frame: for each that is present its header and its
value. -/
def room : List Field → Nat
  | [] => 0
  | field :: kinds =>
    match frame.get? field with
    | some value => 5 + value.length + room kinds
    | none => room kinds

theorem fieldsSize_filterMap (kinds : List Field) :
    fieldsSize (kinds.filterMap fun field => (frame.get? field).map (field, ·)) =
      frame.room kinds := by
  induction kinds with
  | nil => rfl
  | cons field kinds ih =>
    cases present : frame.get? field with
    | none => simp [room, present, ih]
    | some value => simp [room, present, ih, fieldsSize, headerSize]

theorem size_eq : frame.size = 5 + frame.room Field.all := by
  rw [size, fields, fieldsSize_filterMap, headerSize]

theorem encode_of_fits (fits : frame.size ≤ limit) :
    frame.encode =
      .ok (Bytes.bigEndian 4 frame.size ++ frame.event.byte :: encodeFields frame.fields) := by
  rw [encode, if_neg (Nat.not_lt.2 fits)]

/-- The length prefix of a frame that was written is its number of bytes. -/
theorem take_four_of_encode {frame : Frame} {bytes : Bytes} (h : frame.encode = .ok bytes) :
    bytes.take 4 = Bytes.bigEndian 4 bytes.length := by
  have total := length_encode h
  rw [encode_of_fits frame (size_le_limit_of_encode h), Except.ok.injEq] at h
  rw [total, ← h, List.take_left' (Bytes.length_bigEndian 4 frame.size)]

/-- A frame is refused as too large exactly if its header and its fields take more bytes than the
limit. Otherwise it is written in exactly that many bytes, the first four of which are their number,
and these bytes are read back as the frame. -/
theorem encode_exact :
    if limit < 5 + frame.room Field.all then
      ∃ fault, frame.encode = .error fault ∧ fault.code = .frameTooLarge ∧
        fault = .oversizedFrame (5 + frame.room Field.all) limit
    else
      ∃ bytes, frame.encode = .ok bytes ∧ bytes.length = 5 + frame.room Field.all ∧
        bytes.take 4 = Bytes.bigEndian 4 bytes.length ∧
        Bytes.ofBigEndian (bytes.take 4) = bytes.length ∧ parse bytes = .ok frame := by
  rw [← size_eq]
  split
  next large =>
    exact ⟨.oversizedFrame frame.size limit, if_pos large, rfl, rfl⟩
  next fits =>
    have small : frame.size ≤ limit := Nat.not_lt.1 fits
    have written := encode_of_fits frame small
    have total := length_encode written
    have front := take_four_of_encode written
    have number := ofBigEndian_of_le_limit small
    rw [total] at front
    refine ⟨_, written, total, ?_, ?_, parse_encode written⟩
    · rw [total, front]
    · rw [total, front, number]

end Fanout.Frame
