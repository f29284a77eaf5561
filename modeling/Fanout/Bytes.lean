/-!
# Byte strings

Bytes are plain lists, which proofs can take apart. This module holds big-endian numbers of a given
width, splitting off a counted front, and text as its UTF-8 bytes. Main statements: a number reads
back modulo what its width holds (`ofBigEndian_bigEndian`), splitting is `take` and `drop` exactly
when there are enough bytes (`split?_eq`), and text reads back (`toText?_ofText`).
-/

namespace Fanout

abbrev Bytes := List UInt8

namespace Bytes

def bigEndian : Nat → Nat → Bytes
  | 0, _ => []
  | width + 1, n => bigEndian width (n / 256) ++ [UInt8.ofNat (n % 256)]

/-- How many numbers the given width can hold. -/
def capacity : Nat → Nat
  | 0 => 1
  | width + 1 => 256 * capacity width

def ofBigEndian (bytes : Bytes) : Nat :=
  bytes.foldl (fun n byte => n * 256 + byte.toNat) 0

@[simp] theorem length_bigEndian (width n : Nat) : (bigEndian width n).length = width := by
  induction width generalizing n with
  | zero => rfl
  | succ width ih => simp [bigEndian, ih]

theorem exists_bigEndian_four (n : Nat) : ∃ a b c d, bigEndian 4 n = [a, b, c, d] :=
  ⟨_, _, _, _, rfl⟩

theorem ofBigEndian_append_byte (bytes : Bytes) (byte : UInt8) :
    ofBigEndian (bytes ++ [byte]) = ofBigEndian bytes * 256 + byte.toNat := by
  simp [ofBigEndian]

theorem ofBigEndian_bigEndian (width n : Nat) :
    ofBigEndian (bigEndian width n) = n % capacity width := by
  induction width generalizing n with
  | zero => simp [bigEndian, ofBigEndian, capacity, Nat.mod_one]
  | succ width ih =>
    have byte : (UInt8.ofNat (n % 256)).toNat = n % 256 := by simp
    rw [bigEndian, ofBigEndian_append_byte, ih, byte, capacity, Nat.mod_mul]
    omega

theorem bigEndian_ofBigEndian {width : Nat} {bytes : Bytes} (length : bytes.length = width) :
    bigEndian width (ofBigEndian bytes) = bytes := by
  induction width generalizing bytes with
  | zero => exact (List.eq_nil_of_length_eq_zero length).symm
  | succ width ih =>
    obtain rfl | ⟨front, byte, rfl⟩ := List.eq_nil_or_concat bytes
    · simp at length
    · have front_length : front.length = width := by simpa using length
      have below : byte.toNat < 256 := byte.toNat_lt
      have quotient : (ofBigEndian front * 256 + byte.toNat) / 256 = ofBigEndian front := by omega
      have remainder : (ofBigEndian front * 256 + byte.toNat) % 256 = byte.toNat := by omega
      rw [List.concat_eq_append, ofBigEndian_append_byte, bigEndian, quotient, remainder,
        ih front_length, UInt8.ofNat_toNat]

/-- Moves `n` bytes from the front of `bytes` onto `taken`, which holds its bytes reversed. -/
def splitOnto : Nat → Bytes → Bytes → Option (Bytes × Bytes)
  | 0, taken, bytes => some (taken.reverse, bytes)
  | _ + 1, _, [] => none
  | n + 1, taken, byte :: bytes => splitOnto n (byte :: taken) bytes

def split? (n : Nat) (bytes : Bytes) : Option (Bytes × Bytes) :=
  splitOnto n [] bytes

theorem splitOnto_eq (n : Nat) (taken bytes : Bytes) :
    splitOnto n taken bytes =
      if n ≤ bytes.length then some (taken.reverse ++ bytes.take n, bytes.drop n) else none := by
  induction n generalizing taken bytes with
  | zero => simp [splitOnto]
  | succ n ih =>
    cases bytes with
    | nil => simp [splitOnto]
    | cons byte bytes => simp [splitOnto, ih]

theorem split?_eq (n : Nat) (bytes : Bytes) :
    split? n bytes = if n ≤ bytes.length then some (bytes.take n, bytes.drop n) else none := by
  simp [split?, splitOnto_eq]

theorem split?_append {n : Nat} {front : Bytes} (rest : Bytes) (h : front.length = n) :
    split? n (front ++ rest) = some (front, rest) := by
  subst h
  simp [split?_eq]

/-- The UTF-8 bytes of a text. -/
def ofText (text : String) : Bytes :=
  text.toUTF8.data.toList

def toText? (bytes : Bytes) : Option String :=
  String.fromUTF8? bytes.toByteArray

@[simp] theorem toText?_ofText (text : String) : toText? (ofText text) = some text := by
  have array : (ofText text).toByteArray = text.toUTF8 := by
    apply ByteArray.ext
    simp [ofText]
  unfold toText? String.fromUTF8?
  rw [array, String.toUTF8_eq_toByteArray, dif_pos text.isValidUTF8]
  rfl

theorem ofText_of_toText? {bytes : Bytes} {text : String} (h : toText? bytes = some text) :
    ofText text = bytes := by
  unfold toText? String.fromUTF8? at h
  split at h
  · rw [Option.some.injEq] at h
    subst h
    simp [ofText, String.fromUTF8]
  · contradiction

end Bytes

end Fanout
