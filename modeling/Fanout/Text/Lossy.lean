import Fanout.Bytes

/-!
# Text from any bytes

Bytes from a peer are shown even if they are not valid UTF-8. The longest start of a character that
cannot go on as it should stands for one replacement character. Valid bytes are shown as the text
they spell (`lossyText_ofText`).
-/

namespace Fanout.Bytes

/-- A character of which some bytes have been read. -/
structure Begun where
  /-- How many bytes are still to come. -/
  wanted : Nat
  /-- The least and the greatest byte that can come next. -/
  least : UInt8 := 0x80
  greatest : UInt8 := 0xBF
  bits : Nat
  deriving DecidableEq, Repr

/-- What a byte is at the start of a character. -/
inductive Lead
  | whole (c : Char)
  | begun (character : Begun)
  | invalid
  deriving DecidableEq, Repr

def lead (byte : UInt8) : Lead :=
  let two := byte.toNat % 32
  let three := byte.toNat % 16
  let four := byte.toNat % 8
  if byte < 0x80 then .whole (Char.ofNat byte.toNat)
  else if byte < 0xC2 then .invalid
  else if byte ≤ 0xDF then .begun { wanted := 1, bits := two }
  else if byte = 0xE0 then .begun { wanted := 2, least := 0xA0, bits := three }
  else if byte = 0xED then .begun { wanted := 2, greatest := 0x9F, bits := three }
  else if byte ≤ 0xEF then .begun { wanted := 2, bits := three }
  else if byte = 0xF0 then .begun { wanted := 3, least := 0x90, bits := four }
  else if byte ≤ 0xF3 then .begun { wanted := 3, bits := four }
  else if byte = 0xF4 then .begun { wanted := 3, greatest := 0x8F, bits := four }
  else .invalid

def replacement : Char :=
  '\ufffd'

/-- Reads a byte outside of a character: the characters it completes and the one it begins. -/
def outside (byte : UInt8) : List Char × Option Begun :=
  match lead byte with
  | .whole c => ([c], none)
  | .begun character => ([], some character)
  | .invalid => ([replacement], none)

def reading (begun : Option Begun) (byte : UInt8) : List Char × Option Begun :=
  match begun with
  | none => outside byte
  | some character =>
    if character.least ≤ byte ∧ byte ≤ character.greatest then
      let bits := character.bits * 64 + byte.toNat % 64
      if character.wanted ≤ 1 then ([Char.ofNat bits], none)
      else ([], some { wanted := character.wanted - 1, bits })
    else
      let (chars, begun) := outside byte
      (replacement :: chars, begun)

def lossyChars : Option Begun → Bytes → List Char
  | none, [] => []
  | some _, [] => [replacement]
  | begun, byte :: rest =>
    let (chars, begun) := reading begun byte
    chars ++ lossyChars begun rest

/-- The text that the bytes spell, with replacement characters where they spell none. -/
def lossyText (bytes : Bytes) : String :=
  match toText? bytes with
  | some text => text
  | none => String.ofList (lossyChars none bytes)

@[simp] theorem lossyText_ofText (text : String) : lossyText (ofText text) = text := by
  simp [lossyText]

end Fanout.Bytes
