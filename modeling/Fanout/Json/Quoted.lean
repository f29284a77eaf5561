import Fanout.Ascii
import Fanout.Bytes

/-!
# JSON strings

A string is kept as the pieces between its quotes: bytes, which may or may not be valid UTF-8, and
UTF-16 code units given by number. Only when its text is asked for do the pieces have to spell one:
surrogates have to come in pairs and the bytes have to be valid. Writing escapes quotes, backslashes
and control characters, and nothing else. Main statement: the pieces of a text have that text
(`text?_ofText`).
-/

namespace Fanout.Json

/-- A part of a string: a byte, or a code unit that was given by number and is not ASCII. -/
inductive Piece
  | byte (byte : UInt8)
  | unit (unit : Nat)
  deriving DecidableEq, Repr

abbrev Quoted := List Piece

namespace Quoted

def ofText (text : String) : Quoted :=
  (Bytes.ofText text).map .byte

/-- The first of two code units that together stand for one character. -/
def isHighSurrogate (unit : Nat) : Bool :=
  0xD800 ≤ unit && unit < 0xDC00

def isLowSurrogate (unit : Nat) : Bool :=
  0xDC00 ≤ unit && unit < 0xE000

def charBytes (code : Nat) : Bytes :=
  String.utf8EncodeChar (Char.ofNat code)

/-- Puts the bytes that the pieces spell onto `taken`, which holds its bytes reversed; surrogates
have to come in pairs. -/
def bytesOnto (taken : Bytes) : Quoted → Option Bytes
  | [] => some taken.reverse
  | .byte byte :: rest => bytesOnto (byte :: taken) rest
  | .unit high :: .unit low :: rest =>
    if isHighSurrogate high then
      if isLowSurrogate low then
        let code := 0x10000 + (high - 0xD800) * 0x400 + (low - 0xDC00)
        bytesOnto ((charBytes code).reverse ++ taken) rest
      else
        none
    else if isLowSurrogate high then
      none
    else
      bytesOnto ((charBytes high).reverse ++ taken) (.unit low :: rest)
  | .unit unit :: rest =>
    if isHighSurrogate unit || isLowSurrogate unit then
      none
    else
      bytesOnto ((charBytes unit).reverse ++ taken) rest

def text? (quoted : Quoted) : Option String :=
  (bytesOnto [] quoted).bind Bytes.toText?

theorem bytesOnto_map_byte (taken bytes : Bytes) :
    bytesOnto taken (bytes.map .byte) = some (taken.reverse ++ bytes) := by
  induction bytes generalizing taken with
  | nil => simp [bytesOnto]
  | cons byte bytes ih => simp [bytesOnto, ih]

@[simp] theorem text?_ofText (text : String) : (ofText text).text? = some text := by
  simp [text?, ofText, bytesOnto_map_byte]

def hexDigit (n : Nat) : UInt8 :=
  if n < 10 then UInt8.ofNat (48 + n) else UInt8.ofNat (87 + n)

def hexValue? (byte : UInt8) : Option Nat :=
  if 48 ≤ byte && byte ≤ 57 then some (byte.toNat - 48)
  else if 97 ≤ byte && byte ≤ 102 then some (byte.toNat - 87)
  else if 65 ≤ byte && byte ≤ 70 then some (byte.toNat - 55)
  else none

def renderUnit (unit : Nat) : Bytes :=
  [Ascii.backslash, Ascii.lowerU, hexDigit (unit / 4096 % 16), hexDigit (unit / 256 % 16),
    hexDigit (unit / 16 % 16), hexDigit (unit % 16)]

/-- The letter that stands for a byte behind a backslash. -/
def escapeLetter? (byte : UInt8) : Option UInt8 :=
  if byte = Ascii.quote then some Ascii.quote
  else if byte = Ascii.backslash then some Ascii.backslash
  else if byte = Ascii.backspace then some Ascii.lowerB
  else if byte = Ascii.formFeed then some Ascii.lowerF
  else if byte = Ascii.lineFeed then some Ascii.lowerN
  else if byte = Ascii.carriageReturn then some Ascii.lowerR
  else if byte = Ascii.tab then some Ascii.lowerT
  else none

def unescape? (letter : UInt8) : Option UInt8 :=
  if letter = Ascii.quote then some Ascii.quote
  else if letter = Ascii.backslash then some Ascii.backslash
  else if letter = Ascii.slash then some Ascii.slash
  else if letter = Ascii.lowerB then some Ascii.backspace
  else if letter = Ascii.lowerF then some Ascii.formFeed
  else if letter = Ascii.lowerN then some Ascii.lineFeed
  else if letter = Ascii.lowerR then some Ascii.carriageReturn
  else if letter = Ascii.lowerT then some Ascii.tab
  else none

def renderPiece : Piece → Bytes
  | .byte byte =>
    match escapeLetter? byte with
    | some letter => [Ascii.backslash, letter]
    | none => if byte < Ascii.space then renderUnit byte.toNat else [byte]
  | .unit unit => renderUnit unit

/-- The bytes of a string, quotes included. -/
def render (quoted : Quoted) : Bytes :=
  Ascii.quote :: quoted.flatMap renderPiece ++ [Ascii.quote]

/-- A piece given by number: an ASCII character is its own byte. -/
def pieceOfUnit (unit : Nat) : Piece :=
  if unit < 128 then .byte (UInt8.ofNat unit) else .unit unit

def unitOfHex? (a b c d : UInt8) : Option Nat := do
  let a ← hexValue? a
  let b ← hexValue? b
  let c ← hexValue? c
  let d ← hexValue? d
  return a * 4096 + b * 256 + c * 16 + d

/-- Puts pieces onto `taken`, which holds them reversed, up to the closing quote; the rest follows
the quote. Control characters have to be escaped. -/
def scanOnto (taken : Quoted) : Bytes → Option (Quoted × Bytes)
  | [] => none
  | byte :: rest =>
    if byte = Ascii.quote then
      some (taken.reverse, rest)
    else if byte = Ascii.backslash then
      match rest with
      | [] => none
      | letter :: rest =>
        if letter = Ascii.lowerU then
          match rest with
          | a :: b :: c :: d :: rest =>
            match unitOfHex? a b c d with
            | some unit => scanOnto (pieceOfUnit unit :: taken) rest
            | none => none
          | _ => none
        else
          match unescape? letter with
          | some byte => scanOnto (.byte byte :: taken) rest
          | none => none
    else if byte < Ascii.space then
      none
    else
      scanOnto (.byte byte :: taken) rest

/-- The contents of a string whose opening quote has been taken, and what follows it. -/
def scan (bytes : Bytes) : Option (Quoted × Bytes) :=
  scanOnto [] bytes

end Quoted

end Fanout.Json
