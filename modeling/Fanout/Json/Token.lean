import Fanout.Json.Number
import Fanout.Json.Quoted

/-!
# JSON tokens

A JSON text is a sequence of tokens with blanks around them: space, tab, line feed and carriage
return.
-/

namespace Fanout.Json

inductive Token
  | openArray
  | closeArray
  | openObject
  | closeObject
  | comma
  | colon
  | null
  | bool (value : Bool)
  | number (value : Number)
  | string (contents : Quoted)
  deriving DecidableEq, Repr

namespace Token

def render : Token → Bytes
  | openArray => [Ascii.openBracket]
  | closeArray => [Ascii.closeBracket]
  | openObject => [Ascii.openBrace]
  | closeObject => [Ascii.closeBrace]
  | comma => [Ascii.comma]
  | colon => [Ascii.colon]
  | null => [0x6E, 0x75, 0x6C, 0x6C]
  | bool true => [0x74, 0x72, 0x75, 0x65]
  | bool false => [0x66, 0x61, 0x6C, 0x73, 0x65]
  | number value => value.render
  | string contents => Quoted.render contents

def isBlank (byte : UInt8) : Bool :=
  byte == Ascii.space || byte == Ascii.tab || byte == Ascii.lineFeed ||
    byte == Ascii.carriageReturn

/-- The word at the front of the bytes, if it is the given one. -/
def scanWord (word : Bytes) (token : Token) (bytes : Bytes) : Option (Token × Bytes) :=
  match Bytes.split? word.length bytes with
  | some (front, rest) => if front = word then some (token, rest) else none
  | none => none

/-- The token at the front of the bytes, without blanks before it, and the rest. -/
def scanOne : Bytes → Option (Token × Bytes)
  | [] => none
  | byte :: rest =>
    if byte = Ascii.openBracket then some (openArray, rest)
    else if byte = Ascii.closeBracket then some (closeArray, rest)
    else if byte = Ascii.openBrace then some (openObject, rest)
    else if byte = Ascii.closeBrace then some (closeObject, rest)
    else if byte = Ascii.comma then some (comma, rest)
    else if byte = Ascii.colon then some (colon, rest)
    else if byte = Ascii.quote then
      (Quoted.scan rest).map fun (contents, rest) => (string contents, rest)
    else if byte = Ascii.lowerN then scanWord null.render null (byte :: rest)
    else if byte = Ascii.lowerT then scanWord (bool true).render (bool true) (byte :: rest)
    else if byte = Ascii.lowerF then scanWord (bool false).render (bool false) (byte :: rest)
    else (Number.scan (byte :: rest)).map fun (found, rest) => (number found, rest)

/-- Puts the tokens of the bytes onto `taken`, which holds them reversed. Every token takes at least
one byte, so `fuel` above the number of bytes is never used up. -/
def scanOnto (fuel : Nat) (taken : List Token) (bytes : Bytes) : Option (List Token) :=
  match fuel with
  | 0 => none
  | fuel + 1 =>
    match bytes.dropWhile isBlank with
    | [] => some taken.reverse
    | byte :: rest =>
      match scanOne (byte :: rest) with
      | some (token, rest) => scanOnto fuel (token :: taken) rest
      | none => none

def scan (bytes : Bytes) : Option (List Token) :=
  scanOnto (bytes.length + 1) [] bytes

end Token

end Fanout.Json
