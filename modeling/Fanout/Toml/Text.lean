import Fanout.Fault

/-!
# TOML strings

A string is written in one of four styles: basic or literal, on one line or between triple quotes.
Basic styles have escapes, literal ones have none. Writing takes the first style that needs no
escapes, in the order basic, literal, basic between triple quotes, literal between triple quotes,
and otherwise a basic style with escapes. Between triple quotes a line feed right behind the opening
quotes does not count, and up to two quotes may stand in the text.
-/

namespace Fanout.Toml

abbrev Chars := List Char

/-- What reads something off the front of a text and hands back the rest. -/
abbrev Reader (α : Type) := Chars → Option (α × Chars)

inductive Style
  | basic
  | literal
  | multiBasic
  | multiLiteral
  deriving DecidableEq, Repr

namespace Text

/-- Control characters other than tab and line feed, which a string without escapes cannot hold. -/
def needsEscape (c : Char) : Bool :=
  (c.toNat < 0x20 && c != '\t' && c != '\n') || c.toNat == 0x7F

/-- The length of the longest run of a character, where `run` of them stand before the text. -/
def longestRun (c : Char) (run : Nat) : Chars → Nat
  | [] => run
  | x :: text => if x = c then longestRun c (run + 1) text else max run (longestRun c 0 text)

def styleOf (text : Chars) : Style :=
  let escapes := text.any needsEscape
  let backslash := text.contains '\\'
  let newline := text.contains '\n'
  let quotes := longestRun '"' 0 text
  let apostrophes := longestRun '\'' 0 text
  if !escapes && !backslash && quotes == 0 && !newline then .basic
  else if !escapes && apostrophes == 0 && !newline then .literal
  else if !escapes && !backslash && quotes ≤ 2 then .multiBasic
  else if !escapes && apostrophes ≤ 2 then .multiLiteral
  else if newline then .multiBasic
  else .basic

/-- The escape of a character, if it has to be escaped wherever it stands. -/
def escape? (c : Char) : Option Chars :=
  if c = '\x08' then some ['\\', 'b']
  else if c = '\t' then some ['\\', 't']
  else if c = '\x0c' then some ['\\', 'f']
  else if c = '\r' then some ['\\', 'r']
  else if c = '\\' then some ['\\', '\\']
  else if needsEscape c then some (['\\', 'u'] ++ (hexText 4 c.toNat).toList)
  else none

def renderBasic (text : Chars) : Chars :=
  text.flatMap fun c =>
    if c = '"' then ['\\', '"']
    else if c = '\n' then ['\\', 'n']
    else (escape? c).getD [c]

/-- The inside of a basic string between triple quotes, where `run` quotes stand right before it:
every third quote in a row is escaped. -/
def renderMultiBasic (run : Nat) : Chars → Chars
  | [] => []
  | c :: text =>
    if c = '"' then
      if run < 2 then '"' :: renderMultiBasic (run + 1) text
      else '\\' :: '"' :: renderMultiBasic 0 text
    else
      (escape? c).getD [c] ++ renderMultiBasic 0 text

/-- The line feed behind opening triple quotes. -/
def lead (text : Chars) : Chars :=
  if text.contains '\n' then ['\n'] else []

def renderAs (text : Chars) : Style → Chars
  | .basic => '"' :: renderBasic text ++ ['"']
  | .literal => '\'' :: text ++ ['\'']
  | .multiBasic => ['"', '"', '"'] ++ lead text ++ renderMultiBasic 0 text ++ ['"', '"', '"']
  | .multiLiteral => ['\'', '\'', '\''] ++ lead text ++ text ++ ['\'', '\'', '\'']

def render (text : String) : Chars :=
  renderAs text.toList (styleOf text.toList)

/-- Characters that stand for themselves everywhere: tab, printable ASCII and all beyond ASCII. -/
def isPlain (c : Char) : Bool :=
  c == '\t' || (0x20 ≤ c.toNat && c.toNat ≤ 0x7E) || 0x80 ≤ c.toNat

def hexValue? (c : Char) : Option Nat :=
  if '0' ≤ c ∧ c ≤ '9' then some (c.toNat - 48)
  else if 'a' ≤ c ∧ c ≤ 'f' then some (c.toNat - 87)
  else if 'A' ≤ c ∧ c ≤ 'F' then some (c.toNat - 55)
  else none

def charOfHex? (digits : Chars) : Option Char := do
  let values ← digits.mapM hexValue?
  let code := values.foldl (fun n digit => n * 16 + digit) 0
  if code.isValidChar then some (Char.ofNat code) else none

def unescape? (letter : Char) : Option Char :=
  if letter = 'b' then some '\x08'
  else if letter = 't' then some '\t'
  else if letter = 'n' then some '\n'
  else if letter = 'f' then some '\x0c'
  else if letter = 'r' then some '\r'
  else if letter = '"' then some '"'
  else if letter = '\\' then some '\\'
  else none

/-- Reads the rest of a basic string on one line onto `taken`, which is reversed. -/
def readBasicOnto (taken : Chars) : Reader Chars
  | '"' :: rest => some (taken.reverse, rest)
  | '\\' :: 'u' :: a :: b :: c :: d :: rest =>
    match charOfHex? [a, b, c, d] with
    | some char => readBasicOnto (char :: taken) rest
    | none => none
  | '\\' :: 'U' :: a :: b :: c :: d :: e :: f :: g :: h :: rest =>
    match charOfHex? [a, b, c, d, e, f, g, h] with
    | some char => readBasicOnto (char :: taken) rest
    | none => none
  | '\\' :: letter :: rest =>
    match unescape? letter with
    | some char => readBasicOnto (char :: taken) rest
    | none => none
  | c :: rest => if isPlain c then readBasicOnto (c :: taken) rest else none
  | [] => none

def readLiteralOnto (taken : Chars) : Reader Chars
  | '\'' :: rest => some (taken.reverse, rest)
  | c :: rest => if isPlain c then readLiteralOnto (c :: taken) rest else none
  | [] => none

/-- Where the reader of a basic string between triple quotes stands: in the text, behind a
backslash, behind a backslash and blanks, or in the blanks and line ends that such a backslash takes
away. -/
inductive Spot
  | inside
  | escaped
  | lineEnd
  | gap
  deriving DecidableEq, Repr

def isBlank (c : Char) : Bool :=
  c == ' ' || c == '\t'

def readMultiBasicOnto (spot : Spot) (taken : Chars) : Reader Chars
  | '\r' :: '\n' :: rest =>
    if spot = .inside then readMultiBasicOnto .inside ('\n' :: taken) rest
    else readMultiBasicOnto .gap taken rest
  | '\n' :: rest =>
    if spot = .inside then readMultiBasicOnto .inside ('\n' :: taken) rest
    else readMultiBasicOnto .gap taken rest
  | c :: rest =>
    if spot = .escaped then
      if isBlank c then
        readMultiBasicOnto .lineEnd taken rest
      else if c = 'u' then
        match rest with
        | a :: b :: c :: d :: rest =>
          match charOfHex? [a, b, c, d] with
          | some char => readMultiBasicOnto .inside (char :: taken) rest
          | none => none
        | _ => none
      else if c = 'U' then
        match rest with
        | a :: b :: c :: d :: e :: f :: g :: h :: rest =>
          match charOfHex? [a, b, c, d, e, f, g, h] with
          | some char => readMultiBasicOnto .inside (char :: taken) rest
          | none => none
        | _ => none
      else
        match unescape? c with
        | some char => readMultiBasicOnto .inside (char :: taken) rest
        | none => none
    else if spot = .lineEnd then
      if isBlank c then readMultiBasicOnto .lineEnd taken rest else none
    else if spot = .gap ∧ isBlank c then
      readMultiBasicOnto .gap taken rest
    else if c = '"' then
      match rest with
      | '"' :: '"' :: '"' :: '"' :: rest => some (('"' :: '"' :: taken).reverse, rest)
      | '"' :: '"' :: '"' :: rest => some (('"' :: taken).reverse, rest)
      | '"' :: '"' :: rest => some (taken.reverse, rest)
      | _ => readMultiBasicOnto .inside ('"' :: taken) rest
    else if c = '\\' then
      readMultiBasicOnto .escaped taken rest
    else if isPlain c then
      readMultiBasicOnto .inside (c :: taken) rest
    else
      none
  | [] => none

def readMultiLiteralOnto (taken : Chars) : Reader Chars
  | '\'' :: '\'' :: '\'' :: '\'' :: '\'' :: rest => some (('\'' :: '\'' :: taken).reverse, rest)
  | '\'' :: '\'' :: '\'' :: '\'' :: rest => some (('\'' :: taken).reverse, rest)
  | '\'' :: '\'' :: '\'' :: rest => some (taken.reverse, rest)
  | '\r' :: '\n' :: rest => readMultiLiteralOnto ('\n' :: taken) rest
  | '\n' :: rest => readMultiLiteralOnto ('\n' :: taken) rest
  | c :: rest => if isPlain c then readMultiLiteralOnto (c :: taken) rest else none
  | [] => none

def dropNewline : Chars → Chars
  | '\r' :: '\n' :: rest => rest
  | '\n' :: rest => rest
  | text => text

/-- Reads a string on one line. -/
def readLine : Reader String
  | '"' :: rest => (readBasicOnto [] rest).map fun (text, rest) => (String.ofList text, rest)
  | '\'' :: rest => (readLiteralOnto [] rest).map fun (text, rest) => (String.ofList text, rest)
  | _ => none

def read : Reader String
  | '"' :: '"' :: '"' :: rest =>
    (readMultiBasicOnto .inside [] (dropNewline rest)).map fun (text, rest) =>
      (String.ofList text, rest)
  | '\'' :: '\'' :: '\'' :: rest =>
    (readMultiLiteralOnto [] (dropNewline rest)).map fun (text, rest) =>
      (String.ofList text, rest)
  | text => readLine text

end Text

end Fanout.Toml
