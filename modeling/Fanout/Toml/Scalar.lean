import Fanout.Toml.Text

/-!
# TOML scalars without quotes

Numbers, truth values, dates and times are unbroken runs of characters, except that one blank may
stand between a date and a time. Integers are decimal, hexadecimal, octal or binary and have to fit
64 bits; single underscores may separate their digits.
-/

namespace Fanout.Toml

/-- A value without quotes. Floats, dates and times are kept as written. -/
inductive Scalar
  | bool (value : Bool)
  | integer (value : Int)
  | float (written : Chars)
  | moment (written : Chars)
  deriving DecidableEq, Repr

namespace Scalar

def isDigit (c : Char) : Bool :=
  '0' ≤ c && c ≤ '9'

def isPart (c : Char) : Bool :=
  c.isAlphanum || c == '_' || c == '+' || c == '-' || c == '.' || c == ':'

/-- Whether the text is digits, with a digit on either side of each underscore. -/
def areDigits (ok : Char → Bool) : Chars → Bool
  | [] => false
  | [c] => ok c
  | c :: '_' :: rest => ok c && areDigits ok rest
  | c :: rest => ok c && areDigits ok rest

def digits? (ok : Char → Bool) (text : Chars) : Option Chars :=
  if areDigits ok text then some (text.filter (· ≠ '_')) else none

def appendDigit (base n : Nat) (digit : Char) : Nat :=
  n * base + (Text.hexValue? digit).getD 0

def numeral (base : Nat) (digits : Chars) : Nat :=
  digits.foldl (appendDigit base) 0

def numeralUpTo? (bound base : Nat) (digits : Chars) : Option Nat :=
  digits.foldlM (fun n c => Option.guard (· ≤ bound) (appendDigit base n c)) 0

def splitSign : Chars → Bool × Chars
  | '-' :: rest => (true, rest)
  | '+' :: rest => (false, rest)
  | text => (false, text)

/-- The digits of a decimal integer without its sign: a zero stands alone. -/
def decimal? (text : Chars) : Option Chars := do
  let digits ← digits? isDigit text
  if digits.head? = some '0' ∧ digits.length ≠ 1 then none else some digits

/-- An integer of 64 bits by its sign and its digits in a base. -/
def fit? (negative : Bool) (base : Nat) (digits : Chars) : Option Scalar :=
  if negative then
    (numeralUpTo? 0x8000000000000000 base digits).map fun size => integer (-(size : Int))
  else
    (numeralUpTo? 0x7FFFFFFFFFFFFFFF base digits).map fun size => integer size

def signed? (text : Chars) : Option Scalar := do
  let (negative, rest) := splitSign text
  fit? negative 10 (← decimal? rest)

/-- An integer in base two, eight, ten or sixteen. -/
def integer? (text : Chars) : Option Scalar :=
  match text with
  | '0' :: 'x' :: rest => do
    let digits ← digits? (fun c => (Text.hexValue? c).isSome) rest
    fit? false 16 digits
  | '0' :: 'o' :: rest => do
    let digits ← digits? (fun c => '0' ≤ c && c ≤ '7') rest
    fit? false 8 digits
  | '0' :: 'b' :: rest => do
    let digits ← digits? (fun c => c == '0' || c == '1') rest
    fit? false 2 digits
  | _ => signed? text

/-- Whether a decimal number is below the least one that rounds to positive infinity, where `scale`
is the power of ten of its last digit. That least one is a whole number with 309 digits, so the
digits behind the point do not matter. -/
def belowInfinity (digits : Chars) (scale : Int) : Bool :=
  let digits := digits.dropWhile (· = '0')
  let size := digits.length + scale
  if digits.isEmpty ∨ size < 309 then true
  else if 309 < size then false
  else
    let whole := numeral 10 (digits.take 309 ++ List.replicate (309 - digits.length) '0')
    whole < Nat.pow 2 1024 - Nat.pow 2 970

/-- The size of an exponent. Once it is beyond sixteen bits it takes no more digits. -/
def exponentSize (digits : Chars) : Nat :=
  digits.foldl (fun n c => if n < 0x10000 then appendDigit 10 n c else n) 0

def exponent? (text : Chars) : Option Int := do
  let (negative, rest) := splitSign text
  let size := exponentSize (← digits? isDigit rest)
  return if negative then -(size : Int) else size

/-- A float with a fraction, an exponent or both. A positive one must not round to infinity. -/
def float? (text : Chars) : Option Scalar := do
  let (negative, rest) := splitSign text
  let (mantissa, power) := rest.span fun c => c != 'e' && c != 'E'
  let exponent ← match power with
    | [] => some 0
    | _ :: power => exponent? power
  let (whole, point) := mantissa.span fun c => c != '.'
  let wholeDigits ← decimal? whole
  let fractionDigits ← match point with
    | [] => if power.isEmpty then none else some []
    | _ :: fraction => digits? isDigit fraction
  let scale := exponent - fractionDigits.length
  if negative || belowInfinity (wholeDigits ++ fractionDigits) scale then
    some (float text)
  else
    none

/-- Infinity and the value that is not a number, with or without a sign. -/
def special? (text : Chars) : Option Scalar :=
  let rest := (splitSign text).2
  if rest = ['i', 'n', 'f'] ∨ rest = ['n', 'a', 'n'] then some (float text) else none

def twoDigits? (low high : Nat) (a b : Char) : Option Nat :=
  if isDigit a && isDigit b then
    let n := numeral 10 [a, b]
    if low ≤ n ∧ n ≤ high then some n else none
  else
    none

def monthDays (year month : Nat) : Nat :=
  if month = 2 then
    if year % 4 = 0 ∧ (year % 100 ≠ 0 ∨ year % 400 = 0) then 29 else 28
  else if month = 4 ∨ month = 6 ∨ month = 9 ∨ month = 11 then 30
  else 31

/-- Whether the text is a distance from universal time. -/
def isOffset : Chars → Bool
  | ['Z'] => true
  | ['z'] => true
  | [sign, a, b, ':', c, d] =>
    (sign == '+' || sign == '-') && (twoDigits? 0 23 a b).isSome && (twoDigits? 0 59 c d).isSome
  | _ => false

/-- What follows a time of day at the front of the text, fractions of a second included. -/
def dropTime? : Chars → Option Chars
  | a :: b :: ':' :: c :: d :: ':' :: e :: f :: rest => do
    let _ ← twoDigits? 0 23 a b
    let _ ← twoDigits? 0 59 c d
    let _ ← twoDigits? 0 60 e f
    match rest with
    | '.' :: fraction =>
      match fraction.span isDigit with
      | ([], _) => none
      | (_, rest) => some rest
    | rest => some rest
  | _ => none

def dropDate? : Chars → Option Chars
  | a :: b :: c :: d :: '-' :: e :: f :: '-' :: g :: h :: rest => do
    if [a, b, c, d].all isDigit then
      let month ← twoDigits? 1 12 e f
      let _ ← twoDigits? 1 (monthDays (numeral 10 [a, b, c, d]) month) g h
      some rest
    else
      none
  | _ => none

def isTime (offset : Bool) (text : Chars) : Bool :=
  match dropTime? text with
  | some [] => true
  | some rest => offset && isOffset rest
  | none => false

def isDate (text : Chars) : Bool :=
  dropDate? text == some []

def moment? (text : Chars) : Option Scalar :=
  let known := isTime false text ||
    match dropDate? text with
    | some [] => true
    | some (mark :: rest) =>
      (mark == 'T' || mark == 't' || mark == ' ') && isTime true rest
    | none => false
  if known then some (moment text) else none

/-- The value that an unbroken run of characters spells. -/
def ofChars? (text : Chars) : Option Scalar :=
  if text = ['t', 'r', 'u', 'e'] then some (bool true)
  else if text = ['f', 'a', 'l', 's', 'e'] then some (bool false)
  else (integer? text).or ((float? text).or ((special? text).or (moment? text)))

def read : Reader Scalar := fun text =>
  let (front, rest) := text.span isPart
  match rest with
  | ' ' :: c :: more =>
    if isDate front && isDigit c then
      let (time, rest) := (c :: more).span isPart
      (ofChars? (front ++ ' ' :: time)).map (·, rest)
    else
      (ofChars? front).map (·, rest)
  | _ => (ofChars? front).map (·, rest)

end Scalar

end Fanout.Toml
