import Fanout.Ascii
import Fanout.Decimal

/-!
# JSON numbers

A number is kept as it is written: sign, digits, fraction and exponent, where exponents keep to a
limit. It counts as an integer only if it has neither fraction nor exponent, is not a negative zero
and fits 64 bits. `isFinite` tells which numbers fit a binary64 value when their first digits, as
many as 64 bits hold, are scaled by a power of ten.
-/

namespace Fanout.Json

/-- A JSON number as written; an empty fraction stands for none. -/
structure Number where
  negative : Bool
  whole : Bytes
  fraction : Bytes := []
  exponent : Option Int := none
  deriving DecidableEq, Repr

namespace Number

def ofInt (n : Int) : Number :=
  { negative := n < 0, whole := Decimal.ofNat n.natAbs }

/-- The integer that a number is, if 64 bits hold its digits. -/
def toInt? (number : Number) : Option Int :=
  if number.fraction = [] ∧ number.exponent = none then
    let size := Decimal.valueUpTo UInt64.size number.whole
    if UInt64.size ≤ size then
      none
    else if number.negative then
      if size = 0 then none else some (-(size : Int))
    else
      some size
  else
    none

theorem toInt?_ofInt {n : Int} (fits : n.natAbs < UInt64.size) : (ofInt n).toInt? = some n := by
  simp only [toInt?, ofInt, and_self, if_true, Decimal.valueUpTo_eq, Decimal.value_ofNat,
    decide_eq_true_eq]
  rw [Nat.min_eq_right (Nat.le_of_lt fits), if_neg (by omega)]
  split
  · rw [if_neg (by omega)]
    congr 1
    omega
  · congr 1
    omega

/-- Appends digits to a significand as long as 64 bits hold it. The answer is the significand and
the number of digits appended. -/
def absorb (significand : Nat) : Bytes → Nat × Nat
  | [] => (significand, 0)
  | byte :: digits =>
    let next := significand * 10 + Decimal.digitValue byte
    if next < UInt64.size then
      let (total, count) := absorb next digits
      (total, count + 1)
    else
      (significand, 0)

/-- The nearest number with at most 53 significant binary digits; a tie goes to the even one. -/
def toBinary53 (n : Nat) : Nat :=
  let drop := n.log2 - 52
  let unit := Nat.pow 2 drop
  let kept := n / unit
  let lost := n % unit
  let up := unit < 2 * lost || (unit == 2 * lost && kept % 2 == 1)
  (if up then kept + 1 else kept) * unit

/-- Whether the number is no larger than the largest binary64 value, up to rounding. -/
def isFinite (number : Number) : Bool :=
  let (front, wholeDigits) := absorb 0 number.whole
  let (significand, fractionDigits) := absorb front number.fraction
  let scale : Int :=
    number.whole.length - wholeDigits - fractionDigits + number.exponent.getD 0
  if scale ≤ 0 then
    true
  else if 308 < scale then
    significand == 0
  else
    toBinary53 significand * toBinary53 (Nat.pow 10 scale.toNat) < Nat.pow 2 1024 - Nat.pow 2 970

def render (number : Number) : Bytes :=
  let sign := if number.negative then [Ascii.minus] else []
  let fraction := if number.fraction = [] then [] else Ascii.point :: number.fraction
  let exponent := match number.exponent with
    | none => []
    | some (.ofNat n) => Ascii.lowerE :: Decimal.ofNat n
    | some (.negSucc n) => Ascii.lowerE :: Ascii.minus :: Decimal.ofNat (n + 1)
  sign ++ number.whole ++ fraction ++ exponent

def scanDigits (bytes : Bytes) : Option (Bytes × Bytes) :=
  match bytes.span Decimal.isDigit with
  | ([], _) => none
  | (digits, rest) => some (digits, rest)

def scanFraction : Bytes → Option (Bytes × Bytes)
  | [] => some ([], [])
  | byte :: rest =>
    if byte = Ascii.point then scanDigits rest else some ([], byte :: rest)

/-- The bound that exponents keep to: the least number beyond 31 bits. -/
def exponentLimit : Nat :=
  0x80000000

def scanPower (bytes : Bytes) : Option (Nat × Bytes) :=
  (scanDigits bytes).map fun (digits, rest) => (Decimal.valueUpTo exponentLimit digits, rest)

def scanExponent : Bytes → Option (Option Int × Bytes)
  | [] => some (none, [])
  | byte :: rest =>
    if byte = Ascii.lowerE ∨ byte = Ascii.upperE then
      match rest with
      | [] => none
      | sign :: digits =>
        if sign = Ascii.minus then
          (scanPower digits).map fun (power, rest) => (some (-(power : Int)), rest)
        else if sign = Ascii.plus then
          (scanPower digits).map fun (power, rest) => (some (power : Int), rest)
        else
          (scanPower (sign :: digits)).map fun (power, rest) => (some (power : Int), rest)
    else
      some (none, byte :: rest)

def scanSign : Bytes → Bool × Bytes
  | [] => (false, [])
  | byte :: rest => if byte = Ascii.minus then (true, rest) else (false, byte :: rest)

/-- The number at the front of the bytes and the rest. A zero takes no digits after it. -/
def scan (bytes : Bytes) : Option (Number × Bytes) := do
  let (negative, bytes) := scanSign bytes
  let (whole, bytes) ← scanDigits bytes
  if whole.head? = some Ascii.zero ∧ whole.length ≠ 1 then
    none
  let (fraction, bytes) ← scanFraction bytes
  let (exponent, bytes) ← scanExponent bytes
  return ({ negative, whole, fraction, exponent }, bytes)

end Number

end Fanout.Json
