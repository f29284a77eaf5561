import Fanout.Bytes

/-!
# Decimal numbers

Natural numbers as ASCII digits, without leading zeros. Main statements: the digits of a number have
that number as their value (`value_ofNat`), and a bound may be kept to while the digits are read
(`valueUpTo_eq`), so that long digits take no long numbers.
-/

namespace Fanout.Decimal

def digit (n : Nat) : UInt8 :=
  UInt8.ofNat (48 + n)

def isDigit (byte : UInt8) : Bool :=
  48 ≤ byte && byte ≤ 57

def digitValue (byte : UInt8) : Nat :=
  byte.toNat - 48

def value (digits : Bytes) : Nat :=
  digits.foldl (fun n byte => n * 10 + digitValue byte) 0

/-- The number that digits spell, or the bound if that is less. -/
def valueUpTo (bound : Nat) (digits : Bytes) : Nat :=
  digits.foldl (fun n byte => min bound (n * 10 + digitValue byte)) 0

/-- The digits of a number, most significant first. -/
def ofNat (n : Nat) : Bytes :=
  if n < 10 then [digit n] else ofNat (n / 10) ++ [digit (n % 10)]

theorem digitValue_digit {n : Nat} (h : n < 10) : digitValue (digit n) = n := by
  simp only [digitValue, digit, UInt8.toNat_ofNat']
  omega

theorem isDigit_digit {n : Nat} (h : n < 10) : isDigit (digit n) = true := by
  simp only [isDigit, digit, Bool.and_eq_true, decide_eq_true_eq, UInt8.le_iff_toNat_le,
    UInt8.toNat_ofNat']
  constructor <;> simp <;> omega

theorem value_append_digit (digits : Bytes) (byte : UInt8) :
    value (digits ++ [byte]) = value digits * 10 + digitValue byte := by
  simp [value]

theorem min_value_foldl (bound n : Nat) (digits : Bytes) :
    digits.foldl (fun n byte => min bound (n * 10 + digitValue byte)) (min bound n) =
      min bound (digits.foldl (fun n byte => n * 10 + digitValue byte) n) := by
  induction digits generalizing n with
  | nil => rfl
  | cons byte digits ih =>
    rw [List.foldl_cons, List.foldl_cons, ← ih]
    congr 1
    omega

/-- Keeping to the bound on the way gives the same as keeping to it in the end. -/
theorem valueUpTo_eq (bound : Nat) (digits : Bytes) :
    valueUpTo bound digits = min bound (value digits) := by
  rw [valueUpTo, value, ← min_value_foldl, Nat.min_zero]

@[simp] theorem value_ofNat (n : Nat) : value (ofNat n) = n := by
  fun_induction ofNat n with
  | case1 n small => simp [value, digitValue_digit small]
  | case2 n large ih =>
    rw [value_append_digit, ih, digitValue_digit (Nat.mod_lt _ (by decide))]
    omega

theorem isDigit_of_mem_ofNat {n : Nat} {byte : UInt8} (h : byte ∈ ofNat n) :
    isDigit byte = true := by
  fun_induction ofNat n with
  | case1 n small =>
    rw [List.mem_singleton.1 h]
    exact isDigit_digit small
  | case2 n large ih =>
    rcases List.mem_append.1 h with front | last
    · exact ih front
    · rw [List.mem_singleton.1 last]
      exact isDigit_digit (Nat.mod_lt _ (by decide))

theorem ofNat_ne_nil (n : Nat) : ofNat n ≠ [] := by
  unfold ofNat
  split <;> simp

end Fanout.Decimal
