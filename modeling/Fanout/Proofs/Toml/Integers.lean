import Fanout.Toml.Scalar
import Mathlib.Data.List.Basic
import Mathlib.Data.List.TakeDrop

/-!
# Integers

Main statements: a number that fits 64 bits is read back from its digits (`read_digits`), and no
integer is read that does not fit (`fits_of_read`).
-/

namespace Fanout.Toml

/-- A span ends at the first character that does not belong to it. -/
theorem span_append_cons {p : Char → Bool} {front : Chars} {c : Char}
    (inside : ∀ d ∈ front, p d = true) (outside : p c = false) (rest : Chars) :
    (front ++ c :: rest).span p = (front, c :: rest) := by
  rw [List.span_eq_takeWhile_dropWhile, List.takeWhile_append_of_pos inside,
    List.dropWhile_append_of_pos inside]
  simp [outside]

namespace Scalar

variable {text rest digits : Chars} {scalar : Scalar}

theorem le_foldl_appendDigit {base : Nat} (positive : 0 < base) (digits : Chars) (n : Nat) :
    n ≤ digits.foldl (appendDigit base) n := by
  induction digits generalizing n with
  | nil => exact Nat.le_refl n
  | cons c digits ih =>
    have grows : n ≤ appendDigit base n c :=
      Nat.le_trans (Nat.le_mul_of_pos_right n positive) (Nat.le_add_right _ _)
    exact Nat.le_trans grows (ih _)

/-- Keeping to a bound on the way gives the number if it is within the bound. -/
theorem numeralUpTo?_eq {base : Nat} (positive : 0 < base) (bound : Nat) (digits : Chars) :
    numeralUpTo? bound base digits =
      if numeral base digits ≤ bound then some (numeral base digits) else none := by
  suffices general : ∀ n ≤ bound,
      digits.foldlM (fun n c => Option.guard (· ≤ bound) (appendDigit base n c)) n =
        if digits.foldl (appendDigit base) n ≤ bound then
          some (digits.foldl (appendDigit base) n)
        else none from
    general 0 (Nat.zero_le bound)
  induction digits with
  | nil =>
    intro n within
    rw [List.foldl_nil, if_pos within]
    rfl
  | cons c digits ih =>
    intro n _
    rw [List.foldlM_cons, List.foldl_cons]
    by_cases within : appendDigit base n c ≤ bound
    · rw [Option.guard, if_pos (by simpa using within)]
      exact ih _ within
    · have later := le_foldl_appendDigit positive digits (appendDigit base n c)
      rw [Option.guard, if_neg (by simpa using within), if_neg (by omega)]
      rfl

theorem le_of_numeralUpTo? {base bound n : Nat} (positive : 0 < base)
    (h : numeralUpTo? bound base digits = some n) : n ≤ bound := by
  rw [numeralUpTo?_eq positive] at h
  split_ifs at h with within
  exact Option.some.inj h ▸ within

def greatest : Nat :=
  0x7FFFFFFFFFFFFFFF

/-- Whether a scalar is no integer above the greatest. -/
def Fits (scalar : Scalar) : Prop :=
  ∀ n, scalar = .integer n → n ≤ greatest

theorem fits_of_fit? {negative : Bool} {base : Nat} (positive : 0 < base)
    (h : fit? negative base digits = some scalar) : scalar.Fits := by
  unfold fit? at h
  rintro n rfl
  split_ifs at h
  · obtain ⟨size, known, same⟩ := Option.map_eq_some_iff.1 h
    obtain ⟨m, -, cast⟩ := Option.bind_eq_some_iff.1 known
    cases cast
    cases same
    omega
  · obtain ⟨size, known, same⟩ := Option.map_eq_some_iff.1 h
    obtain ⟨m, within, cast⟩ := Option.bind_eq_some_iff.1 known
    cases cast
    cases same
    exact Int.ofNat_le.2 (le_of_numeralUpTo? positive within)

theorem fits_of_integer? (h : integer? text = some scalar) : scalar.Fits := by
  unfold integer? at h
  split at h
  · obtain ⟨digits, -, fits⟩ := Option.bind_eq_some_iff.1 h
    exact fits_of_fit? (by decide) fits
  · obtain ⟨digits, -, fits⟩ := Option.bind_eq_some_iff.1 h
    exact fits_of_fit? (by decide) fits
  · obtain ⟨digits, -, fits⟩ := Option.bind_eq_some_iff.1 h
    exact fits_of_fit? (by decide) fits
  · obtain ⟨digits, -, fits⟩ := Option.bind_eq_some_iff.1 h
    exact fits_of_fit? (by decide) fits

theorem eq_float_of_float? (h : float? text = some scalar) : scalar = .float text := by
  have kept {condition : Prop} [Decidable condition]
      (h : (if condition then some (float text) else none) = some scalar) :
      scalar = .float text := by
    split_ifs at h
    exact (Option.some.inj h).symm
  unfold float? at h
  dsimp only at h
  -- Whatever stands in front of it, the last step keeps the text.
  split at h
  all_goals
    obtain ⟨exponent, -, h⟩ := Option.bind_eq_some_iff.1 h
    obtain ⟨whole, -, h⟩ := Option.bind_eq_some_iff.1 h
    split at h
    · split_ifs at h
      · cases h
      · exact kept h
    · obtain ⟨fraction, -, h⟩ := Option.bind_eq_some_iff.1 h
      exact kept h

theorem fits_of_ofChars? (h : ofChars? text = some scalar) : scalar.Fits := by
  unfold ofChars? at h
  split_ifs at h
  · cases h
    exact fun n same => nomatch same
  · cases h
    exact fun n same => nomatch same
  · obtain known | ⟨-, h⟩ := Option.or_eq_some_iff.1 h
    · exact fits_of_integer? known
    obtain known | ⟨-, h⟩ := Option.or_eq_some_iff.1 h
    · rw [eq_float_of_float? known]
      exact fun n same => nomatch same
    obtain known | ⟨-, h⟩ := Option.or_eq_some_iff.1 h
    · unfold special? at known
      dsimp only at known
      split_ifs at known
      cases known
      exact fun n same => nomatch same
    · unfold moment? at h
      dsimp only at h
      split_ifs at h
      cases h
      exact fun n same => nomatch same

theorem fits_of_read (h : read text = some (scalar, rest)) : scalar.Fits := by
  have spelled : ∃ spelling, ofChars? spelling = some scalar := by
    unfold read at h
    dsimp only at h
    split at h
    · split_ifs at h
      · obtain ⟨_, known, same⟩ := Option.map_eq_some_iff.1 h
        cases same
        exact ⟨_, known⟩
      · obtain ⟨_, known, same⟩ := Option.map_eq_some_iff.1 h
        cases same
        exact ⟨_, known⟩
    · obtain ⟨_, known, same⟩ := Option.map_eq_some_iff.1 h
      cases same
      exact ⟨_, known⟩
  obtain ⟨spelling, known⟩ := spelled
  exact fits_of_ofChars? known

theorem toList_toString (n : Nat) : (toString n).toList = Nat.toDigits 10 n := by
  rw [Nat.toString_eq_repr, Nat.repr_eq_ofList_toDigits, String.toList_ofList]

theorem isDigit_of_mem_toDigits {n : Nat} {c : Char} (h : c ∈ Nat.toDigits 10 n) :
    isDigit c = true :=
  Nat.isDigit_of_mem_toDigits (by decide) (by decide) h

theorem not_mem_toDigits {n : Nat} {c : Char} (h : isDigit c = false) :
    c ∉ Nat.toDigits 10 n := fun member =>
  Bool.noConfusion (h.symm.trans (isDigit_of_mem_toDigits member))

theorem areDigits_of_forall {ok : Char → Bool} (nonempty : text ≠ [])
    (all : ∀ c ∈ text, ok c = true) (single : '_' ∉ text) : areDigits ok text = true := by
  fun_induction areDigits ok text with
  | case1 => exact absurd rfl nonempty
  | case2 c => exact all c List.mem_cons_self
  | case3 c rest => simp at single
  | case4 c rest more _ ih =>
    obtain ⟨first, others⟩ := List.forall_mem_cons.1 all
    rw [first, ih more others fun member => single (List.mem_cons_of_mem c member)]
    rfl

theorem head?_toDigits_ne {n : Nat} (positive : 0 < n) :
    (Nat.toDigits 10 n).head? ≠ some '0' := by
  induction n using Nat.strongRecOn with
  | ind n ih =>
    by_cases small : n < 10
    · have few : ∀ n < 10, 0 < n → some n.digitChar ≠ some '0' := by decide
      rw [Nat.toDigits_of_lt_base small, List.head?_cons]
      exact few n small positive
    · have shorter := ih (n / 10) (by omega) (by omega)
      rw [Nat.toDigits_of_base_le (by decide) (by omega), List.head?_append]
      cases front : (Nat.toDigits 10 (n / 10)).head? with
      | none => exact absurd (List.head?_eq_none_iff.1 front) Nat.toDigits_ne_nil
      | some c => rwa [front] at shorter

theorem decimal?_toDigits (n : Nat) :
    decimal? (Nat.toDigits 10 n) = some (Nat.toDigits 10 n) := by
  have noUnderscore : '_' ∉ Nat.toDigits 10 n := not_mem_toDigits rfl
  have digits : digits? isDigit (Nat.toDigits 10 n) = some (Nat.toDigits 10 n) := by
    have all := areDigits_of_forall Nat.toDigits_ne_nil
      (fun _ => isDigit_of_mem_toDigits (n := n)) noUnderscore
    rw [digits?, if_pos all, List.filter_eq_self.2]
    intro c member
    exact decide_eq_true fun same => noUnderscore (same ▸ member)
  have alone : ¬((Nat.toDigits 10 n).head? = some '0' ∧ (Nat.toDigits 10 n).length ≠ 1) := by
    rintro ⟨zero, long⟩
    obtain rfl | positive := Nat.eq_zero_or_pos n
    · exact long rfl
    · exact head?_toDigits_ne positive zero
  rw [decimal?, digits]
  exact if_neg alone

theorem hexValue?_of_isDigit {c : Char} (h : isDigit c = true) :
    Text.hexValue? c = some (c.toNat - 48) := by
  rw [isDigit, Bool.and_eq_true, decide_eq_true_eq, decide_eq_true_eq] at h
  exact if_pos h

theorem numeral_toDigits (n : Nat) : numeral 10 (Nat.toDigits 10 n) = n := by
  have step : ∀ m, ∀ c ∈ Nat.toDigits 10 n,
      appendDigit 10 m c = 10 * m + (c.toNat - '0'.toNat) := by
    intro m c member
    rw [appendDigit, hexValue?_of_isDigit (isDigit_of_mem_toDigits member), Nat.mul_comm]
    rfl
  rw [numeral, List.foldl_ext _ _ 0 step, ← Nat.ofDigitChars_eq_foldl]
  exact Nat.ofDigitChars_toDigits (by decide) (by decide)

theorem integer?_toDigits {n : Nat} (within : n ≤ greatest) :
    integer? (Nat.toDigits 10 n) = some (.integer n) := by
  have signed : integer? (Nat.toDigits 10 n) = signed? (Nat.toDigits 10 n) := by
    unfold integer?
    split
    next same => exact absurd (by simp [same]) (not_mem_toDigits (n := n) (c := 'x') rfl)
    next same => exact absurd (by simp [same]) (not_mem_toDigits (n := n) (c := 'o') rfl)
    next same => exact absurd (by simp [same]) (not_mem_toDigits (n := n) (c := 'b') rfl)
    next => rfl
  have noSign : splitSign (Nat.toDigits 10 n) = (false, Nat.toDigits 10 n) := by
    unfold splitSign
    split
    next same => exact absurd (by simp [same]) (not_mem_toDigits (n := n) (c := '-') rfl)
    next same => exact absurd (by simp [same]) (not_mem_toDigits (n := n) (c := '+') rfl)
    next => rfl
  have size : numeralUpTo? 0x7FFFFFFFFFFFFFFF 10 (Nat.toDigits 10 n) = some n := by
    rw [numeralUpTo?_eq (by decide), numeral_toDigits]
    exact if_pos within
  rw [signed, signed?, noSign]
  simp [decimal?_toDigits, fit?, size]

theorem isPart_of_isDigit {c : Char} (h : isDigit c = true) : isPart c = true := by
  have digit : c.isDigit = true := h
  simp [isPart, Char.isAlphanum, digit]

theorem ofChars?_toDigits {n : Nat} (within : n ≤ greatest) :
    ofChars? (Nat.toDigits 10 n) = some (.integer n) := by
  have noTrue : Nat.toDigits 10 n ≠ ['t', 'r', 'u', 'e'] := fun same =>
    not_mem_toDigits (n := n) (c := 't') rfl (by simp [same])
  have noFalse : Nat.toDigits 10 n ≠ ['f', 'a', 'l', 's', 'e'] := fun same =>
    not_mem_toDigits (n := n) (c := 'f') rfl (by simp [same])
  rw [ofChars?, if_neg noTrue, if_neg noFalse, integer?_toDigits within, Option.some_or]

/-- A number is read back from its digits in front of a line end. -/
theorem read_digits {n : Nat} (within : n ≤ greatest) (rest : Chars) :
    read ((toString n).toList ++ '\n' :: rest) = some (.integer n, '\n' :: rest) := by
  have split : ((toString n).toList ++ '\n' :: rest).span isPart =
      (Nat.toDigits 10 n, '\n' :: rest) := by
    rw [toList_toString]
    have inside : ∀ c ∈ Nat.toDigits 10 n, isPart c = true := fun c member =>
      isPart_of_isDigit (isDigit_of_mem_toDigits member)
    exact span_append_cons inside (by decide) rest
  rw [read, split]
  simp [ofChars?_toDigits within]

end Scalar

end Fanout.Toml
