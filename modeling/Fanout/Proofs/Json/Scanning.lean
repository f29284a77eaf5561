import Fanout.Json.Value
import Mathlib.Data.List.TakeDrop

/-!
# Compact texts are read back

The compact text of a value is the bytes of its tokens, one after the other. A token is read back
from its bytes whatever follows them, unless it is a number and what follows would prolong it.
Between the tokens of a value this never happens, since a comma or a closing bracket follows each of
its parts. Main statement: a value whose numbers are integers and whose strings are texts is read
back from its compact text (`parse?_render`).
-/

namespace Fanout

namespace Decimal

/-- Only zero is written with a leading zero. -/
theorem head?_ofNat_ne_zero {n : Nat} (h : n ≠ 0) : (ofNat n).head? ≠ some Ascii.zero := by
  fun_induction ofNat n with
  | case1 n small =>
    have first : (digit n).toNat = 48 + n := by
      simp only [digit, UInt8.toNat_ofNat']
      omega
    have zero : Ascii.zero.toNat = 48 := rfl
    intro same
    rw [List.head?_cons, Option.some.injEq] at same
    rw [same, zero] at first
    omega
  | case2 n large ih =>
    have front : (ofNat (n / 10)).head? ≠ some Ascii.zero := by
      apply ih
      omega
    cases digits : ofNat (n / 10) with
    | nil => exact absurd digits (ofNat_ne_nil _)
    | cons first rest => simpa [digits] using front

theorem exists_ofNat (n : Nat) :
    ∃ first others, ofNat n = first :: others ∧ isDigit first = true := by
  cases digits : ofNat n with
  | nil => exact absurd digits (ofNat_ne_nil n)
  | cons first others =>
    have digit : isDigit first = true := by
      apply isDigit_of_mem_ofNat (n := n)
      simp [digits]
    exact ⟨first, others, rfl, digit⟩

end Decimal

namespace Json

namespace Number

/-- Whether a byte behind the digits of a number belongs to the number. -/
def prolongs (byte : UInt8) : Bool :=
  Decimal.isDigit byte || byte == Ascii.point || byte == Ascii.lowerE || byte == Ascii.upperE

/-- Whether a number that stands before these bytes is complete. -/
def Ends (rest : Bytes) : Prop :=
  ∀ byte, rest.head? = some byte → prolongs byte = false

theorem ends_nil : Ends [] := by
  intro byte first
  simp at first

theorem ends_cons {byte : UInt8} {rest : Bytes} (h : prolongs byte = false) :
    Ends (byte :: rest) := by
  intro other first
  rw [List.head?_cons, Option.some.injEq] at first
  exact first ▸ h

theorem span_append {p : UInt8 → Bool} {front rest : Bytes}
    (inside : ∀ byte ∈ front, p byte = true)
    (stop : ∀ byte, rest.head? = some byte → p byte = false) :
    (front ++ rest).span p = (front, rest) := by
  rw [List.span_eq_takeWhile_dropWhile, List.takeWhile_append_of_pos inside,
    List.dropWhile_append_of_pos inside]
  cases rest with
  | nil => simp
  | cons byte rest => simp [stop byte rfl]

theorem scanDigits_ofNat (n : Nat) {rest : Bytes} (ends : Ends rest) :
    scanDigits (Decimal.ofNat n ++ rest) = some (Decimal.ofNat n, rest) := by
  have stop : ∀ byte, rest.head? = some byte → Decimal.isDigit byte = false := by
    intro byte first
    have complete := ends byte first
    simp only [prolongs, Bool.or_eq_false_iff] at complete
    exact complete.1.1.1
  have split := span_append (fun _ => Decimal.isDigit_of_mem_ofNat (n := n)) stop
  obtain ⟨first, others, digits, -⟩ := Decimal.exists_ofNat n
  rw [digits] at split
  simp only [scanDigits, digits, split]

theorem scanFraction_of_ends {rest : Bytes} (ends : Ends rest) :
    scanFraction rest = some ([], rest) := by
  cases rest with
  | nil => rfl
  | cons byte rest =>
    have complete := ends byte rfl
    simp only [prolongs, Bool.or_eq_false_iff, beq_eq_false_iff_ne] at complete
    rw [scanFraction, if_neg complete.1.1.2]

theorem scanExponent_of_ends {rest : Bytes} (ends : Ends rest) :
    scanExponent rest = some (none, rest) := by
  cases rest with
  | nil => rfl
  | cons byte rest =>
    have complete := ends byte rfl
    simp only [prolongs, Bool.or_eq_false_iff, beq_eq_false_iff_ne] at complete
    rw [scanExponent.eq_def]
    dsimp only
    rw [if_neg]
    rintro (lower | upper)
    · exact complete.1.2 lower
    · exact complete.2 upper

theorem scanSign_ofInt (n : Int) (rest : Bytes) :
    scanSign ((ofInt n).render ++ rest) =
      ((ofInt n).negative, Decimal.ofNat n.natAbs ++ rest) := by
  by_cases negative : n < 0
  · simp [render, ofInt, negative, scanSign]
  · obtain ⟨first, others, digits, digit⟩ := Decimal.exists_ofNat n.natAbs
    have noSign : first ≠ Ascii.minus := by
      rintro rfl
      exact absurd digit (by decide)
    simp [render, ofInt, negative, digits, scanSign, noSign]

def starts (byte : UInt8) : Bool :=
  byte == Ascii.minus || Decimal.isDigit byte

theorem exists_render_ofInt (n : Int) :
    ∃ first others, (ofInt n).render = first :: others ∧ starts first = true := by
  by_cases negative : n < 0
  · exact ⟨Ascii.minus, Decimal.ofNat n.natAbs, by simp [render, ofInt, negative], rfl⟩
  · obtain ⟨first, others, digits, digit⟩ := Decimal.exists_ofNat n.natAbs
    exact ⟨first, others, by simp [render, ofInt, negative, digits], by simp [starts, digit]⟩

/-- An integer is read back from its digits, unless what follows prolongs them. -/
theorem scan_ofInt (n : Int) {rest : Bytes} (ends : Ends rest) :
    scan ((ofInt n).render ++ rest) = some (ofInt n, rest) := by
  have noLeadingZero : ¬ ((Decimal.ofNat n.natAbs).head? = some Ascii.zero ∧
      (Decimal.ofNat n.natAbs).length ≠ 1) := by
    rintro ⟨zero, long⟩
    by_cases null : n.natAbs = 0
    · rw [null] at long
      exact absurd (by simp [Decimal.ofNat]) long
    · exact Decimal.head?_ofNat_ne_zero null zero
  simp only [scan, scanSign_ofInt, scanDigits_ofNat _ ends, if_neg noLeadingZero,
    scanFraction_of_ends ends, scanExponent_of_ends ends, Option.bind_eq_bind, Option.bind_some]
  rfl

end Number

namespace Quoted

theorem hexValue?_hexDigit {n : Nat} (h : n < 16) : hexValue? (hexDigit n) = some n := by
  have each : ∀ n : Fin 16, hexValue? (hexDigit n) = some n.val := by decide
  exact each ⟨n, h⟩

theorem unitOfHex?_hexDigits {unit : Nat} (h : unit < 65536) :
    unitOfHex? (hexDigit (unit / 4096 % 16)) (hexDigit (unit / 256 % 16))
      (hexDigit (unit / 16 % 16)) (hexDigit (unit % 16)) = some unit := by
  have digit : ∀ n, hexValue? (hexDigit (n % 16)) = some (n % 16) :=
    fun n => hexValue?_hexDigit (Nat.mod_lt n (by decide))
  simp only [unitOfHex?, digit, Option.bind_eq_bind, Option.bind_some, Option.pure_def,
    Option.some.injEq]
  omega

theorem unescape?_of_escapeLetter? {byte letter : UInt8} (h : escapeLetter? byte = some letter) :
    unescape? letter = some byte ∧ letter ≠ Ascii.lowerU := by
  revert h
  fun_cases escapeLetter? byte with
  | case8 => simp
  | _ =>
    rintro ⟨⟩
    subst byte
    decide

theorem scanOnto_renderPiece (taken : Quoted) (byte : UInt8) (rest : Bytes) :
    scanOnto taken (renderPiece (.byte byte) ++ rest) = scanOnto (.byte byte :: taken) rest := by
  have quote : Ascii.backslash ≠ Ascii.quote := by decide
  cases escaped : escapeLetter? byte with
  | some letter =>
    obtain ⟨back, noUnit⟩ := unescape?_of_escapeLetter? escaped
    rw [renderPiece, escaped, scanOnto.eq_def]
    simp [quote, noUnit, back]
  | none =>
    have plain : byte ≠ Ascii.quote ∧ byte ≠ Ascii.backslash := by
      constructor
      · rintro rfl
        exact absurd escaped (by decide)
      · rintro rfl
        exact absurd escaped (by decide)
    by_cases control : byte < Ascii.space
    · have small : byte.toNat < 32 := UInt8.lt_iff_toNat_lt.1 control
      have fits : byte.toNat < 65536 := by omega
      have back := unitOfHex?_hexDigits fits
      have piece : pieceOfUnit byte.toNat = .byte byte := by
        rw [pieceOfUnit, if_pos (by omega), UInt8.ofNat_toNat]
      rw [renderPiece, escaped, scanOnto.eq_def]
      simp [control, renderUnit, quote, back, piece]
    · rw [renderPiece, escaped, scanOnto.eq_def]
      simp [control, plain]

theorem scanOnto_render (taken : Quoted) (bytes rest : Bytes) :
    scanOnto taken ((bytes.map Piece.byte).flatMap renderPiece ++ Ascii.quote :: rest) =
      some (taken.reverse ++ bytes.map .byte, rest) := by
  induction bytes generalizing taken with
  | nil =>
    rw [scanOnto.eq_def]
    simp
  | cons byte bytes ih =>
    rw [List.map_cons, List.flatMap_cons, List.append_assoc, scanOnto_renderPiece, ih]
    simp

/-- Bytes are read back from between quotes: what has to be escaped is escaped. -/
theorem scan_render (bytes rest : Bytes) :
    scan ((bytes.map Piece.byte).flatMap renderPiece ++ Ascii.quote :: rest) =
      some (bytes.map .byte, rest) :=
  scanOnto_render [] bytes rest

end Quoted

namespace Token

/-- Whether a token is one that values are written with and is complete before these bytes. -/
def Legible (rest : Bytes) : Token → Prop
  | number value => (∃ n, value = .ofInt n) ∧ Number.Ends rest
  | string contents => ∃ text, contents = Quoted.ofText text
  | _ => True

theorem scanWord_self (word : Bytes) (token : Token) (rest : Bytes) :
    scanWord word token (word ++ rest) = some (token, rest) := by
  rw [scanWord, Bytes.split?_append rest rfl]
  simp

/-- A number is told from the other tokens by its first byte. -/
theorem scanOne_number {byte : UInt8} (h : Number.starts byte = true) (rest : Bytes) :
    scanOne (byte :: rest) =
      (Number.scan (byte :: rest)).map fun (found, rest) => (number found, rest) := by
  have other : ∀ mark, Number.starts mark = false → byte ≠ mark := by
    rintro mark no rfl
    exact absurd h (by simp [no])
  simp [scanOne, other Ascii.openBracket rfl, other Ascii.closeBracket rfl,
    other Ascii.openBrace rfl, other Ascii.closeBrace rfl, other Ascii.comma rfl,
    other Ascii.colon rfl, other Ascii.quote rfl, other Ascii.lowerN rfl, other Ascii.lowerT rfl,
    other Ascii.lowerF rfl]

/-- A token is read back from its bytes. -/
theorem scanOne_render {token : Token} {rest : Bytes} (h : token.Legible rest) :
    scanOne (token.render ++ rest) = some (token, rest) := by
  cases token with
  | number value =>
    obtain ⟨⟨n, rfl⟩, ends⟩ := h
    obtain ⟨first, others, shape, starts⟩ := Number.exists_render_ofInt n
    have back := Number.scan_ofInt n ends
    simp only [render, shape, List.cons_append] at back ⊢
    rw [scanOne_number starts, back]
    rfl
  | string contents =>
    obtain ⟨text, rfl⟩ := h
    have back := Quoted.scan_render (Bytes.ofText text) rest
    have shape : (string (.ofText text)).render ++ rest = Ascii.quote ::
        (((Bytes.ofText text).map Piece.byte).flatMap Quoted.renderPiece ++
          Ascii.quote :: rest) := by
      simp [render, Quoted.render, Quoted.ofText]
    rw [shape]
    show (Quoted.scan _).map _ = _
    rw [back]
    rfl
  | null => exact scanWord_self null.render null rest
  | bool value =>
    cases value with
    | true => exact scanWord_self (bool true).render (bool true) rest
    | false => exact scanWord_self (bool false).render (bool false) rest
  | openArray | closeArray | openObject | closeObject | comma | colon => rfl

theorem exists_render {token : Token} {rest : Bytes} (h : token.Legible rest) :
    ∃ first others, token.render = first :: others ∧ isBlank first = false := by
  cases token with
  | number value =>
    obtain ⟨⟨n, rfl⟩, -⟩ := h
    obtain ⟨first, others, shape, starts⟩ := Number.exists_render_ofInt n
    refine ⟨first, others, shape, ?_⟩
    cases blank : isBlank first with
    | false => rfl
    | true =>
      simp only [isBlank, Bool.or_eq_true, beq_iff_eq] at blank
      rcases blank with ((rfl | rfl) | rfl) | rfl <;> exact absurd starts (by decide)
  | string contents => exact ⟨Ascii.quote, _, rfl, rfl⟩
  | bool value => cases value <;> exact ⟨_, _, rfl, rfl⟩
  | null | openArray | closeArray | openObject | closeObject | comma | colon =>
    exact ⟨_, _, rfl, rfl⟩

def renderAll (tokens : List Token) : Bytes :=
  tokens.flatMap render

/-- Whether each of the tokens is legible before the ones that follow it. -/
def AllLegible : List Token → Prop
  | [] => True
  | token :: tokens => token.Legible (renderAll tokens) ∧ AllLegible tokens

theorem scanOnto_renderAll {fuel : Nat} {taken tokens : List Token} (h : AllLegible tokens)
    (enough : tokens.length < fuel) :
    scanOnto fuel taken (renderAll tokens) = some (taken.reverse ++ tokens) := by
  induction tokens generalizing fuel taken with
  | nil =>
    obtain ⟨fuel, rfl⟩ : ∃ less, fuel = less + 1 := ⟨fuel - 1, by simp at enough; omega⟩
    simp [renderAll, scanOnto]
  | cons token tokens ih =>
    obtain ⟨legible, later⟩ := h
    obtain ⟨fuel, rfl⟩ : ∃ less, fuel = less + 1 := ⟨fuel - 1, by simp at enough; omega⟩
    obtain ⟨first, others, shape, notBlank⟩ := exists_render legible
    have one := scanOne_render legible
    have all : renderAll (token :: tokens) = token.render ++ renderAll tokens := rfl
    rw [shape, List.cons_append] at one
    rw [all, shape, List.cons_append, scanOnto, List.dropWhile_cons_of_neg (by simp [notBlank])]
    simp only [one]
    rw [ih later (Nat.lt_of_succ_lt_succ enough)]
    simp

theorem length_le_renderAll {tokens : List Token} (h : AllLegible tokens) :
    tokens.length ≤ (renderAll tokens).length := by
  induction tokens with
  | nil => simp
  | cons token tokens ih =>
    obtain ⟨first, others, shape, -⟩ := exists_render h.1
    have later := ih h.2
    have all : renderAll (token :: tokens) = token.render ++ renderAll tokens := rfl
    rw [all, shape, List.length_append, List.length_cons, List.length_cons]
    omega

theorem scan_renderAll {tokens : List Token} (h : AllLegible tokens) :
    scan (renderAll tokens) = some tokens := by
  have enough := length_le_renderAll h
  rw [scan, scanOnto_renderAll h (by omega)]
  rfl

end Token

namespace Value

/-- Values whose numbers are integers and whose strings are texts. -/
inductive Plain : Value → Prop
  | null : Plain null
  | bool (value : Bool) : Plain (bool value)
  | integer (n : Int) : Plain (number (.ofInt n))
  | text (text : String) : Plain (string (.ofText text))
  | array {items : List Value} (each : ∀ item ∈ items, Plain item) : Plain (array items)
  | object {members : List (Quoted × Value)}
      (keys : ∀ member ∈ members, ∃ key, member.1 = .ofText key)
      (each : ∀ member ∈ members, Plain member.2) : Plain (object members)

open Token

theorem ends_itemTokens (items : List Value) (rest : List Token) :
    Number.Ends (renderAll (itemTokens items ++ rest)) := by
  cases items <;> exact Number.ends_cons rfl

theorem ends_memberTokens (members : List (Quoted × Value)) (rest : List Token) :
    Number.Ends (renderAll (memberTokens members ++ rest)) := by
  cases members <;> exact Number.ends_cons rfl

theorem legible_itemTokens {items : List Value} {rest : List Token} (later : AllLegible rest)
    (each : ∀ item ∈ items, ∀ rest, AllLegible rest → Number.Ends (renderAll rest) →
      AllLegible (item.tokens ++ rest)) :
    AllLegible (itemTokens items ++ rest) := by
  induction items with
  | nil => exact ⟨trivial, later⟩
  | cons item items ih =>
    have others := ih fun item member => each item (List.mem_cons_of_mem _ member)
    have first := each item (by simp) _ others (ends_itemTokens items rest)
    simp only [itemTokens, List.cons_append, List.append_assoc]
    exact ⟨trivial, first⟩

theorem legible_memberTokens {members : List (Quoted × Value)} {rest : List Token}
    (later : AllLegible rest) (keys : ∀ member ∈ members, ∃ key, member.1 = .ofText key)
    (each : ∀ member ∈ members, ∀ rest, AllLegible rest → Number.Ends (renderAll rest) →
      AllLegible (member.2.tokens ++ rest)) :
    AllLegible (memberTokens members ++ rest) := by
  induction members with
  | nil => exact ⟨trivial, later⟩
  | cons member members ih =>
    obtain ⟨key, value⟩ := member
    have others := ih (fun member among => keys member (List.mem_cons_of_mem _ among))
      fun member among => each member (List.mem_cons_of_mem _ among)
    have first := each (key, value) (by simp) _ others (ends_memberTokens members rest)
    simp only [memberTokens, List.cons_append, List.append_assoc]
    exact ⟨trivial, keys (key, value) (by simp), trivial, first⟩

/-- The tokens of a plain value are legible before anything that does not prolong a number. -/
theorem Plain.legible {value : Value} (h : value.Plain) {rest : List Token}
    (later : AllLegible rest) (ends : Number.Ends (renderAll rest)) :
    AllLegible (value.tokens ++ rest) := by
  induction h generalizing rest with
  | null | bool => exact ⟨trivial, later⟩
  | integer n => exact ⟨⟨⟨n, rfl⟩, ends⟩, later⟩
  | text text => exact ⟨⟨text, rfl⟩, later⟩
  | @array items each ih =>
    cases items with
    | nil => exact ⟨trivial, trivial, later⟩
    | cons item items =>
      have others := legible_itemTokens later fun item member rest later ends =>
        ih item (List.mem_cons_of_mem _ member) later ends
      have first := ih item (by simp) others (ends_itemTokens items rest)
      simp only [tokens, List.cons_append, List.append_assoc]
      exact ⟨trivial, first⟩
  | @object members keys each ih =>
    cases members with
    | nil => exact ⟨trivial, trivial, later⟩
    | cons member members =>
      obtain ⟨key, value⟩ := member
      have others := legible_memberTokens later
        (fun member among => keys member (List.mem_cons_of_mem _ among))
        fun member among rest later ends => ih member (List.mem_cons_of_mem _ among) later ends
      have first := ih (key, value) (by simp) others (ends_memberTokens members rest)
      simp only [tokens, List.cons_append, List.append_assoc]
      exact ⟨trivial, keys (key, value) (by simp), trivial, first⟩

/-- A plain value is read back from its compact text. -/
theorem parse?_render {value : Value} (h : value.Plain) : parse? value.render = some value := by
  have legible : AllLegible value.tokens := by
    have nothing : AllLegible [] := trivial
    simpa using h.legible nothing Number.ends_nil
  have scanned : Token.scan value.render = some value.tokens := scan_renderAll legible
  rw [parse?, scanned]
  exact ofTokens?_tokens value

end Value

end Json

end Fanout
