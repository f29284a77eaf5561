import Fanout.Toml.Text
import Mathlib.Data.List.TakeDrop

/-!
# Strings are read back

A text is read back from the string that is written for it, in every style and whatever it holds.
Inside basic strings this is a matter of one character after the other (`Spells`). Between triple
quotes the reader also looks ahead, since up to two quotes may stand before the closing ones; where
quotes are escaped, or a text has no more than two of them in a row, no other three quotes can be
taken for the end. Main statement: in front of a line end, what is written is read back
(`read_render`).
-/

namespace Fanout.Toml.Text

variable {c : Char} {spelling taken text rest : Chars}

/-- How a character may be spelled inside a basic string: by a letter behind a backslash, by its
number, or, if it is neither a quote nor a backslash, as it is. -/
inductive Spells : Chars → Char → Prop
  | letter {letter c : Char} : unescape? letter = some c → Spells ['\\', letter] c
  | number {a b d e c : Char} : charOfHex? [a, b, d, e] = some c → Spells ['\\', 'u', a, b, d, e] c
  | plain {c : Char} : isPlain c = true → c ≠ '"' → c ≠ '\\' → Spells [c] c

theorem ne_of_unescape? {letter : Char} (other : Char) (known : unescape? letter = some c)
    (unknown : unescape? other = none) : letter ≠ other := by
  rintro rfl
  rw [unknown] at known
  cases known

/-- What tells two characters apart shows that they differ. -/
theorem ne_of_test {test : Char → Bool} (other : Char) (passes : test c = true)
    (fails : test other = false) : c ≠ other := by
  rintro rfl
  rw [fails] at passes
  cases passes

theorem readBasicOnto_of_spells (h : Spells spelling c) (taken rest : Chars) :
    readBasicOnto taken (spelling ++ rest) = readBasicOnto (c :: taken) rest := by
  cases h with
  | letter known =>
    have short := ne_of_unescape? 'u' known rfl
    have long := ne_of_unescape? 'U' known rfl
    simp [readBasicOnto, known, short, long]
  | number known => simp [readBasicOnto, known]
  | plain plain noQuote noBackslash =>
    rw [List.cons_append, List.nil_append, readBasicOnto.eq_def]
    split <;> simp_all

theorem readMultiBasicOnto_backslash (taken rest : Chars) :
    readMultiBasicOnto .inside taken ('\\' :: rest) = readMultiBasicOnto .escaped taken rest := by
  rw [readMultiBasicOnto.eq_def]
  rfl

theorem readMultiBasicOnto_of_spells (h : Spells spelling c) (taken rest : Chars) :
    readMultiBasicOnto .inside taken (spelling ++ rest) =
      readMultiBasicOnto .inside (c :: taken) rest := by
  cases h with
  | letter known =>
    have short := ne_of_unescape? 'u' known rfl
    have long := ne_of_unescape? 'U' known rfl
    have noReturn := ne_of_unescape? '\r' known rfl
    have noFeed := ne_of_unescape? '\n' known rfl
    have noSpace := ne_of_unescape? ' ' known rfl
    have noTab := ne_of_unescape? '\t' known rfl
    rw [List.cons_append, readMultiBasicOnto_backslash, List.cons_append, List.nil_append,
      readMultiBasicOnto.eq_def]
    split <;> simp_all [isBlank]
  | number known =>
    rw [List.cons_append, readMultiBasicOnto_backslash, readMultiBasicOnto.eq_def]
    simp [isBlank, known]
  | plain plain noQuote noBackslash =>
    have noReturn := ne_of_test '\r' plain rfl
    have noFeed := ne_of_test '\n' plain rfl
    rw [List.cons_append, List.nil_append, readMultiBasicOnto.eq_def]
    split <;> simp_all

theorem isPlain_of_not_needsEscape (h : needsEscape c = false) (inLine : c ≠ '\n') :
    isPlain c = true := by
  simp only [needsEscape, Bool.or_eq_false_iff, Bool.and_eq_false_iff, bne_eq_false_iff_eq,
    decide_eq_false_iff_not, beq_eq_false_iff_ne] at h
  obtain ⟨(low | tab) | feed, noDelete⟩ := h
  · simp only [isPlain, Bool.or_eq_true, Bool.and_eq_true, decide_eq_true_eq]
    omega
  · subst tab
    rfl
  · exact absurd feed inLine

/-- The numbers of control characters are read back from four hexadecimal digits. -/
theorem charOfHex?_hexText {n : Nat} (small : n < 128) :
    ∃ a b d e, (hexText 4 n).toList = [a, b, d, e] ∧
      charOfHex? [a, b, d, e] = some (Char.ofNat n) := by
  have digits : ∀ n < 128, (hexText 4 n).toList.length = 4 ∧
      charOfHex? (hexText 4 n).toList = some (Char.ofNat n) := by
    decide +kernel
  obtain ⟨four, spells⟩ := digits n small
  match (hexText 4 n).toList, four, spells with
  | [a, b, d, e], _, spells => exact ⟨a, b, d, e, rfl, spells⟩

/-- Escaped or as it is, a character is spelled. -/
theorem spells_escape (noQuote : c ≠ '"') (inLine : c ≠ '\n') :
    Spells ((escape? c).getD [c]) c := by
  unfold escape?
  split_ifs with backspace tab feed return_ backslash control
  · subst backspace
    exact .letter rfl
  · subst tab
    exact .letter rfl
  · subst feed
    exact .letter rfl
  · subst return_
    exact .letter rfl
  · subst backslash
    exact .letter rfl
  · have small : c.toNat < 128 := by
      simp only [needsEscape, Bool.or_eq_true, Bool.and_eq_true, decide_eq_true_eq,
        beq_iff_eq] at control
      omega
    obtain ⟨a, b, d, e, digits, spells⟩ := charOfHex?_hexText small
    rw [Char.ofNat_toNat] at spells
    rw [digits]
    exact .number spells
  · exact .plain (isPlain_of_not_needsEscape (Bool.eq_false_iff.2 control) inLine) noQuote backslash

theorem exists_renderBasic (c : Char) (text : Chars) :
    ∃ spelling, Spells spelling c ∧ renderBasic (c :: text) = spelling ++ renderBasic text := by
  refine ⟨_, ?_, List.flatMap_cons⟩
  split_ifs with quote feed
  · subst quote
    exact .letter rfl
  · subst feed
    exact .letter rfl
  · exact spells_escape quote feed

theorem readBasicOnto_renderBasic (taken text rest : Chars) :
    readBasicOnto taken (renderBasic text ++ '"' :: rest) = some (taken.reverse ++ text, rest) := by
  induction text generalizing taken with
  | nil => simp [renderBasic, readBasicOnto]
  | cons c text ih =>
    obtain ⟨spelling, spells, rendered⟩ := exists_renderBasic c text
    rw [rendered, List.append_assoc, readBasicOnto_of_spells spells, ih, List.reverse_cons,
      List.append_assoc, List.singleton_append]

theorem readLiteralOnto_append (plain : ∀ c ∈ text, isPlain c = true) (inside : '\'' ∉ text)
    (taken rest : Chars) :
    readLiteralOnto taken (text ++ '\'' :: rest) = some (taken.reverse ++ text, rest) := by
  induction text generalizing taken with
  | nil => simp [readLiteralOnto]
  | cons c text ih =>
    obtain ⟨first, others⟩ := List.forall_mem_cons.1 plain
    obtain ⟨noQuote, later⟩ := not_or.1 (mt List.mem_cons.2 inside)
    rw [List.cons_append, readLiteralOnto.eq_def]
    simp [first, ih others later, Ne.symm noQuote]

theorem Spells.exists_cons (h : Spells spelling c) :
    ∃ first more, spelling = first :: more ∧ isPlain first = true ∧ first ≠ '"' := by
  cases h with
  | letter => exact ⟨_, _, rfl, rfl, by decide⟩
  | number => exact ⟨_, _, rfl, rfl, by decide⟩
  | plain plain noQuote => exact ⟨_, _, rfl, plain, noQuote⟩

/-- Unless it is a quote that needs no escape, a character does not begin with a quote. -/
theorem exists_renderMultiBasic {run : Nat} (noQuote : c = '"' → 2 ≤ run) (text : Chars) :
    ∃ first more, renderMultiBasic run (c :: text) = first :: more ∧ first ≠ '"' := by
  rw [renderMultiBasic]
  split_ifs with quote few
  · exact absurd (noQuote quote) (Nat.not_le.2 few)
  · exact ⟨_, _, rfl, by decide⟩
  · by_cases feed : c = '\n'
    · subst feed
      exact ⟨_, _, rfl, by decide⟩
    · obtain ⟨first, more, spelled, -, other⟩ := (spells_escape quote feed).exists_cons
      rw [spelled]
      exact ⟨first, _, rfl, other⟩

/-- A quote that does not begin three of them is part of the text. -/
theorem readMultiBasicOnto_quote (alone : ∀ more, rest ≠ '"' :: '"' :: more) (taken : Chars) :
    readMultiBasicOnto .inside taken ('"' :: rest) =
      readMultiBasicOnto .inside ('"' :: taken) rest := by
  rw [readMultiBasicOnto.eq_def]
  split
  next same => simp at same
  next same => simp at same
  next same =>
    obtain ⟨rfl, rfl⟩ := List.cons.inj same
    simp only [reduceCtorEq, if_false, if_true, false_and]
    split <;> simp_all
  next same => cases same

/-- Of quotes in a row the last three close the string. -/
theorem readMultiBasicOnto_close (taken rest : Chars) :
    readMultiBasicOnto .inside taken ('"' :: '"' :: '"' :: '\n' :: rest) =
        some (taken.reverse, '\n' :: rest) ∧
      readMultiBasicOnto .inside taken ('"' :: '"' :: '"' :: '"' :: '\n' :: rest) =
        some (taken.reverse ++ ['"'], '\n' :: rest) ∧
      readMultiBasicOnto .inside taken ('"' :: '"' :: '"' :: '"' :: '"' :: '\n' :: rest) =
        some (taken.reverse ++ ['"', '"'], '\n' :: rest) := by
  refine ⟨?_, ?_, ?_⟩ <;> rw [readMultiBasicOnto.eq_def] <;> simp

/-- Behind a quote, no two further ones stand before a text unless it is no more than one quote. -/
theorem renderMultiBasic_ne {run : Nat} (within : 0 < run)
    (longer : ¬(c = '"' ∧ text = [] ∧ run < 2)) (tail more : Chars) :
    renderMultiBasic run (c :: text) ++ tail ≠ '"' :: '"' :: more := by
  intro same
  by_cases quote : c = '"' ∧ run < 2
  · obtain ⟨rfl, few⟩ := quote
    cases text with
    | nil => exact longer ⟨rfl, rfl, few⟩
    | cons d text =>
      have twoQuotes : d = '"' → 2 ≤ run + 1 := fun _ => by omega
      obtain ⟨first, rest, rendered, other⟩ := exists_renderMultiBasic twoQuotes text
      rw [renderMultiBasic, if_pos rfl, if_pos few, rendered] at same
      exact other (List.cons.inj (List.cons.inj same).2).1
  · obtain ⟨first, rest, rendered, other⟩ :=
      exists_renderMultiBasic (fun same => Nat.not_lt.1 fun few => quote ⟨same, few⟩) text
    rw [rendered] at same
    exact other (List.cons.inj same).1

theorem readMultiBasicOnto_render (run : Nat) (taken text rest : Chars) :
    readMultiBasicOnto .inside taken
        (renderMultiBasic run text ++ '"' :: '"' :: '"' :: '\n' :: rest) =
      some (taken.reverse ++ text, '\n' :: rest) := by
  induction text generalizing run taken with
  | nil =>
    rw [renderMultiBasic, List.nil_append, List.append_nil]
    exact (readMultiBasicOnto_close taken rest).1
  | cons c text ih =>
    have whole : taken.reverse ++ c :: text = (c :: taken).reverse ++ text := by simp
    rw [whole, renderMultiBasic]
    split_ifs with quote few
    · subst quote
      -- Whether this quote belongs to the text hangs on the next two characters.
      cases text with
      | nil =>
        rw [renderMultiBasic, List.append_nil, List.reverse_cons]
        exact (readMultiBasicOnto_close taken rest).2.1
      | cons d text =>
        by_cases last : d = '"' ∧ text = [] ∧ run + 1 < 2
        · obtain ⟨rfl, rfl, few'⟩ := last
          rw [renderMultiBasic, if_pos rfl, if_pos few', renderMultiBasic, List.reverse_cons,
            List.append_assoc]
          exact (readMultiBasicOnto_close taken rest).2.2
        · have alone := renderMultiBasic_ne (Nat.succ_pos run) last
            ('"' :: '"' :: '"' :: '\n' :: rest)
          rw [List.cons_append, readMultiBasicOnto_quote alone, ih]
    · subst quote
      have escaped : Spells ['\\', '"'] '"' := .letter rfl
      have later := readMultiBasicOnto_of_spells escaped taken
        (renderMultiBasic 0 text ++ '"' :: '"' :: '"' :: '\n' :: rest)
      exact later.trans (ih 0 _)
    · rw [List.append_assoc]
      by_cases feed : c = '\n'
      · subst feed
        have step : readMultiBasicOnto .inside taken
            ('\n' :: (renderMultiBasic 0 text ++ '"' :: '"' :: '"' :: '\n' :: rest)) =
          readMultiBasicOnto .inside ('\n' :: taken)
            (renderMultiBasic 0 text ++ '"' :: '"' :: '"' :: '\n' :: rest) := by
          rw [readMultiBasicOnto, if_pos rfl]
        exact step.trans (ih 0 _)
      · rw [readMultiBasicOnto_of_spells (spells_escape quote feed), ih]

theorem le_longestRun (c : Char) (run : Nat) (text : Chars) : run ≤ longestRun c run text := by
  induction text generalizing run with
  | nil => exact Nat.le_refl run
  | cons d text ih =>
    rw [longestRun]
    split_ifs
    · exact Nat.le_of_succ_le (ih (run + 1))
    · exact Nat.le_max_left run _

theorem longestRun_pos (run : Nat) (h : c ∈ text) : 0 < longestRun c run text := by
  induction text generalizing run with
  | nil => cases h
  | cons d text ih =>
    rw [longestRun]
    split_ifs with same
    · exact Nat.lt_of_lt_of_le (Nat.succ_pos run) (le_longestRun c (run + 1) text)
    · obtain rfl | later := List.mem_cons.1 h
      · exact absurd rfl same
      · exact Nat.lt_of_lt_of_le (ih _ later) (Nat.le_max_right run _)

/-- Behind an apostrophe, no two further ones stand before a text unless it is no more than one. -/
theorem append_ne_of_longestRun {run : Nat} (few : longestRun '\'' (run + 1) (c :: text) ≤ 2)
    (longer : ¬(c = '\'' ∧ text = [])) (tail more : Chars) :
    (c :: text) ++ tail ≠ '\'' :: '\'' :: more := by
  intro same
  obtain ⟨rfl, others⟩ := List.cons.inj same
  cases text with
  | nil => exact longer ⟨rfl, rfl⟩
  | cons d text =>
    obtain ⟨rfl, -⟩ := List.cons.inj others
    have three := le_longestRun '\'' (run + 1 + 1 + 1) text
    simp only [longestRun, if_true] at few
    omega

theorem readMultiLiteralOnto_close (taken rest : Chars) :
    readMultiLiteralOnto taken ('\'' :: '\'' :: '\'' :: '\n' :: rest) =
        some (taken.reverse, '\n' :: rest) ∧
      readMultiLiteralOnto taken ('\'' :: '\'' :: '\'' :: '\'' :: '\n' :: rest) =
        some (taken.reverse ++ ['\''], '\n' :: rest) ∧
      readMultiLiteralOnto taken ('\'' :: '\'' :: '\'' :: '\'' :: '\'' :: '\n' :: rest) =
        some (taken.reverse ++ ['\'', '\''], '\n' :: rest) := by
  refine ⟨?_, ?_, ?_⟩ <;> rw [readMultiLiteralOnto.eq_def] <;> simp

theorem readMultiLiteralOnto_plain (plain : isPlain c = true)
    (alone : c = '\'' → ∀ more, rest ≠ '\'' :: '\'' :: more) (taken : Chars) :
    readMultiLiteralOnto taken (c :: rest) = readMultiLiteralOnto (c :: taken) rest := by
  have noReturn := ne_of_test '\r' plain rfl
  have noFeed := ne_of_test '\n' plain rfl
  rw [readMultiLiteralOnto.eq_def]
  split <;> simp_all

theorem readMultiLiteralOnto_append {run : Nat} (few : longestRun '\'' run text ≤ 2)
    (plain : ∀ c ∈ text, isPlain c = true ∨ c = '\n') (taken rest : Chars) :
    readMultiLiteralOnto taken (text ++ '\'' :: '\'' :: '\'' :: '\n' :: rest) =
      some (taken.reverse ++ text, '\n' :: rest) := by
  induction text generalizing run taken with
  | nil =>
    rw [List.nil_append, List.append_nil]
    exact (readMultiLiteralOnto_close taken rest).1
  | cons c text ih =>
    have whole : taken.reverse ++ c :: text = (c :: taken).reverse ++ text := by simp
    obtain ⟨first, others⟩ := List.forall_mem_cons.1 plain
    rw [whole, List.cons_append]
    rw [longestRun] at few
    split_ifs at few with quote
    · subst quote
      cases text with
      | nil =>
        rw [List.append_nil, List.reverse_cons]
        exact (readMultiLiteralOnto_close taken rest).2.1
      | cons d text =>
        by_cases last : d = '\'' ∧ text = []
        · obtain ⟨rfl, rfl⟩ := last
          rw [List.reverse_cons, List.append_assoc]
          exact (readMultiLiteralOnto_close taken rest).2.2
        · have alone := append_ne_of_longestRun few last ('\'' :: '\'' :: '\'' :: '\n' :: rest)
          rw [readMultiLiteralOnto_plain rfl fun _ => alone]
          exact ih few others _
    · obtain plain | rfl := first
      · rw [readMultiLiteralOnto_plain plain (fun same => absurd same quote)]
        exact ih (Nat.max_le.1 few).2 others _
      · rw [readMultiLiteralOnto]
        exact ih (Nat.max_le.1 few).2 others _

theorem isPlain_of_noEscapes (h : text.any needsEscape = false) :
    ∀ c ∈ text, isPlain c = true ∨ c = '\n' := by
  intro c member
  by_cases feed : c = '\n'
  · exact .inr feed
  · have noEscape := Bool.eq_false_iff.2 (List.any_eq_false.1 h c member)
    exact .inl (isPlain_of_not_needsEscape noEscape feed)

theorem of_styleOf_literal (h : styleOf text = .literal) :
    (∀ c ∈ text, isPlain c = true) ∧ '\'' ∉ text := by
  unfold styleOf at h
  dsimp only at h
  split_ifs at h with _ fits
  simp only [Bool.and_eq_true, Bool.not_eq_true', beq_iff_eq] at fits
  obtain ⟨⟨noEscapes, noQuote⟩, oneLine⟩ := fits
  refine ⟨fun c member => ?_, fun quote => absurd (longestRun_pos 0 quote) (by omega)⟩
  refine (isPlain_of_noEscapes noEscapes c member).resolve_right ?_
  rintro rfl
  simp [member] at oneLine

theorem of_styleOf_multiLiteral (h : styleOf text = .multiLiteral) :
    (∀ c ∈ text, isPlain c = true ∨ c = '\n') ∧ longestRun '\'' 0 text ≤ 2 := by
  unfold styleOf at h
  dsimp only at h
  split_ifs at h with _ _ _ fits
  simp only [Bool.and_eq_true, Bool.not_eq_true', decide_eq_true_eq] at fits
  exact ⟨isPlain_of_noEscapes fits.1, fits.2⟩

/-- A string that does not begin with three quotes is one on one line. -/
theorem read_basic (noThree : ∀ more, rest ≠ '"' :: '"' :: more) :
    read ('"' :: rest) = readLine ('"' :: rest) := by
  rw [read.eq_def]
  split <;> simp_all

theorem read_literal (noThree : ∀ more, rest ≠ '\'' :: '\'' :: more) :
    read ('\'' :: rest) = readLine ('\'' :: rest) := by
  rw [read.eq_def]
  split <;> simp_all

/-- Whether what is read begins with a plain character, or with a line feed while the text has line
feeds. -/
def Starts (text rest : Chars) : Prop :=
  ∃ first more, rest = first :: more ∧ (isPlain first = true ∨ first = '\n' ∧ '\n' ∈ text)

/-- The line feed that may stand behind opening triple quotes is taken away, and nothing else. -/
theorem dropNewline_lead (starts : Starts text rest) : dropNewline (lead text ++ rest) = rest := by
  obtain ⟨first, more, rfl, starts⟩ := starts
  rw [lead]
  split_ifs with feed
  · rfl
  · obtain plain | ⟨-, inside⟩ := starts
    · have noReturn := ne_of_test '\r' plain rfl
      have noFeed := ne_of_test '\n' plain rfl
      rw [List.nil_append]
      unfold dropNewline
      split <;> simp_all
    · exact absurd (List.contains_iff_mem.2 inside) feed

theorem starts_renderMultiBasic (text rest : Chars) :
    Starts text (renderMultiBasic 0 text ++ '"' :: rest) := by
  cases text with
  | nil => exact ⟨_, _, rfl, .inl rfl⟩
  | cons c text =>
    rw [renderMultiBasic]
    split_ifs with quote
    · exact ⟨_, _, rfl, .inl rfl⟩
    · exact ⟨_, _, rfl, .inl rfl⟩
    · by_cases feed : c = '\n'
      · subst feed
        exact ⟨_, _, rfl, .inr ⟨rfl, List.mem_cons_self⟩⟩
      · obtain ⟨first, more, spelled, plain, -⟩ := (spells_escape quote feed).exists_cons
        rw [spelled]
        exact ⟨_, _, rfl, .inl plain⟩

theorem starts_append (plain : ∀ c ∈ text, isPlain c = true ∨ c = '\n') (rest : Chars) :
    Starts text (text ++ '\'' :: rest) := by
  cases text with
  | nil => exact ⟨_, _, rfl, .inl rfl⟩
  | cons c text =>
    refine ⟨_, _, rfl, (plain c List.mem_cons_self).imp_right ?_⟩
    rintro rfl
    exact ⟨rfl, List.mem_cons_self⟩

theorem renderBasic_ne (text rest more : Chars) :
    renderBasic text ++ '"' :: '\n' :: rest ≠ '"' :: '"' :: more := by
  cases text with
  | nil => simp [renderBasic]
  | cons c text =>
    obtain ⟨spelling, spells, rendered⟩ := exists_renderBasic c text
    obtain ⟨first, others, rfl, -, noQuote⟩ := spells.exists_cons
    rw [rendered]
    exact fun same => noQuote (List.cons.inj same).1

/-- What is written for a text is read back in front of a line end. -/
theorem read_render (text : String) (rest : Chars) :
    read (render text ++ '\n' :: rest) = some (text, '\n' :: rest) := by
  rw [render]
  cases style : styleOf text.toList with
  | basic =>
    have shape : renderAs text.toList .basic ++ '\n' :: rest =
        '"' :: (renderBasic text.toList ++ '"' :: '\n' :: rest) := by
      simp [renderAs]
    rw [shape, read_basic (renderBasic_ne text.toList rest), readLine, readBasicOnto_renderBasic]
    simp
  | literal =>
    obtain ⟨plain, noQuote⟩ := of_styleOf_literal style
    have shape : renderAs text.toList .literal ++ '\n' :: rest =
        '\'' :: (text.toList ++ '\'' :: '\n' :: rest) := by
      simp [renderAs]
    have noThree : ∀ more, text.toList ++ '\'' :: '\n' :: rest ≠ '\'' :: '\'' :: more := by
      intro more same
      cases chars : text.toList with
      | nil => simp [chars] at same
      | cons c others =>
        rw [chars] at same noQuote
        exact noQuote (List.mem_cons.2 (.inl (List.cons.inj same).1.symm))
    rw [shape, read_literal noThree, readLine, readLiteralOnto_append plain noQuote]
    simp
  | multiBasic =>
    have shape : renderAs text.toList .multiBasic ++ '\n' :: rest =
        '"' :: '"' :: '"' :: (lead text.toList ++
          (renderMultiBasic 0 text.toList ++ '"' :: '"' :: '"' :: '\n' :: rest)) := by
      simp [renderAs]
    rw [shape, read, dropNewline_lead (starts_renderMultiBasic text.toList _),
      readMultiBasicOnto_render]
    simp
  | multiLiteral =>
    obtain ⟨plain, few⟩ := of_styleOf_multiLiteral style
    have shape : renderAs text.toList .multiLiteral ++ '\n' :: rest =
        '\'' :: '\'' :: '\'' :: (lead text.toList ++
          (text.toList ++ '\'' :: '\'' :: '\'' :: '\n' :: rest)) := by
      simp [renderAs]
    rw [shape, read, dropNewline_lead (starts_append plain _),
      readMultiLiteralOnto_append few plain]
    simp

end Fanout.Toml.Text
