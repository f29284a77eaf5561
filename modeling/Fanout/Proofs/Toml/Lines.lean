import Fanout.Proofs.Toml.Integers
import Fanout.Proofs.Toml.Strings
import Fanout.Toml.Document

/-!
# Lines

Documents that are written line by line: blank lines, bare keys with values that end with their
line, and headers of tables with bare names. Each line that is read does to the document what it
says (`lines?_line`), so a text of such lines is the document that they make, one after the other
(`parse?_of_lines`).
-/

namespace Fanout.Toml

variable {name : String} {rest : Chars}

/-- Whether a name can stand as a key without quotes. -/
def IsBare (name : String) : Prop :=
  name.toList ≠ [] ∧ name.toList.all isKeyPart = true

instance (name : String) : Decidable (IsBare name) :=
  inferInstanceAs (Decidable (_ ∧ _))

theorem IsBare.exists_cons (bare : IsBare name) :
    ∃ c more, name.toList = c :: more ∧ isKeyPart c = true := by
  obtain ⟨c, more, chars⟩ := List.exists_cons_of_ne_nil bare.1
  exact ⟨c, more, chars, List.all_eq_true.1 bare.2 c (chars ▸ List.mem_cons_self)⟩

theorem dropBlanks_cons {c : Char} (notBlank : Text.isBlank c = false) (rest : Chars) :
    dropBlanks (c :: rest) = c :: rest := by
  simp [dropBlanks, notBlank]

theorem dropBlanks_of_isKeyPart {c : Char} (part : isKeyPart c = true) (rest : Chars) :
    dropBlanks (c :: rest) = c :: rest := by
  have noSpace := Text.ne_of_test ' ' part (by decide)
  have noTab := Text.ne_of_test '\t' part (by decide)
  exact dropBlanks_cons (by simp [Text.isBlank, noSpace, noTab]) rest

theorem IsBare.dropBlanks (bare : IsBare name) (rest : Chars) :
    dropBlanks (name.toList ++ rest) = name.toList ++ rest := by
  obtain ⟨c, more, chars, part⟩ := bare.exists_cons
  rw [chars]
  exact dropBlanks_of_isKeyPart part (more ++ rest)

theorem IsBare.readName {c : Char} (bare : IsBare name) (outside : isKeyPart c = false)
    (rest : Chars) : readName (name.toList ++ c :: rest) = some (name, c :: rest) := by
  have split := span_append_cons (List.all_eq_true.1 bare.2) outside rest
  obtain ⟨first, more, chars, part⟩ := bare.exists_cons
  have noQuote := Text.ne_of_test '"' part (by decide)
  have noApostrophe := Text.ne_of_test '\'' part (by decide)
  have whole : String.ofList (first :: more) = name := by rw [← chars, String.ofList_toList]
  rw [chars, List.cons_append] at split ⊢
  rw [Toml.readName]
  · simp only [split, whole]
  · exact fun _ same => noQuote (List.cons.inj same).1
  · exact fun _ same => noApostrophe (List.cons.inj same).1

/-- A bare key ends in front of a character that is neither a part of it nor a dot, which a blank
may precede. -/
theorem IsBare.readKey {c d : Char} {behind : Chars} (bare : IsBare name)
    (outside : isKeyPart c = false) (noDot : d ≠ '.')
    (ends : Toml.dropBlanks (c :: behind) = d :: rest) :
    readKey (name.toList ++ c :: behind) = some (([], name), d :: rest) := by
  have names : readNames nestingLimit (name.toList ++ c :: behind) = some ([name], d :: rest) := by
    rw [nestingLimit, readNames, bare.dropBlanks, bare.readName outside]
    simp [ends, noDot]
  simp [Toml.readKey, names]

theorem lineEnd?_newline (rest : Chars) : lineEnd? ('\n' :: rest) = some rest :=
  rfl

/-- Whether a node is read from a spelling that ends with its line. -/
structure Reads (spelling : Chars) (node : Node) : Prop where
  notBlank : ∀ rest, dropBlanks (spelling ++ '\n' :: rest) = spelling ++ '\n' :: rest
  read : ∀ fuel rest,
    readNode fuel nestingLimit (spelling ++ '\n' :: rest) = some (node, '\n' :: rest)

theorem exists_render (text : String) :
    ∃ c more, Text.render text = c :: more ∧ (c = '"' ∨ c = '\'') := by
  rw [Text.render]
  cases Text.styleOf text.toList with
  | basic => exact ⟨_, _, rfl, .inl rfl⟩
  | literal => exact ⟨_, _, rfl, .inr rfl⟩
  | multiBasic => exact ⟨_, _, rfl, .inl rfl⟩
  | multiLiteral => exact ⟨_, _, rfl, .inr rfl⟩

theorem reads_text (text : String) : Reads (Text.render text) (.text text) := by
  obtain ⟨c, more, rendered, quote⟩ := exists_render text
  constructor
  · intro rest
    rw [rendered]
    refine dropBlanks_cons ?_ (more ++ '\n' :: rest)
    obtain rfl | rfl := quote <;> rfl
  · intro fuel rest
    have read := Text.read_render text rest
    rw [rendered] at read ⊢
    obtain rfl | rfl := quote
    · rw [List.cons_append] at read ⊢
      rw [readNode, read]
      rfl
    · rw [List.cons_append] at read ⊢
      rw [readNode, read]
      rfl

theorem readNode_of_isDigit {c : Char} (digit : Scalar.isDigit c = true) (fuel levels : Nat)
    (rest : Chars) :
    readNode fuel levels (c :: rest) =
      (Scalar.read (c :: rest)).map fun (scalar, rest) => (.scalar scalar, rest) := by
  rw [readNode.eq_def]
  split
  next same => exact absurd (List.cons.inj same).1 (Text.ne_of_test _ digit (by decide))
  next same => exact absurd (List.cons.inj same).1 (Text.ne_of_test _ digit (by decide))
  next same => exact absurd (List.cons.inj same).1 (Text.ne_of_test _ digit (by decide))
  next same => exact absurd (List.cons.inj same).1 (Text.ne_of_test _ digit (by decide))
  next same => exact absurd (List.cons.inj same).1 (Text.ne_of_test _ digit (by decide))
  next same => exact absurd (List.cons.inj same).1 (Text.ne_of_test _ digit (by decide))
  next => rfl

theorem reads_digits {n : Nat} (within : n ≤ Scalar.greatest) :
    Reads (toString n).toList (.scalar (.integer n)) := by
  obtain ⟨c, more, chars⟩ := List.exists_cons_of_ne_nil (Nat.toDigits_ne_nil (b := 10) (n := n))
  have digit : Scalar.isDigit c = true :=
    Scalar.isDigit_of_mem_toDigits (n := n) (chars ▸ List.mem_cons_self)
  have read := Scalar.read_digits within
  rw [Scalar.toList_toString, chars] at read ⊢
  constructor
  · have noSpace := Text.ne_of_test ' ' digit (by decide)
    have noTab := Text.ne_of_test '\t' digit (by decide)
    exact fun rest => dropBlanks_cons (by simp [Text.isBlank, noSpace, noTab]) _
  · intro fuel rest
    have this := read rest
    rw [List.cons_append] at this ⊢
    rw [readNode_of_isDigit digit, this]
    rfl

/-- A line of a document: a blank one, a key with a spelling of its value, or the header of a
table. -/
inductive Line
  | blank
  | pair (name : String) (spelling : Chars) (node : Node)
  | header (name : String)

namespace Line

def chars : Line → Chars
  | blank => ['\n']
  | pair name spelling _ => name.toList ++ ' ' :: '=' :: ' ' :: (spelling ++ ['\n'])
  | header name => '[' :: (name.toList ++ [']', '\n'])

/-- Whether a line has a bare name and its value is read from its spelling. -/
def Plain : Line → Prop
  | blank => True
  | pair name spelling node => IsBare name ∧ Reads spelling node
  | header name => IsBare name

/-- What a line does to a document. -/
def change? (draft : Draft) : Line → Option Draft
  | blank => some draft
  | pair name _ node => do
    let root ← Entries.changeAt? false (fun _ inner => inner.add? name node)
      draft.path .header draft.root
    some { draft with root }
  | header name => do
    let root ← draft.root.openTable? name
    some { root, path := [name] }

end Line

theorem Entries.addAt?_nil (name : String) (node : Node) (entries : Entries) :
    entries.addAt? [] name node = entries.add? name node := by
  simp [Entries.addAt?, Entries.changeAt?]

namespace Draft

variable {line : Line}

theorem pair?_chars {spelling : Chars} {node : Node} (bare : IsBare name)
    (reads : Reads spelling node) (fuel : Nat) (draft : Draft) (rest : Chars) :
    draft.pair? fuel ((Line.pair name spelling node).chars ++ rest) =
      ((Line.pair name spelling node).change? draft).map (·, rest) := by
  have shape : (Line.pair name spelling node).chars ++ rest =
      name.toList ++ ' ' :: '=' :: ' ' :: (spelling ++ '\n' :: rest) := by
    simp [Line.chars]
  have key : readKey (name.toList ++ ' ' :: '=' :: ' ' :: (spelling ++ '\n' :: rest)) =
      some (([], name), '=' :: ' ' :: (spelling ++ '\n' :: rest)) :=
    bare.readKey (by decide) (by decide) rfl
  have value : readNode fuel nestingLimit (dropBlanks (' ' :: (spelling ++ '\n' :: rest))) =
      some (node, '\n' :: rest) := by
    have blank : dropBlanks (' ' :: (spelling ++ '\n' :: rest)) =
        dropBlanks (spelling ++ '\n' :: rest) := rfl
    rw [blank, reads.notBlank, reads.read]
  rw [shape, pair?, key]
  simp only [Option.bind_eq_bind, Option.bind_some, value, lineEnd?_newline, Entries.addAt?_nil,
    Line.change?, Option.map_bind]
  rfl

theorem header?_chars (bare : IsBare name) (draft : Draft) (rest : Chars) :
    draft.header? (name.toList ++ ']' :: '\n' :: rest) =
      ((Line.header name).change? draft).map (·, rest) := by
  have key : readKey (name.toList ++ ']' :: '\n' :: rest) =
      some (([], name), ']' :: '\n' :: rest) :=
    bare.readKey (by decide) (by decide) rfl
  rw [header?, key]
  simp only [Option.bind_eq_bind, Option.bind_some, lineEnd?_newline, Entries.changeAt?,
    Line.change?, Option.map_bind]
  rfl

/-- What begins with a part of a key is read as a pair. -/
theorem lines?_of_isKeyPart {c : Char} (part : isKeyPart c = true) (fuel : Nat) (draft : Draft)
    (rest : Chars) :
    lines? (fuel + 1) draft (c :: rest) =
      (draft.pair? fuel (c :: rest)).bind fun (draft, rest) => lines? fuel draft rest := by
  rw [lines?, dropBlanks_of_isKeyPart part]
  split
  next same => cases same
  next same => exact absurd (List.cons.inj same).1 (Text.ne_of_test _ part (by decide))
  next same => exact absurd (List.cons.inj same).1 (Text.ne_of_test _ part (by decide))
  next same => exact absurd (List.cons.inj same).1 (Text.ne_of_test _ part (by decide))
  next same => exact absurd (List.cons.inj same).1 (Text.ne_of_test _ part (by decide))
  next same => exact absurd (List.cons.inj same).1 (Text.ne_of_test _ part (by decide))
  next => rfl

/-- What begins with a bracket, but not with two, is read as the header of a table. -/
theorem lines?_bracket {c : Char} (part : isKeyPart c = true) (fuel : Nat) (draft : Draft)
    (rest : Chars) :
    lines? (fuel + 1) draft ('[' :: c :: rest) =
      (draft.header? (c :: rest)).bind fun (draft, rest) => lines? fuel draft rest := by
  have single := Text.ne_of_test '[' part (by decide)
  rw [lines?, dropBlanks_cons (by decide)]
  simp [single]

/-- A line does what it says. -/
theorem lines?_line (plain : line.Plain) (fuel : Nat) (draft : Draft) (rest : Chars) :
    lines? (fuel + 1) draft (line.chars ++ rest) =
      (line.change? draft).bind fun draft => lines? fuel draft rest := by
  cases line with
  | blank => rfl
  | pair name spelling node =>
    obtain ⟨bare, reads⟩ := plain
    have pair := pair?_chars bare reads fuel draft rest
    obtain ⟨c, more, chars, part⟩ := bare.exists_cons
    rw [Line.chars, chars] at pair ⊢
    rw [List.cons_append, List.cons_append] at pair ⊢
    rw [lines?_of_isKeyPart part, pair, Option.bind_map]
    rfl
  | header name =>
    have bare : IsBare name := plain
    have header := header?_chars bare draft rest
    obtain ⟨c, more, chars, part⟩ := bare.exists_cons
    have shape : (Line.header name).chars ++ rest = '[' :: c :: (more ++ ']' :: '\n' :: rest) := by
      simp [Line.chars, chars]
    rw [chars, List.cons_append] at header
    rw [shape, lines?_bracket part, header, Option.bind_map]
    rfl

/-- A document does what its lines say, one after the other. -/
theorem lines?_flatMap {lines : List Line} (plain : ∀ line ∈ lines, line.Plain) {fuel : Nat}
    (enough : lines.length < fuel) (draft : Draft) :
    lines? fuel draft (lines.flatMap Line.chars) = lines.foldlM Line.change? draft := by
  induction lines generalizing fuel draft with
  | nil =>
    obtain ⟨fuel, rfl⟩ := Nat.exists_eq_add_of_lt enough
    rfl
  | cons line lines ih =>
    obtain ⟨first, others⟩ := List.forall_mem_cons.1 plain
    obtain ⟨fuel, rfl⟩ := Nat.exists_eq_add_of_lt (Nat.zero_lt_of_lt enough)
    rw [List.flatMap_cons, Nat.zero_add, lines?_line first, List.foldlM_cons]
    refine Option.bind_congr fun draft _ => ih others ?_ draft
    rw [List.length_cons] at enough
    omega

end Draft

theorem Line.Plain.exists_cons {line : Line} (plain : line.Plain) :
    ∃ c more, line.chars = c :: more ∧ c ≠ '\uFEFF' := by
  cases line with
  | blank => exact ⟨_, _, rfl, by decide⟩
  | pair name spelling node =>
    obtain ⟨c, more, chars, part⟩ := plain.1.exists_cons
    exact ⟨c, _, by rw [Line.chars, chars, List.cons_append], Text.ne_of_test _ part (by decide)⟩
  | header name => exact ⟨_, _, rfl, by decide⟩

theorem length_le_flatMap {lines : List Line} (plain : ∀ line ∈ lines, line.Plain) :
    lines.length ≤ (lines.flatMap Line.chars).length := by
  induction lines with
  | nil => exact Nat.le_refl 0
  | cons line lines ih =>
    obtain ⟨first, others⟩ := List.forall_mem_cons.1 plain
    obtain ⟨c, more, chars, -⟩ := first.exists_cons
    have shorter := ih others
    rw [List.flatMap_cons, chars, List.length_append, List.length_cons, List.length_cons]
    omega

/-- A text of such lines is the document that they make. -/
theorem parse?_of_lines {text : String} {lines : List Line}
    (plain : ∀ line ∈ lines, line.Plain) (chars : text.toList = lines.flatMap Line.chars) :
    parse? text = (lines.foldlM Line.change? {}).map (·.root) := by
  have noMark : ∀ rest, lines.flatMap Line.chars ≠ '\uFEFF' :: rest := by
    intro rest same
    cases lines with
    | nil => cases same
    | cons line lines =>
      obtain ⟨c, more, chars, noMark⟩ := (List.forall_mem_cons.1 plain).1.exists_cons
      rw [List.flatMap_cons, chars, List.cons_append] at same
      exact noMark (List.cons.inj same).1
  have enough := Nat.lt_succ_of_le (length_le_flatMap plain)
  rw [← Draft.lines?_flatMap plain enough, parse?, chars]
  split
  next same => exact absurd same (noMark _)
  next => rfl

end Fanout.Toml
