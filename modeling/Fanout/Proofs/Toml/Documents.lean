import Fanout.Proofs.Toml.Integers
import Fanout.Toml.Document

/-!
# What documents hold

The integers of a document are those that were read as values, since lines only put values into
tables and move tables around. Main statement: no document holds an integer that does not fit
64 bits (`fits_of_parse?`).
-/

namespace Fanout.Toml

/-- Whether no integer in a node is above the greatest. -/
inductive Node.Fits : Node → Prop
  | text (value : String) : Fits (.text value)
  | scalar {scalar : Scalar} : scalar.Fits → Fits (.scalar scalar)
  | array {items : List Node} : (∀ node ∈ items, Fits node) → Fits (.array items)
  | table {mark : Mark} {entries : List (String × Node)} :
    (∀ entry ∈ entries, Fits entry.2) → Fits (.table mark entries)
  | tables {last : List (String × Node)} {earlier : List (List (String × Node))} :
    (∀ entry ∈ last, Fits entry.2) → (∀ entries ∈ earlier, ∀ entry ∈ entries, Fits entry.2) →
      Fits (.tables last earlier)

namespace Entries

variable {entries changed : Entries} {name : String} {node : Node}

/-- Whether no integer in a table is above the greatest. -/
def Fits (entries : Entries) : Prop :=
  ∀ entry ∈ entries, entry.2.Fits

theorem fits_nil : Fits [] :=
  fun _ member => nomatch member

theorem Fits.append (fits : Fits entries) (name : String) (inside : node.Fits) :
    Fits (entries ++ [(name, node)]) :=
  List.forall_mem_append.2 ⟨fits, List.forall_mem_singleton.2 inside⟩

theorem Fits.replace (fits : Fits entries) (name : String) (inside : node.Fits) :
    Fits (entries.replace name node) := by
  intro entry member
  obtain ⟨old, among, rfl⟩ := List.mem_map.1 member
  split_ifs
  · exact inside
  · exact fits old among

theorem Fits.of_lookup (fits : Fits entries) (h : entries.lookup name = some node) :
    node.Fits := by
  obtain ⟨before, behind, rfl, -⟩ := List.lookup_eq_some_iff.1 h
  exact fits (name, node) (by simp)

theorem Fits.add? (fits : Fits entries) (inside : node.Fits)
    (h : entries.add? name node = some changed) : Fits changed := by
  unfold Entries.add? at h
  split at h
  · cases h
    exact fits.append name inside
  · cases h

/-- Changing a table somewhere inside keeps integers in bounds if the change itself does. -/
theorem Fits.changeAt? {dotted : Bool} {change : Mark → Entries → Option Entries}
    (keeps : ∀ {mark entries changed}, Fits entries → change mark entries = some changed →
      Fits changed)
    {path : List String} {mark : Mark} (fits : Fits entries)
    (h : changeAt? dotted change path mark entries = some changed) : Fits changed := by
  induction path generalizing mark entries changed with
  | nil => exact keeps fits h
  | cons name path ih =>
    rw [Entries.changeAt?] at h
    split at h
    next =>
      obtain ⟨inner, made, same⟩ := Option.bind_eq_some_iff.1 h
      cases same
      exact fits.append name (.table (ih fits_nil made))
    next known =>
      split_ifs at h
      obtain ⟨inner, made, same⟩ := Option.bind_eq_some_iff.1 h
      cases same
      cases fits.of_lookup known with
      | table inside => exact fits.replace name (.table (ih inside made))
    next known =>
      obtain ⟨inner, made, same⟩ := Option.bind_eq_some_iff.1 h
      cases same
      cases fits.of_lookup known with
      | tables inside earlier => exact fits.replace name (.tables (ih inside made) earlier)
    next => cases h

theorem Fits.addAt? {path : List String} (fits : Fits entries) (inside : node.Fits)
    (h : entries.addAt? path name node = some changed) : Fits changed := by
  refine Fits.changeAt? (fun {mark entries changed} fits made => ?_) fits h
  split_ifs at made
  exact fits.add? inside made

theorem Fits.openTable? (fits : Fits entries) (h : entries.openTable? name = some changed) :
    Fits changed := by
  unfold Entries.openTable? at h
  split at h
  next =>
    cases h
    exact fits.append name (.table fits_nil)
  next known =>
    cases h
    cases fits.of_lookup known with
    | table inside => exact fits.replace name (.table inside)
  next => cases h

theorem Fits.openItem? (fits : Fits entries) (h : entries.openItem? name = some changed) :
    Fits changed := by
  unfold Entries.openItem? at h
  split at h
  next =>
    cases h
    exact fits.append name (.tables fits_nil fun _ member => nomatch member)
  next known =>
    cases h
    cases fits.of_lookup known with
    | tables inside earlier =>
      exact fits.replace name (.tables fits_nil (List.forall_mem_cons.2 ⟨inside, earlier⟩))
  next => cases h

end Entries

/-- Whether all that a reader yields has a property. -/
def Reader.Yields {α : Type} (reader : Reader α) (property : α → Prop) : Prop :=
  ∀ ⦃text value rest⦄, reader text = some (value, rest) → property value

section

variable {item : Reader Node} {entries : Entries}

theorem readItems_yields (each : item.Yields Node.Fits) (fuel : Nat) {taken : List Node}
    (inside : ∀ node ∈ taken, node.Fits) :
    Reader.Yields (readItems item fuel taken) fun nodes => ∀ node ∈ nodes, node.Fits := by
  induction fuel generalizing taken with
  | zero => exact fun _ _ _ h => nomatch h
  | succ fuel ih =>
    intro text nodes rest h
    have reversed {taken : List Node} (inside : ∀ node ∈ taken, node.Fits) :
        ∀ node ∈ taken.reverse, node.Fits :=
      fun node member => inside node (List.mem_reverse.1 member)
    rw [readItems] at h
    split at h
    · cases h
      exact reversed inside
    · obtain ⟨⟨node, behind⟩, read, h⟩ := Option.bind_eq_some_iff.1 h
      have more : ∀ other ∈ node :: taken, other.Fits :=
        List.forall_mem_cons.2 ⟨each read, inside⟩
      dsimp only at h
      split at h
      · exact ih more h
      · cases h
        exact reversed more
      · cases h

theorem readPair_yields (each : item.Yields Node.Fits) (fits : entries.Fits) :
    Reader.Yields (readPair item entries) Entries.Fits := by
  intro text changed rest h
  obtain ⟨⟨⟨path, name⟩, behind⟩, -, h⟩ := Option.bind_eq_some_iff.1 h
  dsimp only at h
  split at h
  · obtain ⟨⟨node, _⟩, read, h⟩ := Option.bind_eq_some_iff.1 h
    obtain ⟨_, added, same⟩ := Option.bind_eq_some_iff.1 h
    cases same
    exact fits.addAt? (each read) added
  · cases h

theorem readPairs_yields (each : item.Yields Node.Fits) (fuel : Nat) (fits : entries.Fits) :
    Reader.Yields (readPairs item fuel entries) Entries.Fits := by
  induction fuel generalizing entries with
  | zero => exact fun _ _ _ h => nomatch h
  | succ fuel ih =>
    intro text changed rest h
    obtain ⟨⟨more, behind⟩, read, h⟩ := Option.bind_eq_some_iff.1 h
    have kept : more.Fits := readPair_yields each fits read
    dsimp only at h
    split at h
    · exact ih kept h
    · cases h
      exact kept
    · cases h

theorem readInline_yields (each : item.Yields Node.Fits) (fuel : Nat) :
    Reader.Yields (readInline item fuel) Entries.Fits := by
  intro text entries rest h
  unfold readInline at h
  split at h
  · cases h
    exact Entries.fits_nil
  · exact readPairs_yields each fuel Entries.fits_nil h

theorem readNode_yields (fuel levels : Nat) : (readNode fuel levels).Yields Node.Fits := by
  induction levels using Nat.strongRecOn with
  | ind levels ih =>
    intro text node rest h
    rw [readNode.eq_def] at h
    split at h
    next =>
      obtain ⟨⟨value, _⟩, -, same⟩ := Option.map_eq_some_iff.1 h
      cases same
      exact .text value
    next =>
      obtain ⟨⟨value, _⟩, -, same⟩ := Option.map_eq_some_iff.1 h
      cases same
      exact .text value
    next => cases h
    next => cases h
    next levels _ =>
      obtain ⟨⟨items, _⟩, read, same⟩ := Option.map_eq_some_iff.1 h
      cases same
      have each := ih levels (Nat.lt_succ_self levels)
      exact .array (readItems_yields each fuel (List.forall_mem_nil Node.Fits) read)
    next levels _ =>
      obtain ⟨⟨entries, _⟩, read, same⟩ := Option.map_eq_some_iff.1 h
      cases same
      have each := ih levels (Nat.lt_succ_self levels)
      exact .table (readInline_yields each fuel read)
    next =>
      obtain ⟨⟨scalar, _⟩, read, same⟩ := Option.map_eq_some_iff.1 h
      cases same
      exact .scalar (Scalar.fits_of_read read)

end

namespace Draft

variable {draft : Draft} {text : Chars}

theorem pair?_yields (fuel : Nat) (fits : draft.root.Fits) :
    Reader.Yields (draft.pair? fuel) fun draft => draft.root.Fits := by
  intro text changed rest h
  obtain ⟨⟨⟨path, name⟩, behind⟩, -, h⟩ := Option.bind_eq_some_iff.1 h
  dsimp only at h
  split at h
  · obtain ⟨⟨node, _⟩, read, h⟩ := Option.bind_eq_some_iff.1 h
    obtain ⟨_, -, h⟩ := Option.bind_eq_some_iff.1 h
    obtain ⟨root, made, same⟩ := Option.bind_eq_some_iff.1 h
    cases same
    have inside : node.Fits := readNode_yields fuel nestingLimit read
    exact fits.changeAt? (fun fits added => fits.addAt? inside added) made
  · cases h

theorem header?_yields (fits : draft.root.Fits) :
    Reader.Yields draft.header? fun draft => draft.root.Fits := by
  intro text changed rest h
  obtain ⟨⟨⟨path, name⟩, behind⟩, -, h⟩ := Option.bind_eq_some_iff.1 h
  dsimp only at h
  split at h
  · obtain ⟨_, -, h⟩ := Option.bind_eq_some_iff.1 h
    obtain ⟨root, made, same⟩ := Option.bind_eq_some_iff.1 h
    cases same
    exact fits.changeAt? (fun fits opened => fits.openTable? opened) made
  · cases h

theorem item?_yields (fits : draft.root.Fits) :
    Reader.Yields draft.item? fun draft => draft.root.Fits := by
  intro text changed rest h
  obtain ⟨⟨⟨path, name⟩, behind⟩, -, h⟩ := Option.bind_eq_some_iff.1 h
  dsimp only at h
  split at h
  · obtain ⟨_, -, h⟩ := Option.bind_eq_some_iff.1 h
    obtain ⟨root, made, same⟩ := Option.bind_eq_some_iff.1 h
    cases same
    exact fits.changeAt? (fun fits opened => fits.openItem? opened) made
  · cases h

theorem fits_of_lines? {fuel : Nat} {done : Draft} (fits : draft.root.Fits)
    (h : lines? fuel draft text = some done) : done.root.Fits := by
  induction fuel generalizing draft text with
  | zero => cases h
  | succ fuel ih =>
    rw [lines?] at h
    split at h
    · cases h
      exact fits
    · obtain ⟨_, -, h⟩ := Option.bind_eq_some_iff.1 h
      exact ih fits h
    · exact ih fits h
    · exact ih fits h
    · obtain ⟨⟨changed, _⟩, read, h⟩ := Option.bind_eq_some_iff.1 h
      exact ih (item?_yields fits read) h
    · obtain ⟨⟨changed, _⟩, read, h⟩ := Option.bind_eq_some_iff.1 h
      exact ih (header?_yields fits read) h
    · obtain ⟨⟨changed, _⟩, read, h⟩ := Option.bind_eq_some_iff.1 h
      exact ih (pair?_yields fuel fits read) h

end Draft

/-- No document holds an integer that does not fit. -/
theorem fits_of_parse? {text : String} {entries : Entries} (h : parse? text = some entries) :
    entries.Fits := by
  obtain ⟨draft, read, rfl⟩ := Option.map_eq_some_iff.1 h
  exact Draft.fits_of_lines? Entries.fits_nil read

end Fanout.Toml
