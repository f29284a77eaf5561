import Fanout.Toml.Scalar

/-!
# TOML values and tables

A document is a table of named nodes. Tables remember how they came to be, because that decides what
later lines may add to them: a table that has a header of its own may not be extended by dotted
keys, one made by dotted keys may not get a header, and inline tables are closed.
-/

namespace Fanout.Toml

inductive Mark
  /-- It has a header of its own. -/
  | header
  /-- It lies on the way to a table with a header. -/
  | implied
  /-- It lies on the way of a dotted key. -/
  | dotted
  /-- It is written as a value. -/
  | inline
  deriving DecidableEq, Repr

/-- A value, a table, or a list of tables with a common header, the last table first. -/
inductive Node
  | text (value : String)
  | scalar (value : Scalar)
  | array (items : List Node)
  | table (mark : Mark) (entries : List (String × Node))
  | tables (last : List (String × Node)) (earlier : List (List (String × Node)))
  deriving Repr

abbrev Entries := List (String × Node)

namespace Entries

def replace (entries : Entries) (name : String) (node : Node) : Entries :=
  entries.map fun entry => if entry.1 = name then (name, node) else entry

def add? (entries : Entries) (name : String) (node : Node) : Option Entries :=
  match entries.lookup name with
  | none => some (entries ++ [(name, node)])
  | some _ => none

/-- Changes the table that a path leads to, making the tables on the way that are missing. A list of
tables leads on to its last one. Dotted keys may not enter a table that has a header. -/
def changeAt? (dotted : Bool) (change : Mark → Entries → Option Entries) :
    List String → Mark → Entries → Option Entries
  | [], mark, entries => change mark entries
  | name :: path, _, entries =>
    match entries.lookup name with
    | none => do
      let mark := if dotted then Mark.dotted else .implied
      let inner ← changeAt? dotted change path mark []
      some (entries ++ [(name, .table mark inner)])
    | some (.table mark inner) =>
      if mark = .inline ∨ (dotted ∧ mark = .header) then
        none
      else do
        let inner ← changeAt? dotted change path mark inner
        some (entries.replace name (.table mark inner))
    | some (.tables last earlier) => do
      let last ← changeAt? dotted change path .header last
      some (entries.replace name (.tables last earlier))
    | some _ => none

/-- Adds a value under a dotted key. A key with dots may only add to tables that dots made. -/
def addAt? (path : List String) (name : String) (node : Node) (entries : Entries) :
    Option Entries :=
  changeAt? true
    (fun mark inner =>
      if path.isEmpty ∨ mark = .dotted then inner.add? name node else none)
    path .header entries

/-- Opens the table of a header. It may exist already only if it lay on the way to another
header. -/
def openTable? (name : String) (entries : Entries) : Option Entries :=
  match entries.lookup name with
  | none => some (entries ++ [(name, .table .header [])])
  | some (.table .implied inner) => some (entries.replace name (.table .header inner))
  | some _ => none

def openItem? (name : String) (entries : Entries) : Option Entries :=
  match entries.lookup name with
  | none => some (entries ++ [(name, .tables [] [])])
  | some (.tables last earlier) => some (entries.replace name (.tables [] (last :: earlier)))
  | some _ => none

end Entries

end Fanout.Toml
