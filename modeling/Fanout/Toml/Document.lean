import Fanout.Toml.Node

/-!
# TOML documents

A document is lines: blank ones, keys with values, and the headers of tables and of lists of tables.
Comments may end any line. Loops are bounded by the number of characters that are left where they
start, since each round takes at least one, and arrays and inline tables nest to a fixed depth.
-/

namespace Fanout.Toml

/-- The number of arrays and inline tables that may stand around a value, and of parts that a dotted
key may have. -/
def nestingLimit : Nat :=
  79

def dropBlanks (text : Chars) : Chars :=
  text.dropWhile Text.isBlank

/-- The text behind a line feed at its front, with or without a carriage return before it. -/
def newline? : Chars → Option Chars
  | '\r' :: '\n' :: rest => some rest
  | '\n' :: rest => some rest
  | _ => none

def dropComment : Chars → Chars
  | '#' :: rest => rest.dropWhile Text.isPlain
  | text => text

/-- The text behind the end of the line, which blanks and a comment may precede. The end of the text
ends a line, too. -/
def lineEnd? (text : Chars) : Option Chars :=
  match dropComment (dropBlanks text) with
  | [] => some []
  | rest => newline? rest

/-- The text without blanks, line ends and comments at its front; `inComment` tells that a comment
has begun. -/
def dropFiller (inComment : Bool) : Chars → Chars
  | [] => []
  | '\r' :: '\n' :: rest => dropFiller false rest
  | c :: rest =>
    if c = '\n' then dropFiller false rest
    else if inComment then
      if Text.isPlain c then dropFiller true rest else c :: rest
    else if Text.isBlank c then dropFiller false rest
    else if c = '#' then dropFiller true rest
    else c :: rest

def isKeyPart (c : Char) : Bool :=
  c.isAlphanum || c == '-' || c == '_'

def readName : Reader String
  | '"' :: rest => Text.readLine ('"' :: rest)
  | '\'' :: rest => Text.readLine ('\'' :: rest)
  | text =>
    match text.span isKeyPart with
    | ([], _) => none
    | (name, rest) => some (String.ofList name, rest)

/-- Reads the parts of a key with the blanks around them; `fuel` bounds their number. -/
def readNames : Nat → Reader (List String)
  | 0, _ => none
  | fuel + 1, text => do
    let (name, rest) ← readName (dropBlanks text)
    match dropBlanks rest with
    | '.' :: rest => do
      let (names, rest) ← readNames fuel rest
      some (name :: names, rest)
    | rest => some ([name], rest)

/-- Reads a key: the names of the tables on the way, and the last name. -/
def readKey : Reader (List String × String) := fun text => do
  let (names, rest) ← readNames nestingLimit text
  let last ← names.getLast?
  some ((names.dropLast, last), rest)

def readItems (item : Reader Node) : Nat → List Node → Reader (List Node)
  | 0, _, _ => none
  | fuel + 1, taken, text =>
    match dropFiller false text with
    | ']' :: rest => some (taken.reverse, rest)
    | text => do
      let (node, rest) ← item text
      match dropFiller false rest with
      | ',' :: rest => readItems item fuel (node :: taken) rest
      | ']' :: rest => some ((node :: taken).reverse, rest)
      | _ => none

def readPair (item : Reader Node) (entries : Entries) : Reader Entries := fun text => do
  let ((path, name), rest) ← readKey text
  match rest with
  | '=' :: rest => do
    let (node, rest) ← item (dropBlanks rest)
    let entries ← entries.addAt? path name node
    some (entries, rest)
  | _ => none

def readPairs (item : Reader Node) : Nat → Entries → Reader Entries
  | 0, _, _ => none
  | fuel + 1, entries, text => do
    let (entries, rest) ← readPair item entries text
    match dropBlanks rest with
    | ',' :: rest => readPairs item fuel entries rest
    | '}' :: rest => some (entries, rest)
    | _ => none

def readInline (item : Reader Node) (fuel : Nat) (text : Chars) : Option (Entries × Chars) :=
  match dropBlanks text with
  | '}' :: rest => some ([], rest)
  | rest => readPairs item fuel [] rest

/-- Reads a value around which `levels` more arrays and inline tables may open; `fuel` bounds the
number of items in each. -/
def readNode (fuel : Nat) : Nat → Reader Node
  | _, '"' :: rest => (Text.read ('"' :: rest)).map fun (text, rest) => (.text text, rest)
  | _, '\'' :: rest => (Text.read ('\'' :: rest)).map fun (text, rest) => (.text text, rest)
  | 0, '[' :: _ => none
  | 0, '{' :: _ => none
  | levels + 1, '[' :: rest =>
    (readItems (readNode fuel levels) fuel [] rest).map fun (items, rest) =>
      (.array items, rest)
  | levels + 1, '{' :: rest =>
    (readInline (readNode fuel levels) fuel rest).map fun (entries, rest) =>
      (.table .inline entries, rest)
  | _, text => (Scalar.read text).map fun (scalar, rest) => (.scalar scalar, rest)

/-- What has been read of a document: its root table, and the path of the table that lines add
to. -/
structure Draft where
  root : Entries := []
  path : List String := []
  deriving Repr

namespace Draft

def pair? (fuel : Nat) (draft : Draft) : Reader Draft := fun text => do
  let ((path, name), rest) ← readKey text
  match rest with
  | '=' :: rest => do
    let (node, rest) ← readNode fuel nestingLimit (dropBlanks rest)
    let rest ← lineEnd? rest
    let root ← Entries.changeAt? false (fun _ inner => inner.addAt? path name node)
      draft.path .header draft.root
    some ({ draft with root }, rest)
  | _ => none

def header? (draft : Draft) : Reader Draft := fun text => do
  let ((path, name), rest) ← readKey text
  match rest with
  | ']' :: rest => do
    let rest ← lineEnd? rest
    let root ← Entries.changeAt? false (fun _ inner => inner.openTable? name)
      path .header draft.root
    some ({ root, path := path ++ [name] }, rest)
  | _ => none

def item? (draft : Draft) : Reader Draft := fun text => do
  let ((path, name), rest) ← readKey text
  match rest with
  | ']' :: ']' :: rest => do
    let rest ← lineEnd? rest
    let root ← Entries.changeAt? false (fun _ inner => inner.openItem? name)
      path .header draft.root
    some ({ root, path := path ++ [name] }, rest)
  | _ => none

def lines? : Nat → Draft → Chars → Option Draft
  | 0, _, _ => none
  | fuel + 1, draft, text =>
    match dropBlanks text with
    | [] => some draft
    | '#' :: rest => do
      lines? fuel draft (← lineEnd? ('#' :: rest))
    | '\n' :: rest => lines? fuel draft rest
    | '\r' :: '\n' :: rest => lines? fuel draft rest
    | '[' :: '[' :: rest => do
      let (draft, rest) ← draft.item? rest
      lines? fuel draft rest
    | '[' :: rest => do
      let (draft, rest) ← draft.header? rest
      lines? fuel draft rest
    | text => do
      let (draft, rest) ← draft.pair? fuel text
      lines? fuel draft rest

end Draft

/-- The root table of a document. A byte order mark in front of it does not count. -/
def parse? (text : String) : Option Entries :=
  let chars := match text.toList with
    | '\uFEFF' :: rest => rest
    | chars => chars
  (Draft.lines? (chars.length + 1) {} chars).map (·.root)

end Fanout.Toml
