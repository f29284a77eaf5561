import Fanout.Json.Token

/-!
# JSON values

A value keeps what was written: object members in order, repeated keys included. Its compact text is
its tokens, one after the other. Reading goes over the tokens once and keeps the arrays and objects
that are still open on a stack, so values may nest to any depth. Main statement: the tokens of a
value are read back as the value (`ofTokens?_tokens`).
-/

namespace Fanout.Json

inductive Value
  | null
  | bool (value : Bool)
  | number (value : Number)
  | string (contents : Quoted)
  | array (items : List Value)
  | object (members : List (Quoted × Value))
  deriving Repr

namespace Value

mutual

def tokens : Value → List Token
  | null => [.null]
  | bool value => [.bool value]
  | number value => [.number value]
  | string contents => [.string contents]
  | array [] => [.openArray, .closeArray]
  | array (item :: items) => .openArray :: item.tokens ++ itemTokens items
  | object [] => [.openObject, .closeObject]
  | object ((key, value) :: members) =>
    .openObject :: .string key :: .colon :: value.tokens ++ memberTokens members

/-- The tokens of further array items, closing bracket included. -/
def itemTokens : List Value → List Token
  | [] => [.closeArray]
  | item :: items => .comma :: item.tokens ++ itemTokens items

def memberTokens : List (Quoted × Value) → List Token
  | [] => [.closeObject]
  | (key, value) :: members =>
    .comma :: .string key :: .colon :: value.tokens ++ memberTokens members

end

/-- An array or object that is not closed yet: what it holds so far, reversed, and for an object the
key of the value to come. -/
inductive Pending
  | array (items : List Value)
  | object (members : List (Quoted × Value)) (key : Quoted)
  deriving Repr

mutual

/-- Reads tokens where a value has to start. -/
def readValue (stack : List Pending) : List Token → Option Value
  | .null :: rest => readRest stack null rest
  | .bool value :: rest => readRest stack (bool value) rest
  | .number value :: rest => readRest stack (number value) rest
  | .string contents :: rest => readRest stack (string contents) rest
  | .openArray :: .closeArray :: rest => readRest stack (array []) rest
  | .openArray :: rest => readValue (.array [] :: stack) rest
  | .openObject :: .closeObject :: rest => readRest stack (object []) rest
  | .openObject :: .string key :: .colon :: rest => readValue (.object [] key :: stack) rest
  | _ => none

/-- Reads tokens behind a value that is complete. -/
def readRest : List Pending → Value → List Token → Option Value
  | [], value, [] => some value
  | .array items :: stack, value, .comma :: rest =>
    readValue (.array (value :: items) :: stack) rest
  | .array items :: stack, value, .closeArray :: rest =>
    readRest stack (array (value :: items).reverse) rest
  | .object members key :: stack, value, .comma :: .string next :: .colon :: rest =>
    readValue (.object ((key, value) :: members) next :: stack) rest
  | .object members key :: stack, value, .closeObject :: rest =>
    readRest stack (object ((key, value) :: members).reverse) rest
  | _, _, _ => none

end

def ofTokens? (tokens : List Token) : Option Value :=
  readValue [] tokens

theorem tokens_ne_nil (value : Value) : value.tokens ≠ [] := by
  match value with
  | null | bool _ | number _ | string _ | array [] | array (_ :: _) | object [] |
    object ((_, _) :: _) => simp [tokens]

theorem tokens_ne_closeArray (value : Value) (rest : List Token) :
    value.tokens ≠ .closeArray :: rest := by
  match value with
  | null | bool _ | number _ | string _ | array [] | array (_ :: _) | object [] |
    object ((_, _) :: _) => simp [tokens]

theorem readValue_openArray (stack : List Pending) {tokens : List Token}
    (h : ∀ rest, tokens ≠ .closeArray :: rest) :
    readValue stack (.openArray :: tokens) = readValue (.array [] :: stack) tokens := by
  rw [readValue]
  exact h

mutual

/-- The tokens of a value are read back as the value, whatever follows. -/
theorem readValue_tokens (stack : List Pending) (value : Value) (rest : List Token) :
    readValue stack (value.tokens ++ rest) = readRest stack value rest := by
  match value with
  | null => simp [tokens, readValue]
  | bool _ => simp [tokens, readValue]
  | number _ => simp [tokens, readValue]
  | string _ => simp [tokens, readValue]
  | array [] => simp [tokens, readValue]
  | object [] => simp [tokens, readValue]
  | array (item :: items) =>
    have start : ∀ after, item.tokens ++ (itemTokens items ++ rest) ≠ .closeArray :: after := by
      intro after eq
      match shape : item.tokens with
      | [] => exact tokens_ne_nil item shape
      | token :: tokens =>
        rw [shape] at eq
        simp only [List.cons_append, List.cons.injEq] at eq
        exact tokens_ne_closeArray item tokens (by rw [shape, eq.1])
    simp only [tokens, List.cons_append, List.append_assoc]
    rw [readValue_openArray stack start, readValue_tokens, readRest_itemTokens]
    simp
  | object ((key, value) :: members) =>
    simp only [tokens, List.cons_append, List.append_assoc]
    rw [readValue, readValue_tokens, readRest_memberTokens]
    simp

theorem readRest_itemTokens (stack : List Pending) (before : List Value) (value : Value)
    (items : List Value) (rest : List Token) :
    readRest (.array before :: stack) value (itemTokens items ++ rest) =
      readRest stack (array (before.reverse ++ value :: items)) rest := by
  match items with
  | [] => simp [itemTokens, readRest]
  | item :: items =>
    simp only [itemTokens, List.cons_append, List.append_assoc]
    rw [readRest, readValue_tokens, readRest_itemTokens]
    simp

theorem readRest_memberTokens (stack : List Pending) (before : List (Quoted × Value))
    (key : Quoted) (value : Value) (members : List (Quoted × Value)) (rest : List Token) :
    readRest (.object before key :: stack) value (memberTokens members ++ rest) =
      readRest stack (object (before.reverse ++ (key, value) :: members)) rest := by
  match members with
  | [] => simp [memberTokens, readRest]
  | (next, item) :: members =>
    simp only [memberTokens, List.cons_append, List.append_assoc]
    rw [readRest, readValue_tokens, readRest_memberTokens]
    simp

end

@[simp] theorem ofTokens?_tokens (value : Value) : ofTokens? value.tokens = some value := by
  have read := readValue_tokens [] value []
  rw [List.append_nil] at read
  rw [ofTokens?, read, readRest]

def render (value : Value) : Bytes :=
  value.tokens.flatMap Token.render

def parse? (bytes : Bytes) : Option Value :=
  (Token.scan bytes).bind ofTokens?

mutual

/-- The number of arrays and objects around the innermost part of a value. -/
def depth : Value → Nat
  | array items => itemsDepth items + 1
  | object members => membersDepth members + 1
  | _ => 0

def itemsDepth : List Value → Nat
  | [] => 0
  | item :: items => max item.depth (itemsDepth items)

def membersDepth : List (Quoted × Value) → Nat
  | [] => 0
  | (_, value) :: members => max value.depth (membersDepth members)

end

mutual

/-- Whether every string in a value has a text and every number is an integer or finite. -/
def isSound : Value → Bool
  | number value => value.isFinite
  | string contents => contents.text?.isSome
  | array items => itemsSound items
  | object members => membersSound members
  | _ => true

def itemsSound : List Value → Bool
  | [] => true
  | item :: items => item.isSound && itemsSound items

def membersSound : List (Quoted × Value) → Bool
  | [] => true
  | (key, value) :: members => key.text?.isSome && value.isSound && membersSound members

end

end Value

end Fanout.Json
