/-!
# Tables

Finite maps as lists of pairs. A key is looked up at its first pair; setting a key keeps its place
if it has one. Main statements: what is looked up after setting or erasing a key (`get?_set`,
`get?_erase`).
-/

namespace Fanout

/-- A finite map from keys to values, in the order in which keys were first set. -/
abbrev Table (κ β : Type) := List (κ × β)

namespace Table

variable {κ β : Type} [DecidableEq κ]

def get? (table : Table κ β) (key : κ) : Option β :=
  match table with
  | [] => none
  | (k, value) :: rest => if k = key then some value else get? rest key

/-- The table with the value of a key replaced, or added at the end. -/
def set (table : Table κ β) (key : κ) (value : β) : Table κ β :=
  match table with
  | [] => [(key, value)]
  | (k, old) :: rest => if k = key then (key, value) :: rest else (k, old) :: set rest key value

def erase (table : Table κ β) (key : κ) : Table κ β :=
  table.filter fun entry => entry.1 ≠ key

def has (table : Table κ β) (key : κ) : Bool :=
  (get? table key).isSome

@[simp] theorem get?_nil (key : κ) : get? ([] : Table κ β) key = none := rfl

@[simp] theorem get?_set (table : Table κ β) (key other : κ) (value : β) :
    get? (set table key value) other = if key = other then some value else get? table other := by
  induction table with
  | nil => simp [set, get?]
  | cons entry rest ih =>
    obtain ⟨k, old⟩ := entry
    by_cases same : k = key
    · subst same
      by_cases hit : k = other <;> simp [set, get?, hit]
    · by_cases hit : k = other
      · subst hit
        simp [set, get?, same, Ne.symm same]
      · simp [set, get?, same, hit, ih]

@[simp] theorem get?_erase (table : Table κ β) (key other : κ) :
    get? (erase table key) other = if key = other then none else get? table other := by
  induction table with
  | nil => simp [erase]
  | cons entry rest ih =>
    obtain ⟨k, value⟩ := entry
    rw [erase] at ih ⊢
    by_cases same : k = key
    · subst same
      by_cases hit : k = other <;> simp_all [get?]
    · by_cases hit : k = other
      · subst hit
        simp [get?, same, Ne.symm same]
      · simp_all [get?]

theorem erase_of_get?_eq_none {table : Table κ β} {key : κ} (h : get? table key = none) :
    erase table key = table := by
  induction table with
  | nil => rfl
  | cons entry rest ih =>
    rw [get?] at h
    split at h
    next => contradiction
    next other =>
      rw [erase] at ih ⊢
      rw [List.filter_cons_of_pos (by simpa using other), ih h]

end Table

end Fanout
