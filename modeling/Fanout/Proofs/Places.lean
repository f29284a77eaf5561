/-!
# Lists whose members are known by their place

Processes, nodes and connections are known by their place in a list. Changing one member or adding
one at the end leaves the places of the others as they are.
-/

namespace Fanout

variable {β γ δ : Type}

theorem getElem?_concat_eq_some {l : List β} {b b' : β} {i : Nat} :
    (l ++ [b])[i]? = some b' ↔ l[i]? = some b' ∨ i = l.length ∧ b = b' := by
  rcases Nat.lt_trichotomy i l.length with inside | rfl | outside
  · rw [List.getElem?_append_left inside]
    simp [Nat.ne_of_lt inside]
  · simp
  · rw [List.getElem?_eq_none (by simp; omega), List.getElem?_eq_none (Nat.le_of_lt outside)]
    simp [Nat.ne_of_gt outside]

theorem getElem?_modify_eq_some {l : List β} {change : β → β} {b : β} {i j : Nat} :
    (l.modify i change)[j]? = some b ↔
      (i = j ∧ ∃ old, l[j]? = some old ∧ change old = b) ∨ (i ≠ j ∧ l[j]? = some b) := by
  rw [List.getElem?_modify]
  by_cases hit : i = j
  · simp [hit]
  · simp [hit]

theorem modify_append_length (change : β → β) (l : List β) (b : β) :
    (l ++ [b]).modify l.length change = l ++ [change b] := by
  induction l with
  | nil => rfl
  | cons first l ih =>
    rw [List.cons_append, List.length_cons, List.modify_succ_cons, ih]
    rfl

theorem map_modify (f : β → γ) (change : β → β) (same : ∀ b, f (change b) = f b)
    (l : List β) (i : Nat) : (l.modify i change).map f = l.map f := by
  apply List.ext_getElem?
  intro j
  rw [List.getElem?_map, List.getElem?_map, List.getElem?_modify]
  cases l[j]? with
  | none => rfl
  | some b =>
    by_cases hit : i = j
    · simp [hit, same]
    · simp [hit]

theorem map_mapIdx (f : β → γ) {change : Nat → β → β}
    (same : ∀ i b, f (change i b) = f b) (l : List β) : (l.mapIdx change).map f = l.map f := by
  apply List.ext_getElem?
  intro i
  rw [List.getElem?_map, List.getElem?_map, List.getElem?_mapIdx]
  cases l[i]? with
  | none => rfl
  | some b => exact congrArg some (same i b)

theorem set_eq_self {l : List β} {i : Nat} {b : β} (at_ : l[i]? = some b) : l.set i b = l := by
  obtain ⟨inside, rfl⟩ := List.getElem?_eq_some_iff.1 at_
  exact List.set_getElem_self inside

theorem forall_mem_modify {p : β → Prop} {l : List β} {i : Nat} {change : β → β}
    (before : ∀ b ∈ l, p b) (changed : ∀ b, l[i]? = some b → p (change b)) :
    ∀ b ∈ l.modify i change, p b := by
  intro b member
  obtain ⟨j, at_⟩ := List.mem_iff_getElem?.1 member
  rw [List.getElem?_modify] at at_
  cases old : l[j]? with
  | none => simp [old] at at_
  | some b' =>
    simp only [old, Option.map_eq_map, Option.map_some, Option.some.injEq] at at_
    by_cases hit : i = j
    · rw [if_pos hit] at at_
      exact at_ ▸ changed b' (hit ▸ old)
    · rw [if_neg hit] at at_
      exact at_ ▸ before b' (List.mem_of_getElem? old)

theorem forall_mem_set {p : β → Prop} {l : List β} (before : ∀ b ∈ l, p b) (i : Nat)
    {b : β} (new : p b) : ∀ b' ∈ l.set i b, p b' := by
  intro b' member
  rcases List.mem_or_eq_of_mem_set member with old | rfl
  · exact before b' old
  · exact new

theorem flatMap_range_eq (f : Nat → List β) (q count : Nat)
    (elsewhere : ∀ p, p ≠ q → f p = []) :
    (List.range count).flatMap f = if q < count then f q else [] := by
  induction count with
  | zero => simp
  | succ count ih =>
    rw [List.range_succ, List.flatMap_append, ih, List.flatMap_singleton]
    rcases Nat.lt_trichotomy q count with before | rfl | behind
    · rw [if_pos before, if_pos (by omega), elsewhere count (by omega), List.append_nil]
    · rw [if_neg (by omega), if_pos (by omega), List.nil_append]
    · rw [if_neg (by omega), if_neg (by omega), elsewhere count (by omega), List.append_nil]

theorem flatMap_filterMap (f : γ → List δ) (g : β → Option γ) (l : List β) :
    (l.filterMap g).flatMap f = l.flatMap fun b => ((g b).map f).getD [] := by
  induction l with
  | nil => rfl
  | cons b l ih =>
    rw [List.filterMap_cons, List.flatMap_cons, ← ih]
    cases g b <;> rfl

end Fanout
