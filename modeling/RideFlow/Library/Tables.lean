import Mathlib.Logic.Function.Basic
import Mathlib.Tactic.Common

/-!
# Tables

A table is a partial map from keys to rows, `K → Option V`, and a write is
`Function.update`.  The lemmas here read one entry back after one write; they
are stated as equivalences, so that a lookup in an updated table splits into
the written entry and the untouched ones.
-/

namespace Tables

variable {K V : Type*} [DecidableEq K] {f : K → Option V} {a x : K} {b c : V}

/-- A lookup after a write finds the written row or an untouched one. -/
theorem update_some_iff :
    Function.update f a (some b) x = some c ↔ (x = a ∧ b = c) ∨ (x ≠ a ∧ f x = some c) := by
  by_cases hx : x = a
  · subst hx
    simp
  · simp [hx]

/-- A lookup after a deletion finds an untouched row. -/
theorem update_none_iff :
    Function.update f a none x = some c ↔ x ≠ a ∧ f x = some c := by
  by_cases hx : x = a
  · subst hx
    simp
  · simp [hx]

/-- After a write only untouched entries can be missing. -/
theorem update_some_eq_none :
    Function.update f a (some b) x = none ↔ x ≠ a ∧ f x = none := by
  by_cases hx : x = a
  · subst hx
    simp
  · simp [hx]

/-- A write that changes only the second half of a row keeps the first halves of
all rows. -/
theorem first_of_update {A B : Type*} {g : K → Option (A × B)} {first first' : A}
    {old new second : B} (hold : g a = some (first, old))
    (h : Function.update g a (some (first, new)) x = some (first', second)) :
    ∃ before, g x = some (first', before) := by
  rcases update_some_iff.mp h with ⟨rfl, hrow⟩ | ⟨_, hrow⟩
  · cases hrow
    exact ⟨old, hold⟩
  · exact ⟨second, hrow⟩

/-- Where a list has one element of a kind at most, two of them are one. -/
theorem eq_of_countP_le_one {A : Type*} {rows : List A} {p : A → Bool} {row row' : A}
    (h : rows.countP p ≤ 1) (hmem : row ∈ rows) (hp : p row = true) (hmem' : row' ∈ rows)
    (hp' : p row' = true) : row = row' := by
  rw [List.countP_eq_length_filter] at h
  have hin : row ∈ rows.filter p := List.mem_filter.mpr ⟨hmem, hp⟩
  have hin' : row' ∈ rows.filter p := List.mem_filter.mpr ⟨hmem', hp'⟩
  have hone : (rows.filter p).length = 1 := Nat.le_antisymm h (List.length_pos_of_mem hin)
  obtain ⟨only, hlist⟩ := List.length_eq_one_iff.mp hone
  rw [hlist] at hin hin'
  rw [List.mem_singleton.mp hin, List.mem_singleton.mp hin']

end Tables
