import Mathlib.Data.List.Sort
import Mathlib.Tactic.Common

/-!
# Searching a ranking

A ranking lists some items, cheapest first.  Scanning it for the first free
item finds a cheapest free one.  Scanning only its first `n` items does so
exactly when there is a free one among them, or none at all.
-/

namespace Rankings

variable {α β : Type*} [LinearOrder β]

/-- The items in the order of their cost; ties in any order. -/
structure IsRanking (cost : α → β) (items ranked : List α) : Prop where
  perm : ranked.Perm items
  sorted : ranked.Pairwise fun a b => cost a ≤ cost b

/-- The result of a search for a cheapest free item. -/
def Cheapest (cost : α → β) (free : α → Bool) (items : List α) : Option α → Prop
  | none => ∀ a ∈ items, free a = false
  | some a => a ∈ items ∧ free a = true ∧ ∀ b ∈ items, free b = true → cost a ≤ cost b

variable {cost : α → β} {free : α → Bool} {items ranked : List α} {n : Nat}

/-- Sorting ranks. -/
theorem isRanking_insertionSort (cost : α → β) (items : List α) :
    IsRanking cost items (items.insertionSort fun a b => cost a ≤ cost b) where
  perm := List.perm_insertionSort _ items
  sorted := by
    have htotal : Std.Total fun a b : α => cost a ≤ cost b :=
      ⟨fun a b => le_total (cost a) (cost b)⟩
    have htrans : IsTrans α fun a b => cost a ≤ cost b :=
      ⟨fun _ _ _ => le_trans⟩
    exact List.pairwise_insertionSort _ items

/-- The first free item of a sorted list costs least. -/
theorem find_le {l : List α} (h : l.Pairwise fun a b => cost a ≤ cost b) {a b : α}
    (hfind : l.find? free = some a) (hb : b ∈ l) (hfree : free b = true) : cost a ≤ cost b := by
  induction l with
  | nil => cases hb
  | cons c l ih =>
      obtain ⟨hhead, htail⟩ := List.pairwise_cons.mp h
      by_cases hc : free c = true
      · obtain rfl : c = a := by simpa [List.find?_cons, hc] using hfind
        rcases List.mem_cons.mp hb with rfl | hb
        · exact le_rfl
        · exact hhead b hb
      · have hrest : l.find? free = some a := by simpa [List.find?_cons, hc] using hfind
        rcases List.mem_cons.mp hb with rfl | hb
        · exact absurd hfree hc
        · exact ih htail hrest hb

/-- **A truncated search.**  The first free one of the `n` cheapest items is a
cheapest free item if and only if one of them is free, or none is at all. -/
theorem truncated_search_iff (h : IsRanking cost items ranked) :
    Cheapest cost free items ((ranked.take n).find? free) ↔
      (∃ a ∈ ranked.take n, free a = true) ∨ ∀ a ∈ ranked, free a = false := by
  cases hfind : (ranked.take n).find? free with
  | none =>
      have hnone : ∀ a ∈ ranked.take n, free a = false := by
        simpa [List.find?_eq_none] using hfind
      constructor
      · intro hall
        exact Or.inr fun a ha => hall a (h.perm.mem_iff.mp ha)
      · rintro (⟨a, ha, hfree⟩ | hall)
        · cases (hnone a ha).symm.trans hfree
        · exact fun a ha => hall a (h.perm.mem_iff.mpr ha)
  | some a =>
      have hmem : a ∈ ranked.take n := List.mem_of_find?_eq_some hfind
      have hfree : free a = true := List.find?_some hfind
      refine ⟨fun _ => Or.inl ⟨a, hmem, hfree⟩, fun _ => ?_⟩
      refine ⟨h.perm.mem_iff.mp (List.mem_of_mem_take hmem), hfree, ?_⟩
      intro b hb hfreeb
      have hwhole : ranked.find? free = some a := by
        rw [← List.take_append_drop n ranked, List.find?_append, hfind]
        rfl
      exact find_le h.sorted hwhole (h.perm.mem_iff.mpr hb) hfreeb

end Rankings
