import Mathlib.Algebra.Order.Floor.Div
import RideFlow.Library.Rankings

/-!
# Emptying a queue in batches

Each batch takes up to `size` items from the front of a queue.  The batches are
full while they can be (`length_batches`), put together they are the front of the
queue (`flatten_batches`), and `length ⌈/⌉ size` of them are the whole queue
(`flatten_batches_eq`).

The queue of a table of items is their ranking.  Without ties there is only one
(`IsRanking.unique`), and the ranking of the items that a batch leaves is what it
leaves of the ranking (`IsRanking.rest`).
-/

namespace Rankings

variable {α β : Type*} [LinearOrder β] {cost : α → β} {items ranked ranked' : List α}

/-- Without ties there is one ranking. -/
theorem IsRanking.unique (h : IsRanking cost items ranked) (h' : IsRanking cost items ranked')
    (hties : (items.map cost).Nodup) : ranked = ranked' := by
  refine List.Perm.eq_of_pairwise ?_ h.sorted h'.sorted (h.perm.trans h'.perm.symm)
  intro a b ha hb hab hba
  have hmem : a ∈ items := h.perm.mem_iff.mp ha
  have hmem' : b ∈ items := h'.perm.mem_iff.mp hb
  exact List.inj_on_of_nodup_map hties hmem hmem' (le_antisymm hab hba)

/-- **What a batch leaves.**  When the items that are kept are those not among
the first `n`, then the rest of the ranking is theirs. -/
theorem IsRanking.rest (h : IsRanking cost items ranked) (n : Nat) {keep : α → Bool}
    (htaken : ∀ a ∈ ranked.take n, keep a = false) (hleft : ∀ a ∈ ranked.drop n, keep a = true) :
    IsRanking cost (items.filter keep) (ranked.drop n) where
  perm := by
    have hfront : (ranked.take n).filter keep = [] :=
      List.filter_eq_nil_iff.mpr fun a ha => by simp [htaken a ha]
    have hback : (ranked.drop n).filter keep = ranked.drop n := List.filter_eq_self.mpr hleft
    have hfilter : ranked.filter keep = ranked.drop n := by
      rw [← List.take_append_drop n ranked, List.filter_append, hfront, List.nil_append,
        List.take_append_drop, hback]
    exact hfilter ▸ h.perm.filter keep
  sorted := h.sorted.drop

end Rankings

namespace Batches

variable {A : Type*} (size : Nat)

/-- The first batches of a queue. -/
def batches : Nat → List A → List (List A)
  | 0, _ => []
  | k + 1, queue => queue.take size :: batches k (queue.drop size)

variable {size}

/-- A batch is full, or all that is left. -/
theorem length_batches (k : Nat) (queue : List A) :
    (batches size k queue).map List.length =
      (List.range k).map fun i => min size (queue.length - i * size) := by
  induction k generalizing queue with
  | zero => rfl
  | succ k ih =>
      rw [batches, List.map_cons, ih, List.range_succ_eq_map, List.map_cons, List.map_map]
      congr 1
      · simp
      · refine List.map_congr_left fun i _ => ?_
        rw [List.length_drop, Function.comp_apply, Nat.succ_mul, Nat.sub_sub, Nat.add_comm]

/-- **Batches put together** are the front of the queue. -/
theorem flatten_batches (k : Nat) (queue : List A) :
    (batches size k queue).flatten = queue.take (k * size) := by
  induction k generalizing queue with
  | zero => simp [batches]
  | succ k ih => rw [batches, List.flatten_cons, ih, Nat.succ_mul, Nat.add_comm, List.take_add]

/-- That many batches take all. -/
theorem length_le_mul (hsize : 0 < size) {k : Nat} {queue : List A}
    (hk : queue.length ⌈/⌉ size ≤ k) : queue.length ≤ k * size := by
  have h := (ceilDiv_le_iff_le_smul hsize).mp hk
  rwa [smul_eq_mul, Nat.mul_comm] at h

theorem flatten_batches_eq (hsize : 0 < size) {k : Nat} {queue : List A}
    (hk : queue.length ⌈/⌉ size ≤ k) : (batches size k queue).flatten = queue := by
  rw [flatten_batches, List.take_of_length_le (length_le_mul hsize hk)]

end Batches
