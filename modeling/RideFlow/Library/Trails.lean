import Mathlib.Data.List.Basic
import Mathlib.Data.List.Chain
import Mathlib.Data.List.Nodup
import Mathlib.Tactic.Common

/-!
# Trails

A trail is a list of edges laid end to end: every edge leaves the vertex at
which the one before it arrived.  A log of updates of one register is such a
list, an update being an edge from the value it replaced to the value it
wrote.

* `isTrail_append`, `isTrail_snoc` -- trails compose and grow at the end;
* `IsTrail.vertex_inv` -- a vertex property that every edge keeps reaches the end;
* `IsTrail.ranks` -- if every edge climbs one rank, the edges leave the
  consecutive ranks, each exactly once.
-/

namespace Trails

variable {V E : Type*} (src tgt : E → V)

/-- `es` leads from `a` to `b`, edge by edge. -/
def IsTrail : V → List E → V → Prop
  | a, [], b => a = b
  | a, e :: es, b => src e = a ∧ IsTrail (tgt e) es b

variable {src tgt}

@[simp] theorem isTrail_nil {a b : V} : IsTrail src tgt a [] b ↔ a = b := Iff.rfl

@[simp] theorem isTrail_cons {a b : V} {e : E} {es : List E} :
    IsTrail src tgt a (e :: es) b ↔ src e = a ∧ IsTrail src tgt (tgt e) es b := Iff.rfl

/-- Trails compose. -/
theorem isTrail_append {a c : V} {es fs : List E} :
    IsTrail src tgt a (es ++ fs) c ↔
      ∃ b, IsTrail src tgt a es b ∧ IsTrail src tgt b fs c := by
  induction es generalizing a with
  | nil => simp
  | cons e es ih =>
      simp only [List.cons_append, isTrail_cons, ih]
      constructor
      · intro h
        obtain ⟨hsrc, b, hes, hfs⟩ := h
        exact ⟨b, ⟨hsrc, hes⟩, hfs⟩
      · intro h
        obtain ⟨b, ⟨hsrc, hes⟩, hfs⟩ := h
        exact ⟨hsrc, b, hes, hfs⟩

/-- A trail grows by one edge at its end. -/
theorem isTrail_snoc {a b : V} {es : List E} {e : E} :
    IsTrail src tgt a (es ++ [e]) b ↔ IsTrail src tgt a es (src e) ∧ tgt e = b := by
  rw [isTrail_append]
  constructor
  · intro h
    obtain ⟨c, hes, hsrc, htgt⟩ := h
    exact ⟨hsrc ▸ hes, htgt⟩
  · intro h
    exact ⟨src e, h.1, rfl, h.2⟩

/-- A vertex property kept by every edge of a trail reaches its end. -/
theorem IsTrail.vertex_inv {P : V → Prop} {a b : V} {es : List E}
    (h : IsTrail src tgt a es b) (ha : P a)
    (hkeep : ∀ e ∈ es, P (src e) → P (tgt e)) : P b := by
  induction es generalizing a with
  | nil => exact h ▸ ha
  | cons e es ih =>
      have hfirst : P (tgt e) := hkeep e List.mem_cons_self (h.1 ▸ ha)
      exact ih h.2 hfirst fun f hf => hkeep f (List.mem_cons_of_mem _ hf)

/-- A vertex property kept by every edge of a trail holds where each edge
leaves. -/
theorem IsTrail.vertex_inv_src {P : V → Prop} {a b : V} {es : List E}
    (h : IsTrail src tgt a es b) (ha : P a)
    (hkeep : ∀ e ∈ es, P (src e) → P (tgt e)) : ∀ e ∈ es, P (src e) := by
  intro e he
  obtain ⟨front, back, rfl⟩ := List.append_of_mem he
  obtain ⟨c, hfront, hback⟩ := isTrail_append.mp h
  have hc : P c := hfront.vertex_inv ha fun f hf => hkeep f (List.mem_append_left _ hf)
  exact hback.1 ▸ hc

/-- The first edge of a trail leaves its start. -/
theorem IsTrail.head_src {a b : V} {es : List E} (h : IsTrail src tgt a es b)
    {e : E} (he : es.head? = some e) : src e = a := by
  cases es with
  | nil => simp at he
  | cons f fs =>
      obtain rfl : f = e := by simpa using he
      exact h.1

/-- The last edge of a trail arrives at its end. -/
theorem IsTrail.getLast_tgt {a b : V} {es : List E} (h : IsTrail src tgt a es b)
    {e : E} (he : es.getLast? = some e) : tgt e = b := by
  obtain ⟨front, rfl⟩ := List.getLast?_eq_some_iff.mp he
  exact (isTrail_snoc.mp h).2

/-- Consecutive edges of a trail meet. -/
theorem IsTrail.meets {a b : V} {es : List E} (h : IsTrail src tgt a es b) :
    es.IsChain fun e f => src f = tgt e := by
  induction es generalizing a with
  | nil => exact .nil
  | cons e es ih =>
      rw [List.isChain_cons]
      exact ⟨fun f hf => h.2.head_src hf, ih h.2⟩

/-- If every edge climbs one rank, a trail climbs as many ranks as it has
edges. -/
theorem IsTrail.rank_end (rank : V → Nat) {a b : V} {es : List E}
    (h : IsTrail src tgt a es b)
    (hclimb : ∀ e ∈ es, rank (tgt e) = rank (src e) + 1) :
    rank b = rank a + es.length := by
  induction es generalizing a with
  | nil => exact h ▸ rfl
  | cons e es ih =>
      have hrest := ih h.2 fun f hf => hclimb f (List.mem_cons_of_mem _ hf)
      rw [hrest, hclimb e List.mem_cons_self, h.1, List.length_cons]
      omega

/-- **Ranks are consumed in order.**  If every edge climbs one rank, the edges
of a trail leave the consecutive ranks that begin with the rank of its start. -/
theorem IsTrail.ranks (rank : V → Nat) {a b : V} {es : List E}
    (h : IsTrail src tgt a es b)
    (hclimb : ∀ e ∈ es, rank (tgt e) = rank (src e) + 1) :
    es.map (fun e => rank (src e)) = List.range' (rank a) es.length := by
  induction es generalizing a with
  | nil => rfl
  | cons e es ih =>
      have hrest := ih h.2 fun f hf => hclimb f (List.mem_cons_of_mem _ hf)
      rw [List.map_cons, hrest, hclimb e List.mem_cons_self, h.1,
        List.length_cons, List.range'_succ]

end Trails
