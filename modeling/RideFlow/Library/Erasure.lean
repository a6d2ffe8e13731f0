import Mathlib.Logic.Function.Basic
import RideFlow.Library.Runs

/-!
# Erasing what left no trace

A transaction that is rolled back should leave everything as it would be
without it.  `Steps.erase` is the rule for that: let `erase` forget the
erased parties in a state.  If no action of theirs is seen through `erase`
until one of them is spent, which it then remains, and every other action can
be taken in the erased state too, with the erased result, then a run that ends
with nobody spent can be run without their actions, and ends in the erased
state.

The erased parties are keys of some tables and owners of locks in others:
`hide` drops the entries of the first kind, `unlock` the locks of the second, and
`SpentAt` says that the entry of one of them is spent.
-/

namespace Runs

variable {S A : Type*} {m : System S A} {ok ok' : S → A → Prop}

/-- **Erasure.**  A run at whose end nobody is spent is a run without the
actions of the erased parties, seen through `erase`. -/
theorem Steps.erase (erase : S → S) (mine : A → Bool) (spent I : S → Prop)
    (hkeep : ∀ s a t, I s → ok s a → m.step s a = some t → I t)
    (hmine : ∀ s a t, I s → ok s a → mine a = true → m.step s a = some t →
      erase t = erase s ∨ spent t)
    (hothers : ∀ s a t, I s → ok s a → mine a = false → m.step s a = some t →
      ok' (erase s) a ∧ m.step (erase s) a = some (erase t))
    (hspent : ∀ s a t, I s → spent s → m.step s a = some t → spent t)
    {s t : S} {acts : List A} (h : Steps m ok s acts t) (hinit : I s) (hunspent : ¬ spent t) :
    Steps m ok' (erase s) (acts.filter fun a => !mine a) (erase t) := by
  induction h with
  | nil => exact .nil _
  | @snoc t u acts a before hok hstep ih =>
      have hI := before.invariant I hinit hkeep
      have hrun := ih fun hs => hunspent (hspent t a u hI hs hstep)
      rw [List.filter_append]
      cases hm : mine a with
      | true =>
          rcases hmine t a u hI hok hm hstep with hsame | hs
          · rw [hsame]
            simpa [hm] using hrun
          · exact absurd hs hunspent
      | false =>
          obtain ⟨hadmitted, htaken⟩ := hothers t a u hI hok hm hstep
          simpa [hm] using hrun.snoc hadmitted htaken

end Runs

namespace Erasure

open Function

variable {K V Q : Type*} (gone : K → Bool) (absent : Q → Bool)

/-- The table without the entries of the keys that are gone. -/
def hide (f : K → Option V) : K → Option V := fun k => if gone k then none else f k

/-- The locks without those of the owners that are absent. -/
def unlock (locks : K → Option Q) : K → Option Q :=
  fun k => (locks k).filter fun q => !absent q

variable {gone absent} {f : K → Option V} {locks : K → Option Q} {k : K} {q : Q}

/-- The entries of the others are there. -/
theorem hide_apply (h : gone k = false) : hide gone f k = f k := by
  simp [hide, h]

/-- A lock that nobody holds is free. -/
theorem unlock_apply (h : locks k = none) : unlock absent locks k = none := by
  simp [unlock, h]

/-- There is nothing to hide in an empty table. -/
theorem hide_none : hide gone (fun _ => (none : Option V)) = fun _ => none := by
  funext k
  simp [hide]

/-- There is nothing to unlock where nothing is locked. -/
theorem unlock_none : unlock absent (fun _ : K => none) = fun _ => none := by
  funext k
  simp [unlock]

/-- The entry of `k` is spent. -/
def SpentAt (spent : V → Prop) (f : K → Option V) (k : K) : Prop :=
  ∃ v, f k = some v ∧ spent v

variable [DecidableEq K]

section Spent

variable {spent : V → Prop} {v : V} {x : K}

/-- Who is given a spent entry is spent. -/
theorem spentAt_update (hv : spent v) : SpentAt spent (update f k (some v)) k :=
  ⟨v, update_self _ _ _, hv⟩

/-- A write keeps what is spent, if it does not make that entry anew. -/
theorem SpentAt.update (h : SpentAt spent f x) (hkeep : ∀ v', f k = some v' → spent v' → spent v) :
    SpentAt spent (Function.update f k (some v)) x := by
  obtain ⟨v', hv', hspent⟩ := h
  by_cases heq : x = k
  · subst heq
    exact spentAt_update (hkeep v' hv' hspent)
  · exact ⟨v', (update_of_ne heq _ _).trans hv', hspent⟩

/-- A write over an entry that is not spent keeps what is spent. -/
theorem SpentAt.beside {v₀ : V} (h : SpentAt spent f x) (hentry : f k = some v₀)
    (hunspent : ¬ spent v₀) : SpentAt spent (Function.update f k (some v)) x := by
  refine h.update fun v' hv' hspent => absurd hspent ?_
  obtain rfl : v₀ = v' := Option.some.inj (hentry.symm.trans hv')
  exact hunspent

/-- A new entry keeps what is spent. -/
theorem SpentAt.insert (h : SpentAt spent f x) (hnone : f k = none) :
    SpentAt spent (Function.update f k (some v)) x := by
  refine h.update fun v' hv' _ => ?_
  rw [hnone] at hv'
  cases hv'

end Spent

/-- A write of somebody who is there is seen. -/
theorem hide_update (h : gone k = false) (v : Option V) :
    hide gone (update f k v) = update (hide gone f) k v := by
  funext x
  by_cases hx : x = k
  · subst hx
    simp [hide, h]
  · simp [hide, hx]

/-- A write to an entry that is gone is not seen. -/
theorem hide_update_gone (h : gone k = true) (v : Option V) :
    hide gone (update f k v) = hide gone f := by
  funext x
  by_cases hx : x = k
  · subst hx
    simp [hide, h]
  · simp [hide, hx]

/-- So is a lock of somebody who is there. -/
theorem unlock_update (h : absent q = false) :
    unlock absent (update locks k (some q)) = update (unlock absent locks) k (some q) := by
  funext x
  by_cases hx : x = k
  · subst hx
    simp [unlock, h]
  · simp [unlock, hx]

/-- A free lock that an absent owner takes is free. -/
theorem unlock_update_absent (h : absent q = true) (hfree : locks k = none) :
    unlock absent (update locks k (some q)) = unlock absent locks := by
  funext x
  by_cases hx : x = k
  · subst hx
    simp [unlock, h, hfree]
  · simp [unlock, hx]

variable [DecidableEq Q]

omit [DecidableEq K] in
/-- So is a release by somebody who is there. -/
theorem unlock_release (h : absent q = false) :
    unlock absent (fun k => if locks k = some q then none else locks k) =
      fun k => if unlock absent locks k = some q then none else unlock absent locks k := by
  funext x
  cases hlock : locks x with
  | none => simp [unlock, hlock]
  | some p =>
      by_cases hp : p = q
      · subst hp
        simp [unlock, hlock, h]
      · cases hp' : absent p <;> simp [unlock, hlock, hp, Option.filter, hp']

omit [DecidableEq K] in
/-- The locks of an absent owner are released unseen. -/
theorem unlock_release_absent (h : absent q = true) :
    unlock absent (fun k => if locks k = some q then none else locks k) = unlock absent locks := by
  funext x
  cases hlock : locks x with
  | none => simp [unlock, hlock]
  | some p =>
      by_cases hp : p = q
      · subst hp
        simp [unlock, hlock, Option.filter, h]
      · simp [unlock, hlock, hp]

end Erasure
