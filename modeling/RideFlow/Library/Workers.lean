import Mathlib.Logic.Function.Basic
import RideFlow.Library.Runs
import RideFlow.Library.Tables

/-!
# Work that comes to an end

Many workers run in one system.  `left s w` bounds the steps that the worker `w`
has still to take: the worker that takes a step has less to do after it, and no
other worker has more (`Turn`).  Then no worker takes more steps than it had to,
whoever is scheduled and whatever happens between its steps (`turns_le`), and one
that has a step to take until it is done comes to be done (`comes_to_its_end`).

A worker may have to wait for a key that another one holds.  Where only workers
that are at work hold keys (`HeldBy`), and workers that are at work never wait,
the workers cannot all wait.  A key is taken by one who is at work from then on and
given up by one who stops (`HeldBy.take`, `HeldBy.release`).
-/

namespace Workers

open Function Runs Tables

variable {S A W V K Q : Type*}

section Work

variable {left left' : W → Nat}

/-- After a step of `who`, if anyone's, it has less to do, and nobody has more. -/
def Turn (left left' : W → Nat) (who : Option W) : Prop :=
  (∀ w, who = some w → left' w < left w) ∧ ∀ w, left' w ≤ left w

/-- A step of nobody leaves everybody their number. -/
theorem Turn.idle (left : W → Nat) : Turn left left none :=
  ⟨fun _ h => (nomatch h), fun _ => Nat.le_refl _⟩

/-- The number of steps that a worker takes in a schedule. -/
def turns [DecidableEq W] (who : A → Option W) (w : W) (acts : List A) : Nat :=
  acts.countP fun a => who a = some w

/-- **Nobody takes more steps than it has to.** -/
theorem turns_le [DecidableEq W] {m : System S A} {ok : S → A → Prop} {left : S → W → Nat}
    {s t : S} {acts : List A} (who : A → Option W) (h : Steps m ok s acts t)
    (hturn : ∀ s a t, ok s a → m.step s a = some t → Turn (left s) (left t) (who a)) (w : W) :
    turns who w acts + left t w ≤ left s w := by
  induction h with
  | nil => simp [turns]
  | @snoc mid t front a _ hok hstep ih =>
      obtain ⟨hless, hle⟩ := hturn _ _ _ hok hstep
      unfold turns at ih ⊢
      rw [List.countP_append, List.countP_singleton]
      by_cases hw : who a = some w
      · have := hless w hw
        simp only [hw, decide_true, if_true]
        omega
      · have := hle w
        simp only [hw, decide_false]
        rw [if_neg (by simp)]
        omega

/-- **A worker that has a step to take until it is done comes to be done.** -/
theorem comes_to_its_end {m : System S A} {ok : S → A → Prop} (I Done : S → Prop) (rest : S → Nat)
    (hmoves : ∀ s, I s → Done s ∨ ∃ a t, ok s a ∧ m.step s a = some t ∧ I t ∧ rest t < rest s)
    {s : S} (h : I s) : ∃ acts t, Steps m ok s acts t ∧ Done t := by
  induction hrest : rest s using Nat.strongRecOn generalizing s with
  | ind n ih =>
      rcases hmoves s h with hdone | ⟨a, t, hok, hstep, ht, hless⟩
      · exact ⟨[], s, .nil s, hdone⟩
      · obtain ⟨acts, u, hrun, hend⟩ := ih (rest t) (hrest ▸ hless) ht rfl
        exact ⟨[a] ++ acts, u, (Steps.single hok hstep).trans hrun, hend⟩

end Work

section Tables

variable [DecidableEq Q] {B : Type*}

/-- The work of the workers of a table, by what is stored of each; one of which
nothing is stored has everything to do. -/
def leftIn (whole : Nat) (cost : B → Nat) (table : Q → Option B) (q : Q) : Nat :=
  (table q).elim whole cost

variable {whole : Nat} {cost : B → Nat} {table new : Q → Option B} {who : Option Q} {q : Q}
  {b b' : B}

/-- After a step of `who`, if anyone's, it has less to do, and nothing else has been
stored of the others. -/
structure MovesOn (whole : Nat) (cost : B → Nat) (table new : Q → Option B) (who : Option Q) :
    Prop where
  falls : ∀ q, who = some q → leftIn whole cost new q < leftIn whole cost table q
  same : ∀ q, who ≠ some q → new q = table q

omit [DecidableEq Q] in
/-- A step that changes no entry moves nobody on. -/
theorem MovesOn.idle : MovesOn whole cost table table none :=
  ⟨fun _ h => (nomatch h), fun _ _ => rfl⟩

omit [DecidableEq Q] in
/-- A worker that moves on has fewer steps left. -/
theorem MovesOn.turn (h : MovesOn whole cost table new who) :
    Turn (leftIn whole cost table) (leftIn whole cost new) who := by
  refine ⟨h.falls, fun q => ?_⟩
  by_cases hq : who = some q
  · exact Nat.le_of_lt (h.falls q hq)
  · rw [leftIn, h.same q hq]
    exact Nat.le_refl _

/-- An entry that is set to a cheaper stage moves its worker on. -/
theorem movesOn_update (hlt : cost b' < leftIn whole cost table q) :
    MovesOn whole cost table (update table q (some b')) (some q) where
  falls w hw := by
    obtain rfl : q = w := Option.some.inj hw
    simpa [leftIn] using hlt
  same w hw := update_of_ne (fun h => hw (congrArg some h.symm)) _ _

/-- A worker moves on. -/
theorem moves_on (hq : table q = some b) (hlt : cost b' < cost b) :
    MovesOn whole cost table (update table q (some b')) (some q) :=
  movesOn_update (by simpa [leftIn, hq] using hlt)

/-- A worker begins. -/
theorem begins (hq : table q = none) (hlt : cost b' < whole) :
    MovesOn whole cost table (update table q (some b')) (some q) :=
  movesOn_update (by simpa [leftIn, hq] using hlt)

end Tables

section Keys

variable [DecidableEq Q] [DecidableEq K] {B : Type*} {holder : K → Option Q}
  {table : Q → Option B} {busy : B → Bool} {q : Q} {b b' : B} {k : K}

/-- What is stored of the worker says that it is at work. -/
def Busy (table : Q → Option B) (busy : B → Bool) (q : Q) : Prop :=
  ∃ b, table q = some b ∧ busy b = true

/-- Only workers that are at work hold keys. -/
def HeldBy (holder : K → Option Q) (table : Q → Option B) (busy : B → Bool) : Prop :=
  ∀ k q, holder k = some q → Busy table busy q

omit [DecidableEq Q] in
/-- A worker in a stage that is not busy is not. -/
theorem not_busy (hq : table q = some b) (hb : busy b = false) : ¬ Busy table busy q := by
  rintro ⟨b', hq', hb'⟩
  obtain rfl : b = b' := Option.some.inj (hq.symm.trans hq')
  rw [hb] at hb'
  cases hb'

omit [DecidableEq Q] in
/-- A worker that is not there is not busy. -/
theorem not_busy_none (hq : table q = none) : ¬ Busy table busy q := by
  rintro ⟨b, hq', _⟩
  rw [hq] at hq'
  cases hq'

/-- Who is busy stays so when another one moves. -/
theorem busy_other {p : Q} (hp : p ≠ q) (h : Busy table busy p) :
    Busy (update table q (some b)) busy p := by
  obtain ⟨b', hq, hb⟩ := h
  exact ⟨b', by rwa [update_of_ne hp], hb⟩

omit [DecidableEq K] in
/-- One who moves on without stopping work holds what it held. -/
theorem HeldBy.stay (h : HeldBy holder table busy) (hb : Busy table busy q → busy b = true) :
    HeldBy holder (update table q (some b)) busy := by
  intro k p hp
  by_cases hpq : p = q
  · subst hpq
    exact ⟨b, update_self _ _ _, hb (h k p hp)⟩
  · exact busy_other hpq (h k p hp)

omit [DecidableEq K] in
/-- One who stops gives up every key. -/
theorem HeldBy.release (h : HeldBy holder table busy) (b : B) :
    HeldBy (fun k => if holder k = some q then none else holder k) (update table q (some b))
      busy := by
  intro k p hp
  by_cases hk : holder k = some q
  · simp [hk] at hp
  · simp only [hk, if_false] at hp
    refine busy_other ?_ (h k p hp)
    rintro rfl
    exact hk hp

/-- One who takes a key is at work. -/
theorem HeldBy.take (h : HeldBy holder table busy) (hb : busy b = true) :
    HeldBy (update holder k (some q)) (update table q (some b)) busy := by
  intro k' p hp
  rcases update_some_iff.mp hp with ⟨_, rfl⟩ | ⟨_, hold⟩
  · exact ⟨b, update_self _ _ _, hb⟩
  · exact h.stay (fun _ => hb) k' p hold

end Keys

end Workers
