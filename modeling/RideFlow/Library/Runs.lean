import Mathlib.Data.List.Basic
import Mathlib.Tactic.Common

/-!
# Guarded systems and their runs

A system is a guarded step function: `step s a` is the next state when the
action `a` is enabled in `s`, and `none` when it is not.  A schedule is a list
of actions.  The same step function serves two purposes here: `exec` replays a
concrete schedule, and `Steps` is the relation that the proofs run over.

A run carries an admission predicate `ok`: every action of the run was taken
in a state that admits it.  Free runs admit everything; serial runs, runs
without failures and runs of well-behaved clients are the same relation under
a stronger predicate.

* `Steps.invariant` -- a predicate kept by every admitted step holds at the end;
* `Steps.history` -- the same for a predicate that looks at the schedule so far;
* `Steps.turning_point` -- the step at which a run loses what it had;
* `Steps.always_iff` -- an admission that is exactly what a predicate needs;
* `Steps.along` -- a preorder that every admitted step climbs relates the
  two ends of a run;
* `Steps.project` -- a run seen through a map of states is a run of another
  system, steps it does not see being dropped;
* `Steps.simulate` -- the same where what is seen depends on the state;
* `Steps.refine` -- where a step of the one system is a run of the other, and the
  states are only related;
* `Steps.unwinding` -- two runs that agree on the actions an observer sees end
  in states that the observer cannot tell apart.
-/

namespace Runs

/-- A system with states `S` and actions `A`. -/
structure System (S A : Type*) where
  step : S → A → Option S

variable {S T A B : Type*}

/-- Replay a schedule; `none` when some action along the way is disabled. -/
def exec (m : System S A) (s : S) : List A → Option S
  | [] => some s
  | a :: acts => (m.step s a).bind fun t => exec m t acts

/-- Admit every action in every state. -/
def free (_ : S) (_ : A) : Prop := True

/-- `Steps m ok s acts t`: the schedule `acts` leads from `s` to `t`, and
every action was taken in a state that admits it. -/
inductive Steps (m : System S A) (ok : S → A → Prop) : S → List A → S → Prop
  | nil (s : S) : Steps m ok s [] s
  | snoc {s t u : S} {acts : List A} {a : A}
      (before : Steps m ok s acts t) (admitted : ok t a)
      (taken : m.step t a = some u) : Steps m ok s (acts ++ [a]) u

variable {m : System S A} {ok ok' : S → A → Prop}

/-- One admitted step is a run. -/
theorem Steps.single {s t : S} {a : A} (hok : ok s a) (h : m.step s a = some t) :
    Steps m ok s [a] t :=
  .snoc (.nil s) hok h

/-- Runs compose. -/
theorem Steps.trans {s t u : S} {acts more : List A}
    (h₁ : Steps m ok s acts t) (h₂ : Steps m ok t more u) :
    Steps m ok s (acts ++ more) u := by
  induction h₂ with
  | nil => simpa using h₁
  | snoc _ hok hstep ih =>
      rw [← List.append_assoc]
      exact .snoc ih hok hstep

/-- Split a run at a point of its schedule. -/
theorem Steps.split {s u : S} {acts more : List A}
    (h : Steps m ok s (acts ++ more) u) :
    ∃ t, Steps m ok s acts t ∧ Steps m ok t more u := by
  generalize hall : acts ++ more = all at h
  induction h generalizing more with
  | nil =>
      obtain ⟨rfl, rfl⟩ := List.append_eq_nil_iff.mp hall
      exact ⟨_, .nil _, .nil _⟩
  | @snoc t u front a before hok hstep ih =>
      rcases List.eq_nil_or_concat more with rfl | ⟨more', b, rfl⟩
      · rw [List.append_nil] at hall
        exact ⟨u, hall ▸ .snoc before hok hstep, .nil u⟩
      · rw [List.concat_eq_append, ← List.append_assoc] at hall
        obtain ⟨hfront, hlast⟩ := List.append_inj' hall rfl
        obtain ⟨mid, hleft, hright⟩ := ih hfront
        obtain rfl : b = a := by simpa using hlast
        exact ⟨mid, hleft, by simpa using hright.snoc hok hstep⟩

/-- A run that admits less is a run that admits more. -/
theorem Steps.mono (hle : ∀ s a, ok s a → ok' s a) {s t : S} {acts : List A}
    (h : Steps m ok s acts t) : Steps m ok' s acts t := by
  induction h with
  | nil => exact .nil _
  | snoc _ hok hstep ih => exact .snoc ih (hle _ _ hok) hstep

/-- The actions of a run are those of its schedule. -/
theorem Steps.scheduled {s t : S} {acts : List A} (h : Steps m ok s acts t) :
    Steps m (fun s a => ok s a ∧ a ∈ acts) s acts t := by
  induction h with
  | nil => exact .nil _
  | @snoc mid t front a _ hok hstep ih =>
      have hfront := ih.mono fun _ b hb => And.intro hb.1 (List.mem_append_left [a] hb.2)
      exact hfront.snoc ⟨hok, List.mem_append_right _ List.mem_cons_self⟩ hstep

/-- A run that admits more than an invariant allows admits less: what the
invariant adds to the admission of every step. -/
theorem Steps.strengthen (I : S → Prop) {s t : S} {acts : List A} (h : Steps m ok s acts t)
    (hinit : I s) (hkeep : ∀ s a t, I s → ok s a → m.step s a = some t → I t)
    (hstrong : ∀ s a, I s → ok s a → ok' s a) : Steps m ok' s acts t := by
  have hboth : Steps m ok' s acts t ∧ I t := by
    induction h with
    | nil => exact ⟨.nil _, hinit⟩
    | snoc _ hok hstep ih =>
        obtain ⟨hrun, hI⟩ := ih
        exact ⟨.snoc hrun (hstrong _ _ hI hok) hstep, hkeep _ _ _ hI hok hstep⟩
  exact hboth.1

/-- **The invariant rule.**  What holds at the start and is kept by every
admitted step holds at the end of every run. -/
theorem Steps.invariant (I : S → Prop) {s t : S} {acts : List A}
    (h : Steps m ok s acts t) (hinit : I s)
    (hkeep : ∀ s a t, I s → ok s a → m.step s a = some t → I t) : I t := by
  induction h with
  | nil => exact hinit
  | snoc _ hok hstep ih => exact hkeep _ _ _ ih hok hstep

/-- **The invariant rule for two invariants**, the second of which is kept
only where the first one holds. -/
theorem Steps.invariant_under (I J : S → Prop) {s t : S} {acts : List A}
    (h : Steps m ok s acts t) (hI : I s) (hJ : J s)
    (hkeepI : ∀ s a t, I s → m.step s a = some t → I t)
    (hkeepJ : ∀ s a t, I s → J s → ok s a → m.step s a = some t → J t) : J t := by
  have hboth : I t ∧ J t := h.invariant (fun s => I s ∧ J s) ⟨hI, hJ⟩
    fun s a t hs hok hstep => ⟨hkeepI s a t hs.1 hstep, hkeepJ s a t hs.1 hs.2 hok hstep⟩
  exact hboth.2

/-- **The monotonicity rule.**  A preorder that every admitted step climbs,
from a state that satisfies the invariant, relates the two ends of a run. -/
theorem Steps.along (R : S → S → Prop) (hrefl : ∀ s, R s s)
    (htrans : ∀ s t u, R s t → R t u → R s u)
    (I : S → Prop) {s t : S} {acts : List A}
    (h : Steps m ok s acts t) (hinit : I s)
    (hkeep : ∀ s a t, I s → ok s a → m.step s a = some t → I t)
    (hstep : ∀ s a t, I s → ok s a → m.step s a = some t → R s t) : R s t := by
  induction h with
  | nil => exact hrefl _
  | snoc before hok htaken ih =>
      have hI := before.invariant I hinit hkeep
      exact htrans _ _ _ ih (hstep _ _ _ hI hok htaken)

/-- **The invariant rule with the history.**  What holds of the empty schedule
and is kept by every admitted step, from a state that the schedule so far has
led to, holds at the end of every run. -/
theorem Steps.history (I : List A → S → Prop) {s t : S} {acts : List A}
    (h : Steps m ok s acts t) (hinit : I [] s)
    (hkeep : ∀ acts u a v, Steps m ok s acts u → I acts u → ok u a → m.step u a = some v →
      I (acts ++ [a]) v) : I acts t := by
  induction h with
  | nil => exact hinit
  | snoc before hok hstep ih => exact hkeep _ _ _ _ before ih hok hstep

/-- A moment of a run from `s`: after `front` the action `a` leads from `u` to
`v`. -/
structure Moment (m : System S A) (ok : S → A → Prop) (s : S) (front : List A) (u : S) (a : A)
    (v : S) : Prop where
  before : Steps m ok s front u
  admitted : ok u a
  taken : m.step u a = some v

/-- **The turning point.**  Where a run starts with something and ends without
it, some step of the run loses it. -/
theorem Steps.turning_point (P : S → Prop) {s t : S} {acts : List A} (h : Steps m ok s acts t)
    (hstart : P s) (hend : ¬ P t) :
    ∃ front a back u v, acts = front ++ a :: back ∧ Moment m ok s front u a v ∧ P u ∧ ¬ P v ∧
      Steps m ok v back t := by
  induction h with
  | nil => exact absurd hstart hend
  | @snoc mid t front a before hok hstep ih =>
      by_cases hmid : P mid
      · exact ⟨front, a, [], mid, t, rfl, ⟨before, hok, hstep⟩, hmid, hend, .nil t⟩
      · obtain ⟨front', b, back, u, v, rfl, hmoment, hu, hv, hback⟩ := ih hmid
        exact ⟨front', b, back ++ [a], u, v, by simp, hmoment, hu, hv, hback.snoc hok hstep⟩

/-- A schedule leads to one state. -/
theorem Steps.unique {s t u : S} {acts : List A} (h : Steps m ok s acts t)
    (h' : Steps m ok' s acts u) : t = u := by
  induction h generalizing u with
  | nil =>
      generalize hacts : ([] : List A) = acts at h'
      cases h' with
      | nil => rfl
      | snoc _ _ _ => simp at hacts
  | @snoc mid t front a _ _ hstep ih =>
      generalize hacts : front ++ [a] = acts at h'
      cases h' with
      | nil => simp at hacts
      | @snoc mid' u front' a' before' _ hstep' =>
          obtain ⟨rfl, hlast⟩ := List.append_inj' hacts rfl
          obtain rfl : a = a' := by simpa using hlast
          obtain rfl := ih before'
          exact Option.some.inj (hstep.symm.trans hstep')

/-- **The rule of the exact condition.**  If what is wanted holds in every
admitted run, and is lost by every step that is not admitted, then a run that
has it at every moment is an admitted one, and conversely. -/
theorem Steps.always_iff (P : List A → S → Prop) {s t : S} {acts : List A}
    (hkept : ∀ front mid, Steps m ok s front mid → P front mid)
    (hlost : ∀ front mid a next, Steps m ok s front mid → ¬ ok mid a →
      m.step mid a = some next → ¬ P (front ++ [a]) next)
    (h : Steps m free s acts t) :
    (∀ front back mid, acts = front ++ back → Steps m free s front mid → P front mid) ↔
      Steps m ok s acts t := by
  constructor
  · intro hall
    induction h with
    | nil => exact .nil _
    | @snoc mid next front a before hfree hstep ih =>
        have hrun : Steps m ok s front mid := by
          refine ih fun front' back mid' hfront hmid => ?_
          exact hall front' (back ++ [a]) mid' (by rw [hfront, List.append_assoc]) hmid
        have hadmitted : ok mid a := by
          by_contra hnot
          exact hlost front mid a next hrun hnot hstep
            (hall _ [] next (List.append_nil _).symm (.snoc before hfree hstep))
        exact hrun.snoc hadmitted hstep
  · rintro hrun front back mid rfl hmid
    obtain ⟨mid', hfront, _⟩ := hrun.split
    obtain rfl := hmid.unique hfront
    exact hkept front mid hfront

/-- **Projection.**  If every step either is invisible through `view` or is a
step of `n` seen through it, a run of `m` is a run of `n`. -/
theorem Steps.project {n : System T B} {okB : T → B → Prop}
    (view : S → T) (label : A → Option B)
    (hseen : ∀ s a t, ok s a → m.step s a = some t →
      match label a with
      | none => view t = view s
      | some b => okB (view s) b ∧ n.step (view s) b = some (view t))
    {s t : S} {acts : List A} (h : Steps m ok s acts t) :
    Steps n okB (view s) (acts.filterMap label) (view t) := by
  induction h with
  | nil => exact .nil _
  | @snoc t u acts a before hok hstep ih =>
      have h := hseen t a u hok hstep
      rw [List.filterMap_append]
      cases hl : label a with
      | none =>
          rw [hl] at h
          simpa [hl, h] using ih
      | some b =>
          rw [hl] at h
          simpa [hl] using ih.snoc h.1 h.2

/-- **Simulation.**  If every step of `m`, from a state that satisfies the
invariant, is invisible through `view` or is a step of `n` seen through it, the
end of a run of `m` is seen as the end of a run of `n`. -/
theorem Steps.simulate {n : System T B} {okB : T → B → Prop} (view : S → T) (I : S → Prop)
    {s t : S} {acts : List A} (h : Steps m ok s acts t) (hinit : I s)
    (hkeep : ∀ s a t, I s → ok s a → m.step s a = some t → I t)
    (hseen : ∀ s a t, I s → ok s a → m.step s a = some t →
      view t = view s ∨ ∃ b, okB (view s) b ∧ n.step (view s) b = some (view t)) :
    ∃ seen, Steps n okB (view s) seen (view t) := by
  induction h with
  | nil => exact ⟨[], .nil _⟩
  | snoc before hok hstep ih =>
      obtain ⟨seen, hrun⟩ := ih
      have hI := before.invariant I hinit hkeep
      rcases hseen _ _ _ hI hok hstep with hsame | ⟨b, hadmitted, htaken⟩
      · exact ⟨seen, hsame ▸ hrun⟩
      · exact ⟨seen ++ [b], hrun.snoc hadmitted htaken⟩

/-- **Refinement.**  If every step of `m`, from a state related to one of `n`, is
matched by a run of `n` to a related state, so is a run of `m`. -/
theorem Steps.refine {n : System T B} {okB : T → B → Prop} (R : S → T → Prop)
    {s t : S} {u : T} {acts : List A} (h : Steps m ok s acts t) (hinit : R s u)
    (hmatch : ∀ s a t u, R s u → ok s a → m.step s a = some t →
      ∃ seen v, Steps n okB u seen v ∧ R t v) :
    ∃ seen v, Steps n okB u seen v ∧ R t v := by
  induction h with
  | nil => exact ⟨[], u, .nil u, hinit⟩
  | snoc _ hok hstep ih =>
      obtain ⟨seen, v, hrun, hR⟩ := ih
      obtain ⟨more, w, hmore, hR'⟩ := hmatch _ _ _ _ hR hok hstep
      exact ⟨seen ++ more, w, hrun.trans hmore, hR'⟩

/-- **Unwinding.**  If a hidden action leads to a state that the observer
cannot tell from the one before, and a visible one leads from states that it
cannot tell apart to such states, then two runs that agree on their visible
actions end in states that the observer cannot tell apart. -/
theorem Steps.unwinding (R : S → S → Prop) (hsymm : ∀ s t, R s t → R t s)
    (htrans : ∀ s t u, R s t → R t u → R s u) (visible : A → Bool) (I : S → Prop)
    (hkeep : ∀ s a t, I s → ok s a → m.step s a = some t → I t)
    (hhidden : ∀ s a t, I s → ok s a → visible a = false → m.step s a = some t → R s t)
    (hvisible : ∀ s s' a t t', I s → I s' → ok s a → ok s' a → visible a = true →
      m.step s a = some t → m.step s' a = some t' → R s s' → R t t')
    {s s' t t' : S} {acts acts' : List A} (h : Steps m ok s acts t)
    (h' : Steps m ok s' acts' t') (hs : I s) (hs' : I s') (hR : R s s')
    (hsame : acts.filter visible = acts'.filter visible) : R t t' := by
  induction h generalizing acts' t' with
  | nil =>
      induction h' with
      | nil => exact hR
      | @snoc u' v' front' b before' hok' hstep' ih' =>
          rw [List.filter_append] at hsame
          obtain ⟨hfront, hlast⟩ := List.append_eq_nil_iff.mp hsame.symm
          have hhid : visible b = false := by simpa using hlast
          have hI := before'.invariant I hs' hkeep
          exact htrans _ _ _ (ih' hfront.symm) (hhidden _ _ _ hI hok' hhid hstep')
  | @snoc u v front a before hok hstep ih =>
      have hI := before.invariant I hs hkeep
      cases hvis : visible a with
      | false =>
          have hfront : front.filter visible = acts'.filter visible := by
            rw [← hsame, List.filter_append]
            simp [hvis]
          exact htrans _ _ _ (hsymm _ _ (hhidden _ _ _ hI hok hvis hstep)) (ih h' hfront)
      | true =>
          rw [List.filter_append, List.filter_singleton, hvis, cond_true] at hsame
          -- walk back from the end of the second run to its last visible action
          induction h' with
          | nil => simp at hsame
          | @snoc u' v' front' b before' hok' hstep' ih' =>
              have hI' := before'.invariant I hs' hkeep
              cases hvis' : visible b with
              | false =>
                  rw [List.filter_append, List.filter_singleton, hvis'] at hsame
                  have hfront : front.filter visible ++ [a] = front'.filter visible := by
                    simpa using hsame
                  exact htrans _ _ _ (ih' hfront) (hhidden _ _ _ hI' hok' hvis' hstep')
              | true =>
                  rw [List.filter_append, List.filter_singleton, hvis', cond_true] at hsame
                  obtain ⟨hfront, hlast⟩ := List.append_inj' hsame rfl
                  obtain rfl : a = b := by simpa using hlast
                  exact hvisible _ _ _ _ _ hI hI' hok hok' hvis hstep hstep'
                    (ih before' hfront)

/-- Replaying an admitted schedule gives a run. -/
theorem Steps.of_exec {s t : S} {acts : List A}
    (h : exec m s acts = some t) : Steps m free s acts t := by
  induction acts generalizing s with
  | nil =>
      obtain rfl : s = t := by simpa [exec] using h
      exact .nil s
  | cons a acts ih =>
      obtain ⟨mid, hstep, hrest⟩ := Option.bind_eq_some_iff.mp h
      have hfirst : Steps m free s [a] mid := .single trivial hstep
      exact hfirst.trans (ih hrest)

/-- A replay whose last state passes a check gives a run to such a state. -/
theorem Steps.of_exec_any {p : S → Bool} {s : S} {acts : List A}
    (h : (exec m s acts).any p = true) : ∃ t, Steps m free s acts t ∧ p t = true := by
  obtain ⟨t, ht, hp⟩ := (Option.any_eq_true p _).mp h
  exact ⟨t, .of_exec ht, hp⟩

/-- Replay a schedule, checking that every action is admitted. -/
def execWhere (m : System S A) (ok : S → A → Prop) [∀ s a, Decidable (ok s a)] (s : S) :
    List A → Option S
  | [] => some s
  | a :: acts => if ok s a then (m.step s a).bind fun t => execWhere m ok t acts else none

/-- A checked replay gives an admitted run. -/
theorem Steps.of_execWhere [∀ s a, Decidable (ok s a)] {s t : S} {acts : List A}
    (h : execWhere m ok s acts = some t) : Steps m ok s acts t := by
  induction acts generalizing s with
  | nil =>
      obtain rfl : s = t := by simpa [execWhere] using h
      exact .nil s
  | cons a acts ih =>
      by_cases hok : ok s a
      · rw [execWhere, if_pos hok] at h
        obtain ⟨mid, hstep, hrest⟩ := Option.bind_eq_some_iff.mp h
        exact (Steps.single hok hstep).trans (ih hrest)
      · simp [execWhere, hok] at h

/-- A checked replay whose last state passes a check gives an admitted run to
such a state. -/
theorem Steps.of_execWhere_any [∀ s a, Decidable (ok s a)] {p : S → Bool} {s : S}
    {acts : List A} (h : (execWhere m ok s acts).any p = true) :
    ∃ t, Steps m ok s acts t ∧ p t = true := by
  obtain ⟨t, ht, hp⟩ := (Option.any_eq_true p _).mp h
  exact ⟨t, .of_execWhere ht, hp⟩

end Runs
