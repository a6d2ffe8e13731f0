import Mathlib.Logic.Relation
import RideFlow.Library.Runs
import RideFlow.Library.Tables

/-!
# Atomic objects and linearizability

An object is given by what one operation may do to it when it runs alone.  Its
*atomic system* serves many calls at once, and each of them takes effect in one
step that lies between its call and its return.  A system is linearizable when
every history of calls and returns that it shows is one of the atomic system.

An operation may come to nothing: the caller then gets the answer `lost`, and
the object is as it was, either because the operation was never executed or
because the answer that it lost was a `silent` one.

* `recording` -- a system that writes down what its steps show;
* `refine_star` -- a recorded run that is matched step by step is matched whole;
* `Shows` -- the atomic system shows what the requests of an implementation show,
  with one rule for each thing that a step of theirs may do to a call;
* `AtomicStep.placed` -- who has returned has been executed, and who has been
  executed had called;
* `real_time` -- an operation that returned before another one was called is
  executed before it.
-/

namespace Linearization

open Function Relation Runs Tables

variable {X Op Ret Q S A O : Type*}

/-! ### Recorded runs -/

/-- A system next to the list of what its steps have shown. -/
def recording (m : System S A) (seen : S → A → S → List O) : System (S × List O) A where
  step s a := (m.step s.1 a).map fun t => (t, s.2 ++ seen s.1 a t)

variable {m : System S A} {seen : S → A → S → List O}

/-- A recorded step is a step, and what it shows is written down. -/
theorem recording_step {s t : S × List O} {a : A} (h : (recording m seen).step s a = some t) :
    m.step s.1 a = some t.1 ∧ t.2 = s.2 ++ seen s.1 a t.1 := by
  obtain ⟨u, hu, rfl⟩ := Option.map_eq_some_iff.mp h
  exact ⟨hu, rfl⟩

variable (seen) in
/-- Every run can be recorded. -/
theorem recorded {ok : S → A → Prop} {s t : S} {acts : List A} (h : Steps m ok s acts t)
    (before : List O) :
    ∃ after, Steps (recording m seen) (fun u a => ok u.1 a) (s, before) acts (t, after) := by
  induction h with
  | nil => exact ⟨before, .nil _⟩
  | @snoc mid t front a _ hok hstep ih =>
      obtain ⟨after, hrun⟩ := ih
      refine ⟨after ++ seen mid a t, hrun.snoc hok ?_⟩
      exact Option.map_eq_some_iff.mpr ⟨t, hstep, rfl⟩

/-- A recorded run is a run. -/
theorem unrecorded (ok : S → A → Prop) {s t : S × List O} {acts : List A}
    (h : Steps (recording m seen) (fun u a => ok u.1 a) s acts t) : Steps m ok s.1 acts t.1 := by
  induction h with
  | nil => exact .nil _
  | snoc _ hok hstep ih => exact ih.snoc hok (recording_step hstep).1

/-! ### The atomic system -/

/-- `exec x op ret y`: run alone on `x`, the operation may answer `ret` and leave
`y`.  `env` is what may happen to the object besides. -/
structure Object (X Op Ret : Type*) where
  exec : X → Op → Ret → X → Prop
  env : X → X → Prop
  silent : Ret → Prop
  lost : Ret
  silent_exec : ∀ x op ret y, exec x op ret y → silent ret → y = x

/-- Where a call stands. -/
inductive Status (Op Ret : Type*)
  | called (op : Op)
  | executed (op : Op) (ret : Ret)
  | returned (op : Op) (ret : Ret)

/-- What the callers see. -/
inductive Event (Q Op Ret : Type*)
  | call (q : Q) (op : Op)
  | ret (q : Q) (ret : Ret)

/-- The object, the calls, what the callers have seen, and the calls in the order
in which they were executed. -/
structure Atomic (X Op Ret Q : Type*) where
  object : X
  calls : Q → Option (Status Op Ret)
  history : List (Event Q Op Ret)
  order : List Q

/-- Nothing called yet. -/
def Atomic.start (x : X) : Atomic X Op Ret Q := ⟨x, fun _ => none, [], []⟩

variable [DecidableEq Q]

/-- The call of `q` comes to this point. -/
def Atomic.put (l : Atomic X Op Ret Q) (q : Q) (status : Status Op Ret) : Atomic X Op Ret Q :=
  { l with calls := update l.calls q (some status) }

/-- The call of `q` returns. -/
def Atomic.finish (l : Atomic X Op Ret Q) (q : Q) (op : Op) (ret : Ret) : Atomic X Op Ret Q :=
  { l.put q (.returned op ret) with history := l.history ++ [.ret q ret] }

/-- A call, its execution and its return, each a step; an execution may get lost. -/
inductive AtomicStep (obj : Object X Op Ret) (l : Atomic X Op Ret Q) : Atomic X Op Ret Q → Prop
  | env {x : X} (henv : obj.env l.object x) : AtomicStep obj l { l with object := x }
  | call {q : Q} {op : Op} (hcall : l.calls q = none) :
      AtomicStep obj l { l.put q (.called op) with history := l.history ++ [.call q op] }
  | execute {q : Q} {op : Op} {ret : Ret} {x : X} (hcall : l.calls q = some (.called op))
      (hexec : obj.exec l.object op ret x) :
      AtomicStep obj l { l.put q (.executed op ret) with object := x, order := l.order ++ [q] }
  | ret {q : Q} {op : Op} {ret : Ret} (hcall : l.calls q = some (.executed op ret)) :
      AtomicStep obj l (l.finish q op ret)
  | drop {q : Q} {op : Op} (hcall : l.calls q = some (.called op)) :
      AtomicStep obj l (l.finish q op obj.lost)
  | lose {q : Q} {op : Op} {ret : Ret} (hcall : l.calls q = some (.executed op ret))
      (hsilent : obj.silent ret) : AtomicStep obj l (l.finish q op obj.lost)

/-- A run of the atomic system. -/
abbrev AtomicRun (obj : Object X Op Ret) : Atomic X Op Ret Q → Atomic X Op Ret Q → Prop :=
  ReflTransGen (AtomicStep obj)

/-- The call came to this answer, whether the caller has it yet or not. -/
def Atomic.Came (l : Atomic X Op Ret Q) (q : Q) (op : Op) (ret : Ret) : Prop :=
  l.calls q = some (.executed op ret) ∨ l.calls q = some (.returned op ret)

section Came

variable {l : Atomic X Op Ret Q} {p q : Q} {op op' : Op} {ret ret' : Ret}

/-- A call that has been executed after `put` is that of `q`, or had been before. -/
theorem came_put {status : Status Op Ret} (h : (l.put q status).Came p op ret) :
    p = q ∧ (status = .executed op ret ∨ status = .returned op ret) ∨
      p ≠ q ∧ l.Came p op ret := by
  rcases h with h | h
  · rcases update_some_iff.mp h with ⟨rfl, hnew⟩ | ⟨hp, hold⟩
    · exact Or.inl ⟨rfl, Or.inl hnew⟩
    · exact Or.inr ⟨hp, Or.inl hold⟩
  · rcases update_some_iff.mp h with ⟨rfl, hnew⟩ | ⟨hp, hold⟩
    · exact Or.inl ⟨rfl, Or.inr hnew⟩
    · exact Or.inr ⟨hp, Or.inr hold⟩

/-- The same for a return. -/
theorem came_finish (h : (l.finish q op' ret').Came p op ret) :
    p = q ∧ op' = op ∧ ret' = ret ∨ p ≠ q ∧ l.Came p op ret := by
  rcases came_put h with ⟨rfl, hstatus | hstatus⟩ | hold
  · cases hstatus
  · cases hstatus
    exact Or.inl ⟨rfl, rfl, rfl⟩
  · exact Or.inr hold

end Came

/-- **Refinement, into a relation.**  If every step of `m`, from a state related to
`l`, is matched by steps of `n` to a related state, so is a run of `m`. -/
theorem refine_star {B : Type*} {n : B → B → Prop} {ok : S → A → Prop} (R : S → B → Prop)
    {s t : S} {l : B} {acts : List A} (h : Steps m ok s acts t) (hinit : R s l)
    (I : S → Prop) (hI : I s) (hkeep : ∀ s a t, I s → ok s a → m.step s a = some t → I t)
    (hmatch : ∀ s a t l, I s → R s l → ok s a → m.step s a = some t →
      ∃ l', ReflTransGen n l l' ∧ R t l') :
    ∃ l', ReflTransGen n l l' ∧ R t l' := by
  induction h with
  | nil => exact ⟨l, .refl, hinit⟩
  | snoc before hok hstep ih =>
      obtain ⟨mid, hrun, hR⟩ := ih
      obtain ⟨l', hmore, hR'⟩ := hmatch _ _ _ _ (before.invariant I hI hkeep) hR hok hstep
      exact ⟨l', hrun.trans hmore, hR'⟩

/-! ### Real time -/

variable {obj : Object X Op Ret} {l l' : Atomic X Op Ret Q}

/-- Who is in the order of execution, and who is not. -/
structure Placed (obj : Object X Op Ret) (l : Atomic X Op Ret Q) : Prop where
  called : ∀ q ∈ l.order, ∃ op ret,
    l.calls q = some (.executed op ret) ∨ l.calls q = some (.returned op ret)
  executed : ∀ q op ret, l.calls q = some (.executed op ret) → q ∈ l.order
  returned : ∀ q op ret, l.calls q = some (.returned op ret) → ret ≠ obj.lost → q ∈ l.order
  nodup : l.order.Nodup

omit [DecidableEq Q] in
/-- At first nobody has returned. -/
theorem placed_start (x : X) : Placed obj (.start x : Atomic X Op Ret Q) := by
  constructor <;> simp [Atomic.start]

/-- A call that returns keeps its place. -/
theorem Placed.finish (h : Placed obj l) {q : Q} {op : Op} {ret : Ret}
    (hplace : ret ≠ obj.lost → q ∈ l.order) : Placed obj (l.finish q op ret) where
  called := by
    intro p hp
    by_cases hpq : p = q
    · subst hpq
      exact ⟨op, ret, Or.inr (by simp [Atomic.finish, Atomic.put])⟩
    · obtain ⟨op', ret', hcall⟩ := h.called p hp
      exact ⟨op', ret', by simpa [Atomic.finish, Atomic.put, hpq] using hcall⟩
  executed := by
    intro p op' ret' hp
    rcases update_some_iff.mp hp with ⟨_, hnew⟩ | ⟨_, hold⟩
    · cases hnew
    · exact h.executed p op' ret' hold
  returned := by
    intro p op' ret' hp hret
    rcases update_some_iff.mp hp with ⟨rfl, hnew⟩ | ⟨_, hold⟩
    · cases hnew
      exact hplace hret
    · exact h.returned p op' ret' hold hret
  nodup := h.nodup

/-- **One step keeps the places.** -/
theorem AtomicStep.placed (hstep : AtomicStep obj l l') (h : Placed obj l) : Placed obj l' := by
  cases hstep with
  | env _ => exact ⟨h.called, h.executed, h.returned, h.nodup⟩
  | @call q op hcall =>
      refine ⟨?_, ?_, ?_, h.nodup⟩
      · intro p hp
        obtain ⟨op', ret', hplaced⟩ := h.called p hp
        have hpq : p ≠ q := by
          rintro rfl
          simp [hcall] at hplaced
        exact ⟨op', ret', by simpa [Atomic.put, hpq] using hplaced⟩
      · intro p op' ret' hp
        rcases update_some_iff.mp hp with ⟨_, hnew⟩ | ⟨_, hold⟩
        · cases hnew
        · exact h.executed p op' ret' hold
      · intro p op' ret' hp hret
        rcases update_some_iff.mp hp with ⟨_, hnew⟩ | ⟨_, hold⟩
        · cases hnew
        · exact h.returned p op' ret' hold hret
  | @execute q op ret x hcall _ =>
      have hq : q ∉ l.order := by
        intro hmem
        obtain ⟨op', ret', hplaced⟩ := h.called q hmem
        simp [hcall] at hplaced
      refine ⟨?_, ?_, ?_, ?_⟩
      · intro p hp
        by_cases hpq : p = q
        · subst hpq
          exact ⟨op, ret, Or.inl (by simp [Atomic.put])⟩
        · have hold : p ∈ l.order := by simpa [hpq] using hp
          obtain ⟨op', ret', hplaced⟩ := h.called p hold
          exact ⟨op', ret', by simpa [Atomic.put, hpq] using hplaced⟩
      · intro p op' ret' hp
        rcases update_some_iff.mp hp with ⟨rfl, _⟩ | ⟨_, hold⟩
        · exact List.mem_append_right _ List.mem_cons_self
        · exact List.mem_append_left _ (h.executed p op' ret' hold)
      · intro p op' ret' hp hret
        rcases update_some_iff.mp hp with ⟨_, hnew⟩ | ⟨_, hold⟩
        · cases hnew
        · exact List.mem_append_left _ (h.returned p op' ret' hold hret)
      · exact List.nodup_append.mpr ⟨h.nodup, List.pairwise_singleton _ _, fun a ha b hb heq => by
          obtain rfl := List.mem_singleton.mp hb
          exact hq (heq ▸ ha)⟩
  | ret hcall => exact h.finish fun _ => h.executed _ _ _ hcall
  | drop _ => exact h.finish fun hlost => absurd rfl hlost
  | lose hcall _ => exact h.finish fun _ => h.executed _ _ _ hcall

/-- A run keeps the calls placed. -/
theorem AtomicRun.placed (hrun : AtomicRun obj l l') (h : Placed obj l) : Placed obj l' := by
  induction hrun with
  | refl => exact h
  | tail _ hstep ih => exact hstep.placed ih

/-- The order of execution only grows. -/
theorem AtomicRun.order (hrun : AtomicRun obj l l') : l.order <+: l'.order := by
  induction hrun with
  | refl => exact List.prefix_rfl
  | tail _ hstep ih =>
      refine ih.trans ?_
      cases hstep with
      | execute _ _ => exact List.prefix_append _ _
      | _ => exact List.prefix_rfl

/-- **Real time.**  A call that had returned before another one was made is
executed before it. -/
theorem real_time (h : Placed obj l) (hrun : AtomicRun obj l l') {p q : Q} {op : Op} {ret : Ret}
    (hp : l.calls p = some (.returned op ret)) (hret : ret ≠ obj.lost) (hq : l.calls q = none)
    (hmem : q ∈ l'.order) :
    ∃ front back, l'.order = front ++ back ∧ p ∈ front ∧ q ∈ back := by
  obtain ⟨back, hback⟩ := hrun.order
  refine ⟨l.order, back, hback.symm, h.returned p op ret hp hret, ?_⟩
  rw [← hback] at hmem
  rcases List.mem_append.mp hmem with hearly | hlate
  · obtain ⟨op', ret', hplaced⟩ := h.called q hearly
    simp [hq] at hplaced
  · exact hlate

/-! ### Requests that stand for calls -/

variable {St R : Type*}

/-- An event, in the words of the answer that the client gets. -/
def Event.told (tell : Ret → R) : Event Q Op Ret → Event Q Op R
  | .call q op => .call q op
  | .ret q answer => .ret q (tell answer)

omit [DecidableEq Q] in
theorem told_id : (Event.told id : Event Q Op Ret → Event Q Op Ret) = id := by
  funext e
  cases e with
  | call _ _ => rfl
  | ret _ _ => rfl

/-- What is seen of a step that serves the request `q`: it arrives, or is answered. -/
def shown (answer : St → Option R) (q : Option Q) (before after : Q → Option (Op × St)) :
    List (Event Q Op R) :=
  match q with
  | none => []
  | some q =>
      match before q, after q with
      | none, some (op, _) => [.call q op]
      | some _, some (_, stage) => (answer stage).toList.map (.ret q)
      | _, _ => []

section Shown

variable {answer : St → Option R} {q : Q} {before after : Q → Option (Op × St)} {op : Op}
  {old : Op × St} {stage : St} {r : R}

omit [DecidableEq Q] in
/-- A request that arrives shows its call. -/
theorem shown_call (hbefore : before q = none) (hafter : after q = some (op, stage)) :
    shown answer (some q) before after = [.call q op] := by
  simp [shown, hbefore, hafter]

omit [DecidableEq Q] in
/-- One that goes on working shows nothing. -/
theorem shown_work (hbefore : before q = some old) (hafter : after q = some (op, stage))
    (hopen : answer stage = none) : shown answer (some q) before after = [] := by
  simp [shown, hbefore, hafter, hopen]

omit [DecidableEq Q] in
/-- One that is answered shows the answer. -/
theorem shown_answer (hbefore : before q = some old) (hafter : after q = some (op, stage))
    (hanswer : answer stage = some r) : shown answer (some q) before after = [.ret q r] := by
  simp [shown, hbefore, hafter, hanswer]

end Shown

/-- How the states of an implementation are looked at: the object that they hold,
the requests with their stages, and which stage of a request stands for which point
of its call.  `tell` says what the client is told of an answer. -/
structure Portrait (S X Op St Ret R Q : Type*) where
  object : S → X
  requests : S → Q → Option (Op × St)
  tell : Ret → R
  StandsAs : Option (Op × St) → Option (Status Op Ret) → Prop

/-- The atomic system shows what the requests show. -/
structure Shows (p : Portrait S X Op St Ret R Q) (s : S × List (Event Q Op R))
    (l : Atomic X Op Ret Q) : Prop where
  object : l.object = p.object s.1
  history : l.history.map (Event.told p.tell) = s.2
  calls : ∀ q, p.StandsAs (p.requests s.1 q) (l.calls q)

section Rules

variable {p : Portrait S X Op St Ret R Q} {s t : S} {history : List (Event Q Op R)} {q : Q}
  {op : Op} {ret : Ret} {stage : St}

omit [DecidableEq Q] in
/-- Nothing that anybody sees. -/
theorem Shows.silent (h : Shows p (s, history) l) (hobject : p.object t = p.object s)
    (hreqs : p.requests t = p.requests s) : Shows p (t, history) l where
  object := h.object.trans hobject.symm
  history := h.history
  calls := fun q => hreqs ▸ h.calls q

/-- A request goes on, and so does its call. -/
theorem Shows.advance (h : Shows p (s, history) l) {history' : List (Event Q Op R)}
    {status : Status Op Ret} (hobject : l'.object = p.object t)
    (hhistory : l'.history.map (Event.told p.tell) = history')
    (hcalls : l'.calls = update l.calls q (some status))
    (hreqs : p.requests t = update (p.requests s) q (some (op, stage)))
    (hstands : p.StandsAs (some (op, stage)) (some status)) : Shows p (t, history') l' where
  object := hobject
  history := hhistory
  calls := by
    intro q'
    rw [hreqs, hcalls]
    by_cases hq : q' = q
    · subst hq
      rwa [update_self, update_self]
    · rw [update_of_ne hq, update_of_ne hq]
      exact h.calls q'

/-- A request goes on, and its call stands where it stood. -/
theorem Shows.work (h : Shows p (s, history) l) {status : Status Op Ret}
    (hcall : l.calls q = some status) (hobject : p.object t = p.object s)
    (hreqs : p.requests t = update (p.requests s) q (some (op, stage)))
    (hstands : p.StandsAs (some (op, stage)) (some status)) : Shows p (t, history) l :=
  h.advance (h.object.trans hobject.symm) h.history
    (by rw [← hcall, update_eq_self]) hreqs hstands

/-- Something happens to the object besides. -/
theorem Shows.env (h : Shows p (s, history) l) (henv : obj.env (p.object s) (p.object t))
    (hreqs : p.requests t = p.requests s) :
    ∃ l', AtomicRun obj l l' ∧ Shows p (t, history) l' :=
  ⟨_, .single (.env (h.object ▸ henv)), rfl, h.history, fun q => hreqs ▸ h.calls q⟩

/-- A request arrives. -/
theorem Shows.call (h : Shows p (s, history) l) (hnone : l.calls q = none)
    (hobject : p.object t = p.object s)
    (hreqs : p.requests t = update (p.requests s) q (some (op, stage)))
    (hstands : p.StandsAs (some (op, stage)) (some (.called op))) :
    ∃ l', AtomicRun obj l l' ∧ Shows p (t, history ++ [.call q op]) l' := by
  refine ⟨_, .single (.call hnone), h.advance (h.object.trans hobject.symm) ?_ rfl hreqs hstands⟩
  rw [List.map_append, h.history]
  rfl

/-- The call takes effect in this step, and is not answered yet. -/
theorem Shows.execute (h : Shows p (s, history) l) (hcall : l.calls q = some (.called op))
    (hexec : obj.exec (p.object s) op ret (p.object t))
    (hreqs : p.requests t = update (p.requests s) q (some (op, stage)))
    (hstands : p.StandsAs (some (op, stage)) (some (.executed op ret))) :
    ∃ l', AtomicRun obj l l' ∧ Shows p (t, history) l' :=
  ⟨_, .single (.execute hcall (h.object ▸ hexec)), h.advance rfl h.history rfl hreqs hstands⟩

/-- The call comes to its end with this answer. -/
theorem Shows.finish (h : Shows p (s, history) l) (hstep : AtomicStep obj l (l.finish q op ret))
    (hobject : p.object t = p.object s)
    (hreqs : p.requests t = update (p.requests s) q (some (op, stage)))
    (hstands : p.StandsAs (some (op, stage)) (some (.returned op ret))) :
    ∃ l', AtomicRun obj l l' ∧ Shows p (t, history ++ [.ret q (p.tell ret)]) l' := by
  refine ⟨_, .single hstep, h.advance (h.object.trans hobject.symm) ?_ rfl hreqs hstands⟩
  rw [Atomic.finish, List.map_append, h.history]
  rfl

/-- The call takes effect in this step, and is answered. -/
theorem Shows.answer (h : Shows p (s, history) l) (hcall : l.calls q = some (.called op))
    (hexec : obj.exec (p.object s) op ret (p.object t))
    (hreqs : p.requests t = update (p.requests s) q (some (op, stage)))
    (hstands : p.StandsAs (some (op, stage)) (some (.returned op ret))) :
    ∃ l', AtomicRun obj l l' ∧ Shows p (t, history ++ [.ret q (p.tell ret)]) l' := by
  let mid : Atomic X Op Ret Q :=
    { l.put q (.executed op ret) with object := p.object t, order := l.order ++ [q] }
  have hexecute : AtomicStep obj l mid := .execute hcall (h.object ▸ hexec)
  have hreturn : AtomicStep obj mid (mid.finish q op ret) := .ret (update_self _ _ _)
  refine ⟨_, (ReflTransGen.single hexecute).tail hreturn, ?_⟩
  refine h.advance rfl ?_ (update_idem _ _ _) hreqs hstands
  rw [Atomic.finish, List.map_append]
  exact congrArg (· ++ _) h.history

/-- A run goes on in the atomic system as it goes on among the requests. -/
theorem Shows.run {acts : List A} {seen : S → A → S → List (Event Q Op R)}
    {s t : S × List (Event Q Op R)} (h : Shows p s l) (ok : S → A → Prop)
    (hrun : Steps (recording m seen) (fun u a => ok u.1 a) s acts t) (I : S → Prop) (hI : I s.1)
    (hkeep : ∀ s a t, I s → ok s a → m.step s a = some t → I t)
    (hmatch : ∀ s a t history l, I s → Shows p (s, history) l → ok s a → m.step s a = some t →
      ∃ l', AtomicRun obj l l' ∧ Shows p (t, history ++ seen s a t) l') :
    ∃ l', AtomicRun obj l l' ∧ Shows p t l' := by
  refine refine_star (Shows p) hrun h (fun u => I u.1) hI
    (fun u a v hu hok hstep => hkeep u.1 a v.1 hu hok (recording_step hstep).1) ?_
  intro u a v k hu hk hok hstep
  obtain ⟨hinner, hseen⟩ := recording_step hstep
  obtain ⟨k', hmore, hk'⟩ := hmatch u.1 a v.1 u.2 k hu hk hok hinner
  exact ⟨k', hmore, by rwa [← hseen] at hk'⟩

end Rules

end Linearization
