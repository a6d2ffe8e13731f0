import RideFlow.RideRequests

/-!
# The branches of a ride request

After its first `apply_transition` a request is on one of three ways: it
searches for a driver, and then its own uncommitted row is in MATCHING; it
releases the driver of a ride that it has just cancelled; or it returns.
`BranchesFit` says so of every request in every run.

The second `apply_transition` of the matching way works on that row and at its
version, and no other transaction can write the row before the end of this
one.  So it never raises (`second_never_raises`): a request that has reserved a
driver is not rejected.
-/

namespace RideFlow

open Function Runs

/-- What a request that has something to do holds. -/
def Todo.Fits (ride : Ride) : Todo → Prop
  | .search => ride.status = .matching
  | .reserve _ => ride.status = .matching
  | .resolve _ => ride.status = .matching
  | .getKey => ride.status = .cancelled ∧ ride.driverId.isSome
  | .deleteKey => ride.status = .cancelled ∧ ride.driverId.isSome
  | .commit => True

/-- Every request does what its row is for. -/
def BranchesFit (s : RideState) : Prop :=
  ∀ q call ride pending todo, s.requests q = some (call, .holding ride pending todo) →
    todo.Fits ride

section Steps

variable {cfg : Settings} {s t : RideState} {a : RideAction} {q : ReqId}

/-- The branch that is taken after an update fits the row that it wrote. -/
theorem afterUpdate_fits {payload : RideTransitionRequest} {checked refreshed : Ride}
    (h : refreshed.status = payload.targetStatus) :
    (afterUpdate payload checked refreshed).Fits refreshed := by
  unfold afterUpdate
  split
  case isTrue hmatching =>
      have htarget := (of_decide_eq_true hmatching).1
      exact h.trans htarget
  case isFalse =>
      split
      case isTrue hcancelled => exact ⟨h.trans hcancelled.1, hcancelled.2⟩
      case isFalse => trivial

/-- One request moves, and what is known of the others stays. -/
theorem holding_moved {P : ReqId → TransitionCall → Ride → List Applied → Todo → Prop}
    {call : TransitionCall} {stage : Stage}
    (hothers : ∀ p call ride pending todo,
      s.requests p = some (call, .holding ride pending todo) → P p call ride pending todo)
    (hreqs : t.requests = update s.requests q (some (call, stage)))
    (hmine : ∀ ride pending todo, stage = .holding ride pending todo →
      P q call ride pending todo) :
    ∀ p call ride pending todo, t.requests p = some (call, .holding ride pending todo) →
      P p call ride pending todo := by
  intro p call' ride pending todo hp
  rw [hreqs, Tables.update_some_iff] at hp
  rcases hp with ⟨rfl, hhere⟩ | ⟨_, hthere⟩
  · cases hhere
    exact hmine ride pending todo rfl
  · exact hothers p call' ride pending todo hthere

/-- A request moves to a stage whose work fits its ride. -/
theorem BranchesFit.move {call : TransitionCall} {stage : Stage} (h : BranchesFit s)
    (hreqs : t.requests = update s.requests q (some (call, stage)))
    (hfits : ∀ ride pending todo, stage = .holding ride pending todo → todo.Fits ride) :
    BranchesFit t :=
  holding_moved h hreqs hfits

/-- A step keeps the work fit. -/
theorem step_branchesFit (h : BranchesFit s) (hstep : rideStep cfg s a = some t) :
    BranchesFit t := by
  cases a with
  | create id user payload fare key =>
      obtain ⟨_, _, rfl⟩ := step_create hstep
      exact h
  | begin q user rideId payload =>
      obtain ⟨_, rfl⟩ := step_begin hstep
      exact h.move rfl fun _ _ _ hstage => by cases hstage
  | read q =>
      obtain ⟨call, _, ⟨e, rfl⟩ | ⟨ride, _, _, rfl⟩⟩ := step_read hstep
      · exact h.move rfl fun _ _ _ hstage => by cases hstage
      · exact h.move rfl fun _ _ _ hstage => by cases hstage
  | update q =>
      obtain ⟨call, ride, _, ⟨e, _, rfl⟩ | ⟨done, hdone, _, rfl⟩⟩ := step_update hstep
      · exact h.move rfl fun _ _ _ hstage => by cases hstage
      · obtain ⟨_, _, _, _, htarget, _⟩ := attemptTransition_ok hdone
        have hstatus : done.written.status = call.payload.targetStatus := by
          rw [done.spec.2.2.1, Ride.set_status, htarget]
        refine h.move rfl ?_
        intro ride' pending todo hstage
        cases hstage
        exact afterUpdate_fits hstatus
  | search q candidates =>
      obtain ⟨call, ride, pending, hreq, rfl⟩ := step_search hstep
      have hfits : ride.status = .matching := h _ _ _ _ _ hreq
      refine h.move rfl fun _ _ _ hstage => ?_
      cases hstage
      exact hfits
  | reserve q =>
      obtain ⟨call, ride, pending, candidates, hreq, hcases⟩ := step_reserve hstep
      have hfits : ride.status = .matching := h _ _ _ _ _ hreq
      rcases hcases with ⟨_, rfl⟩ | ⟨d, rest, _, _, rfl⟩ | ⟨d, rest, _, _, rfl⟩
      all_goals
        refine h.move rfl fun _ _ _ hstage => ?_
        cases hstage
        exact hfits
  | resolve q =>
      obtain ⟨call, ride, pending, driverId, _, ⟨e, _, rfl⟩ | ⟨done, _, rfl⟩⟩ :=
        step_resolve hstep
      · exact h.move rfl fun _ _ _ hstage => by cases hstage
      · refine h.move rfl fun _ _ _ hstage => ?_
        cases hstage
        trivial
  | getKey q =>
      obtain ⟨call, ride, pending, d, hreq, _, ⟨_, rfl⟩ | ⟨_, rfl⟩⟩ := step_getKey hstep
      · have hfits : ride.status = .cancelled ∧ ride.driverId.isSome := h _ _ _ _ _ hreq
        refine h.move rfl fun _ _ _ hstage => ?_
        cases hstage
        exact hfits
      · refine h.move rfl fun _ _ _ hstage => ?_
        cases hstage
        trivial
  | deleteKey q =>
      obtain ⟨call, ride, pending, d, _, _, rfl⟩ := step_deleteKey hstep
      refine h.move rfl fun _ _ _ hstage => ?_
      cases hstage
      trivial
  | commit q =>
      obtain ⟨call, ride, pending, _, rfl⟩ := step_commit hstep
      exact h.move rfl fun _ _ _ hstage => by cases hstage
  | abort q =>
      obtain ⟨call, stage, _, _, rfl⟩ := step_abort hstep
      exact h.move rfl fun _ _ _ hstage => by cases hstage
  | expire d =>
      obtain ⟨key, _, _, rfl⟩ := step_expire hstep
      exact h
  | advance seconds =>
      obtain rfl := step_advance hstep
      exact h

/-- **The second transition never raises.**  It asks for ACCEPTED or
NO_DRIVERS_FOUND on the request's own row, which is in MATCHING and at the
version asked for. -/
theorem second_never_raises {ride : Ride} (hmatching : ride.status = .matching)
    (driverId : Option UserId) (startedAt : Timestamp) (n : Nat) (e : TransitionError) :
    applyTransition (some ride) ride (resolution driverId).1 ride.version (resolution driverId).2
      startedAt n ≠ .error e := by
  intro herror
  have hlegal : (resolution driverId).1 ∈ rideTransitions ride.status := by
    rw [hmatching]
    cases driverId with
    | none => exact List.mem_cons_of_mem _ List.mem_cons_self
    | some d => exact List.mem_cons_self
  rcases applyTransition_error herror with ⟨hillegal, _⟩ | ⟨_, _, hmiss⟩
  · exact absurd hlegal hillegal
  · exact absurd rfl (hmiss ride rfl)

/-- On a ride in MATCHING at its own version the second call succeeds. -/
theorem second_succeeds {ride : Ride} (hmatching : ride.status = .matching)
    (driverId : Option UserId) (startedAt : Timestamp) (n : Nat) :
    ∃ done, attemptTransition q n (some ride) ride (resolution driverId).1 ride.version
      (resolution driverId).2 startedAt = .ok done := by
  cases hattempt : attemptTransition q n (some ride) ride (resolution driverId).1 ride.version
      (resolution driverId).2 startedAt with
  | ok done => exact ⟨done, rfl⟩
  | error e =>
      exact absurd (attemptTransition_error hattempt)
        (second_never_raises hmatching driverId startedAt n e)

/-- A request that resolves its search holds a row that it has updated twice. -/
theorem resolve_succeeds (h : BranchesFit s) (hstep : rideStep cfg s (.resolve q) = some t) :
    ∃ call ride pending driverId done,
      s.requests q = some (call, .holding ride pending (.resolve driverId)) ∧
      attemptTransition q s.effects (some ride) ride (resolution driverId).1 ride.version
        (resolution driverId).2 call.startedAt = .ok done ∧
      t = s.hold q call done pending .commit := by
  obtain ⟨call, ride, pending, driverId, hreq, ⟨e, herror, _⟩ | ⟨done, hdone, rfl⟩⟩ :=
    step_resolve hstep
  · have hmatching : ride.status = .matching := h _ _ _ _ _ hreq
    exact absurd herror (second_never_raises hmatching driverId _ _ e)
  · exact ⟨call, ride, pending, driverId, done, hreq, hdone, rfl⟩

end Steps

end RideFlow
