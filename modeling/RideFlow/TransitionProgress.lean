import RideFlow.Library.Workers
import RideFlow.MatchingBranch

/-!
# Every transition has a next step

How many steps a `transition_ride` request has still to take (`Stage.cost`), that
a step of its own takes one off (`ride_movesOn`), and that it has a step to take,
unless it waits for the lock of its ride (`ride_moves`).  Who holds such a lock is
past the UPDATE, where a request may have to wait (`step_locksHeld`).

A request that is about to search for a driver has its next step with Redis, so
that it is left out here.
-/

namespace RideFlow

open Function Workers

/-- The most steps that are left up to the COMMIT; a search finds ten candidates. -/
def Todo.cost : Todo → Nat
  | .search => 14
  | .reserve candidates => candidates.length + 3
  | .resolve _ => 2
  | .getKey => 3
  | .deleteKey => 2
  | .commit => 1

/-- The steps that are left to a request. -/
def Stage.cost : Stage → Nat
  | .loading => 16
  | .updating _ => 15
  | .holding _ _ todo => todo.cost
  | .answered _ => 0

section Steps

/-- The steps that a transition has still to take. -/
def RideState.left (s : RideState) : ReqId → Nat := leftIn 17 (fun c => c.2.cost) s.requests

variable {cfg : Settings} {s t : RideState} {a : RideAction} {q : ReqId} {call : TransitionCall}
  {stage : Stage}

theorem afterUpdate_cost (payload : RideTransitionRequest) (checked refreshed : Ride) :
    (afterUpdate payload checked refreshed).cost < 15 := by
  unfold afterUpdate
  split
  · decide
  · split
    · decide
    · decide

theorem Stage.cost_pos (hopen : ∀ outcome, stage ≠ .answered outcome) : 0 < stage.cost := by
  cases stage with
  | answered outcome => exact absurd rfl (hopen outcome)
  | holding ride pending todo => cases todo <;> simp [Stage.cost, Todo.cost]
  | _ => simp [Stage.cost]

/-- A step of a request takes one off, or more. -/
theorem ride_movesOn (hstep : rideStep cfg s a = some t)
    (hshort : ∀ q candidates, a = .search q candidates → candidates.length ≤ 10) :
    MovesOn 17 (fun c => c.2.cost) s.requests t.requests a.request := by
  cases a with
  | create _ _ _ _ _ =>
      obtain ⟨_, _, rfl⟩ := step_create hstep
      exact .idle
  | begin p _ _ _ =>
      obtain ⟨hnone, rfl⟩ := step_begin hstep
      exact begins hnone (by simp [Stage.cost])
  | read p =>
      obtain ⟨call, hreq, ⟨_, rfl⟩ | ⟨_, _, _, rfl⟩⟩ := step_read hstep
      · exact moves_on hreq (by simp [Stage.cost])
      · exact moves_on hreq (by simp [Stage.cost])
  | update p =>
      obtain ⟨call, ride, hreq, ⟨_, _, rfl⟩ | ⟨done, _, _, rfl⟩⟩ := step_update hstep
      · exact moves_on hreq (by simp [Stage.cost])
      · exact moves_on hreq (afterUpdate_cost call.payload ride done.written)
  | search p candidates =>
      obtain ⟨call, ride, pending, hreq, rfl⟩ := step_search hstep
      have hlength := hshort p candidates rfl
      exact moves_on hreq (by simp only [Stage.cost, Todo.cost]; omega)
  | reserve p =>
      obtain ⟨call, ride, pending, candidates, hreq, hcases⟩ := step_reserve hstep
      rcases hcases with ⟨_, rfl⟩ | ⟨d, rest, rfl, _, rfl⟩ | ⟨d, rest, rfl, _, rfl⟩
      · exact moves_on hreq (by simp only [Stage.cost, Todo.cost]; omega)
      · exact moves_on hreq (by simp [Stage.cost, Todo.cost])
      · exact moves_on hreq (by simp only [Stage.cost, Todo.cost]; omega)
  | resolve p =>
      obtain ⟨call, ride, pending, driverId, hreq, ⟨_, _, rfl⟩ | ⟨done, _, rfl⟩⟩ :=
        step_resolve hstep
      · exact moves_on hreq (by simp [Stage.cost, Todo.cost])
      · exact moves_on hreq (by simp [Stage.cost, Todo.cost])
  | getKey p =>
      obtain ⟨call, ride, pending, d, hreq, _, ⟨_, rfl⟩ | ⟨_, rfl⟩⟩ := step_getKey hstep
      · exact moves_on hreq (by simp [Stage.cost, Todo.cost])
      · exact moves_on hreq (by simp [Stage.cost, Todo.cost])
  | deleteKey p =>
      obtain ⟨call, ride, pending, d, hreq, _, rfl⟩ := step_deleteKey hstep
      exact moves_on hreq (by simp [Stage.cost, Todo.cost])
  | commit p =>
      obtain ⟨call, ride, pending, hreq, rfl⟩ := step_commit hstep
      exact moves_on hreq (by simp [Stage.cost, Todo.cost])
  | abort p =>
      obtain ⟨call, stage, hreq, hopen, rfl⟩ := step_abort hstep
      exact moves_on hreq (Stage.cost_pos hopen)
  | expire _ =>
      obtain ⟨_, _, _, rfl⟩ := step_expire hstep
      exact .idle
  | advance _ =>
      obtain rfl := step_advance hstep
      exact .idle

/-- A step of the handler other than its search. -/
def RideAction.plain : RideAction → Bool
  | .read _ => true
  | .update _ => true
  | .reserve _ => true
  | .resolve _ => true
  | .getKey _ => true
  | .deleteKey _ => true
  | .commit _ => true
  | _ => false

/-- The request has a step to take. -/
def RideState.Moves (cfg : Settings) (s : RideState) (q : ReqId) : Prop :=
  ∃ a : RideAction, a.request = some q ∧ a.plain = true ∧ (rideStep cfg s a).isSome = true

/-- A request that holds its row has a step to take, or searches. -/
theorem holding_moves (hfit : BranchesFit s) {ride : Ride} {pending : List Applied} {todo : Todo}
    (hreq : s.requests q = some (call, .holding ride pending todo)) (hsearch : todo ≠ .search) :
    s.Moves cfg q := by
  have hfits := hfit q call ride pending todo hreq
  cases todo with
  | search => exact absurd rfl hsearch
  | reserve candidates =>
      refine ⟨.reserve q, rfl, rfl, ?_⟩
      cases candidates with
      | nil => simp [rideStep, hreq]
      | cons d rest =>
          rcases hkeys : tryReserveDriver cfg s.reservations d ride.id s.clock with
            ⟨_ | _, keys⟩
          · simp [rideStep, hreq, hkeys]
          · simp [rideStep, hreq, hkeys]
  | resolve driverId =>
      obtain ⟨done, hdone⟩ := second_succeeds (q := q) hfits driverId call.startedAt s.effects
      refine ⟨.resolve q, rfl, rfl, ?_⟩
      cases driverId with
      | none =>
          simp only [resolution] at hdone
          simp [rideStep, hreq, hdone]
      | some d =>
          simp only [resolution] at hdone
          simp [rideStep, hreq, hdone]
  | getKey =>
      obtain ⟨d, hd⟩ := Option.isSome_iff_exists.mp hfits.2
      refine ⟨.getKey q, rfl, rfl, ?_⟩
      cases hkey : holdsReservation s.reservations d ride.id with
      | true => simp [rideStep, hreq, hd, hkey]
      | false => simp [rideStep, hreq, hd, hkey]
  | deleteKey =>
      obtain ⟨d, hd⟩ := Option.isSome_iff_exists.mp hfits.2
      exact ⟨.deleteKey q, rfl, rfl, by simp [rideStep, hreq, hd]⟩
  | commit => exact ⟨.commit q, rfl, rfl, by simp [rideStep, hreq]⟩

/-- **A transition moves, or searches, or waits for the lock of its ride.** -/
theorem ride_moves (hfit : BranchesFit s) (hreq : s.requests q = some (call, stage))
    (hopen : ∀ outcome, stage ≠ .answered outcome) :
    s.Moves cfg q ∨ (∃ ride pending, stage = .holding ride pending .search) ∨
      ∃ r p, s.locks r = some p := by
  cases stage with
  | answered outcome => exact absurd rfl (hopen outcome)
  | loading =>
      refine Or.inl ⟨.read q, rfl, rfl, ?_⟩
      cases hride : s.rides call.rideId with
      | none => simp [rideStep, hreq, hride]
      | some ride =>
          by_cases hauth : authorized call.user ride call.payload.targetStatus
          · simp [rideStep, hreq, hride, hauth]
          · simp [rideStep, hreq, hride, hauth]
  | updating ride =>
      cases hlock : s.locks ride.id with
      | some p => exact Or.inr (Or.inr ⟨ride.id, p, hlock⟩)
      | none =>
          refine Or.inl ⟨.update q, rfl, rfl, ?_⟩
          cases hattempt : attemptTransition q s.effects (s.rides ride.id) ride
              call.payload.targetStatus call.payload.expectedVersion none call.startedAt with
          | error e => simp [rideStep, hreq, hattempt]
          | ok done => simp [rideStep, hreq, hattempt, hlock]
  | holding ride pending todo =>
      by_cases hsearch : todo = .search
      · exact Or.inr (Or.inl ⟨ride, pending, hsearch ▸ rfl⟩)
      · exact Or.inl (holding_moves hfit hreq hsearch)

/-- The request has updated its row and not ended. -/
def Stage.holds : Stage → Bool
  | .holding _ _ _ => true
  | _ => false

/-- Row locks are held by requests that have updated their row. -/
def LocksHeld (s : RideState) : Prop := HeldBy s.locks s.requests fun c => c.2.holds

/-- **Who holds the lock of a ride is at work on it.** -/
theorem step_locksHeld (h : LocksHeld s) (hstep : rideStep cfg s a = some t) : LocksHeld t := by
  cases a with
  | create _ _ _ _ _ =>
      obtain ⟨_, _, rfl⟩ := step_create hstep
      exact h
  | begin q _ _ _ =>
      obtain ⟨hnone, rfl⟩ := step_begin hstep
      exact HeldBy.stay h fun hbusy => absurd hbusy (not_busy_none hnone)
  | read q =>
      obtain ⟨call, hreq, ⟨_, rfl⟩ | ⟨_, _, _, rfl⟩⟩ := step_read hstep
      · exact HeldBy.release h _
      · exact HeldBy.stay h fun hbusy => absurd hbusy (not_busy hreq rfl)
  | update q =>
      obtain ⟨call, ride, hreq, ⟨_, _, rfl⟩ | ⟨done, _, _, rfl⟩⟩ := step_update hstep
      · exact HeldBy.release h _
      · exact HeldBy.take h rfl
  | search q candidates =>
      obtain ⟨call, ride, pending, hreq, rfl⟩ := step_search hstep
      exact HeldBy.stay h fun _ => rfl
  | reserve q =>
      obtain ⟨call, ride, pending, candidates, hreq, hcases⟩ := step_reserve hstep
      rcases hcases with ⟨_, rfl⟩ | ⟨_, _, _, _, rfl⟩ | ⟨_, _, _, _, rfl⟩
      · exact HeldBy.stay h fun _ => rfl
      · exact HeldBy.stay h fun _ => rfl
      · exact HeldBy.stay h fun _ => rfl
  | resolve q =>
      obtain ⟨call, ride, pending, driverId, hreq, ⟨_, _, rfl⟩ | ⟨done, _, rfl⟩⟩ :=
        step_resolve hstep
      · exact HeldBy.release h _
      · exact HeldBy.take h rfl
  | getKey q =>
      obtain ⟨_, _, _, _, _, _, ⟨_, rfl⟩ | ⟨_, rfl⟩⟩ := step_getKey hstep
      · exact HeldBy.stay h fun _ => rfl
      · exact HeldBy.stay h fun _ => rfl
  | deleteKey q =>
      obtain ⟨_, _, _, _, _, _, rfl⟩ := step_deleteKey hstep
      exact HeldBy.stay h fun _ => rfl
  | commit q =>
      obtain ⟨call, ride, pending, hreq, rfl⟩ := step_commit hstep
      exact HeldBy.release h _
  | abort q =>
      obtain ⟨_, _, _, _, rfl⟩ := step_abort hstep
      exact HeldBy.release h _
  | expire _ =>
      obtain ⟨_, _, _, rfl⟩ := step_expire hstep
      exact h
  | advance _ =>
      obtain rfl := step_advance hstep
      exact h

end Steps

end RideFlow
