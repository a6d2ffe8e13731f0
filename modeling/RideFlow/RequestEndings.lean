import RideFlow.AcceptedCoordinates
import RideFlow.RequestProgress
import RideFlow.TransitionProgress

/-!
# How drivers' requests and transitions end

A request is answered 200, rejected with an HTTP error, or fails on an error that
nobody has caught.  For a driver's request and for a `transition_ride` request this
file says which steps end them in which way.

* `driver_failed_iff` -- a driver's request fails only when its process is stopped,
  when it INSERTs a profile that another first request of the driver has committed
  since its SELECT, or when Redis raises; `DriverState.Crashes` lists the three;
* `ride_failed_iff` -- a transition fails only when it is stopped;
* `handle_error`, `ride_ends` -- who is rejected, is rejected with a client error;
* `step_driver_safe`, `step_ride_safe` -- a request that is past its geo command, or
  about to send one that Redis takes, stays so until it is answered 200 or stopped.
-/

namespace RideFlow

open Function Tables Workers

/-- How a request has ended: answered 200, rejected with an HTTP error, or failed
on an error that nobody has caught. -/
inductive Ending
  | ok
  | rejected (error : Rejection)
  | failed
  deriving DecidableEq

/-- The ending that a stage of a driver's request stands for. -/
def DriverStage.ending : DriverStage → Option Ending
  | .answered (.ok _) => some .ok
  | .answered (.rejected error) => some (.rejected error)
  | .answered .failed => some .failed
  | _ => none

/-- The ending that a stage of a transition stands for. -/
def Stage.ending : Stage → Option Ending
  | .answered (.ok _) => some .ok
  | .answered (.rejected error) => some (.rejected error)
  | .answered .failed => some .failed
  | _ => none

/-- How a driver's request has ended, if it has. -/
def DriverState.ending (s : DriverState) (q : DriverReqId) : Option Ending :=
  (s.requests q).bind fun c => c.2.ending

/-- How a transition has ended, if it has. -/
def RideState.ending (s : RideState) (q : ReqId) : Option Ending :=
  (s.requests q).bind fun c => c.2.ending

/-! ### The drivers' requests -/

/-- The steps that end a driver's request in an error that nobody catches: its
process is stopped, the profile that it INSERTs is there by now, or Redis raises. -/
inductive DriverState.Crashes (s : DriverState) (q : DriverReqId) : DriverAction → Prop
  | aborted : Crashes s q (.abort q)
  | inserted {call : DriverCall} {row : DriverProfile}
      (hreq : s.requests q = some (call, .creating))
      (hrow : s.store.profiles call.user.id = some row) : Crashes s q (.insert q)
  | refused {call : DriverCall} {loaded changed : DriverProfile} {fresh : Bool}
      {command : GeoCommand}
      (hreq : s.requests q = some (call, .sending loaded changed fresh command))
      (hrefused : command.run s.store.pool call.user.id = none) : Crashes s q (.redis q)

section Drivers

variable {cfg : Settings} {s t : DriverState} {a : DriverAction} {q : DriverReqId}
  {call : DriverCall} {stage : DriverStage}

/-- A request ends as its stage says. -/
theorem driver_ending_of (hreq : s.requests q = some (call, stage)) :
    s.ending q = stage.ending := by
  simp [DriverState.ending, hreq]

/-- A request ends as the stage says that it is put into. -/
theorem driver_ending_put {requests : DriverReqId → Option (DriverCall × DriverStage)}
    {ending : Option Ending} (hreqs : t.requests = update requests q (some (call, stage)))
    (hstage : stage.ending = ending) : t.ending q = ending := by
  rw [← hstage]
  exact driver_ending_of (hreqs ▸ update_self ..)

/-- A step that does not serve a request leaves it alone. -/
theorem driver_unserved (hstep : driverStep cfg s a = some t) (hserves : a.request ≠ some q) :
    t.requests q = s.requests q :=
  (driver_movesOn hstep).same q hserves

/-- How a driver's request can end in a step of its own. -/
theorem driver_ends (hbooks : DriverBooks s) (hserves : a.request = some q)
    (hstep : driverStep cfg s a = some t) :
    t.ending q = none ∨ t.ending q = some .ok ∨ t.ending q = some (.rejected needsHeartbeat) ∨
      (t.ending q = some .failed ∧ s.Crashes q a) := by
  cases a with
  | begin p user request =>
      obtain rfl := Option.some.inj hserves
      obtain ⟨_, _, rfl⟩ := driver_begin hstep
      exact Or.inl (driver_ending_put rfl rfl)
  | read p =>
      obtain rfl := Option.some.inj hserves
      obtain ⟨call, hreq, ⟨profile, _, rfl⟩ | ⟨_, rfl⟩⟩ := driver_read hstep
      · exact Or.inl (driver_ending_put rfl rfl)
      · exact Or.inl (driver_ending_put rfl rfl)
  | insert p =>
      obtain rfl := Option.some.inj hserves
      obtain ⟨call, hreq, _⟩ := driver_insert hstep
      cases hrow : s.store.profiles call.user.id with
      | some row =>
          simp only [driverStep, hreq, hrow, Option.some.injEq] at hstep
          subst hstep
          exact Or.inr (Or.inr (Or.inr ⟨driver_ending_put rfl rfl, .inserted hreq hrow⟩))
      | none =>
          simp only [driverStep, hreq, hrow] at hstep
          obtain ⟨_, hcreated⟩ := Option.ite_none_right_eq_some.mp hstep
          obtain rfl := Option.some.inj hcreated
          exact Or.inl (driver_ending_put rfl rfl)
  | handle p =>
      obtain rfl := Option.some.inj hserves
      obtain ⟨call, profile, fresh, _, ⟨e, herror, rfl⟩ | ⟨changed, command, _, rfl⟩ |
        ⟨changed, _, rfl⟩⟩ := driver_handle hstep
      · rw [handle_error herror]
        exact Or.inr (Or.inr (Or.inl (driver_ending_put rfl rfl)))
      · exact Or.inl (driver_ending_put rfl rfl)
      · exact Or.inl (driver_ending_put rfl rfl)
  | redis p =>
      obtain rfl := Option.some.inj hserves
      obtain ⟨call, loaded, changed, fresh, command, hreq, _⟩ := driver_redis hstep
      cases hrun : command.run s.store.pool call.user.id with
      | some pool =>
          simp only [driverStep, hreq, hrun, Option.some.injEq] at hstep
          subst hstep
          exact Or.inl (driver_ending_put rfl rfl)
      | none =>
          simp only [driverStep, hreq, hrun, Option.some.injEq] at hstep
          subst hstep
          exact Or.inr (Or.inr (Or.inr ⟨driver_ending_put rfl rfl, .refused hreq hrun⟩))
  | commit p =>
      obtain rfl := Option.some.inj hserves
      obtain ⟨call, loaded, changed, fresh, hreq, ⟨_, rfl⟩ | ⟨_, row, _, rfl⟩ |
        ⟨rfl, hnone, _⟩⟩ := driver_commit hstep
      · exact Or.inr (Or.inl (driver_ending_put rfl rfl))
      · exact Or.inr (Or.inl (driver_ending_put rfl rfl))
      · -- the row that was loaded is still there
        obtain ⟨hholds, _⟩ := hbooks.fine hreq
        exact absurd hnone hholds
  | abort p =>
      obtain rfl := Option.some.inj hserves
      obtain ⟨call, stage, _, _, rfl⟩ := driver_abort hstep
      exact Or.inr (Or.inr (Or.inr ⟨driver_ending_put rfl rfl, .aborted⟩))
  | _ => cases hserves

/-- The request that crashes is the one that is served. -/
theorem DriverState.Crashes.served (h : s.Crashes q a) : a.request = some q := by
  cases h <;> rfl

/-- A step that crashes fails the request. -/
theorem DriverState.Crashes.fails (h : s.Crashes q a) (hstep : driverStep cfg s a = some t) :
    t.ending q = some .failed := by
  cases h with
  | aborted =>
      obtain ⟨_, _, _, _, rfl⟩ := driver_abort hstep
      exact driver_ending_put rfl rfl
  | inserted hreq hrow =>
      simp only [driverStep, hreq, hrow, Option.some.injEq] at hstep
      subst hstep
      exact driver_ending_put rfl rfl
  | refused hreq hrefused =>
      simp only [driverStep, hreq, hrefused, Option.some.injEq] at hstep
      subst hstep
      exact driver_ending_put rfl rfl

/-- A request that has ended takes no step. -/
theorem driver_ended_unserved (hended : s.ending q ≠ none)
    (hstep : driverStep cfg s a = some t) : a.request ≠ some q := by
  intro hserves
  have hless := (driver_movesOn hstep).falls q hserves
  cases hreq : s.requests q with
  | none => simp [DriverState.ending, hreq] at hended
  | some c =>
      obtain ⟨call, stage⟩ := c
      rw [driver_ending_of hreq] at hended
      cases stage with
      | answered outcome => simp [leftIn, hreq, DriverStage.cost] at hless
      | _ => exact hended rfl

/-- **A driver's request fails only by crashing.** -/
theorem driver_failed_iff (hbooks : DriverBooks s) (hstep : driverStep cfg s a = some t) :
    t.ending q = some .failed ↔ s.ending q = some .failed ∨ s.Crashes q a := by
  by_cases hserves : a.request = some q
  · constructor
    · intro hfailed
      rcases driver_ends hbooks hserves hstep with hnone | hok | hrejected | ⟨_, hcrash⟩
      · cases hnone.symm.trans hfailed
      · cases hok.symm.trans hfailed
      · cases hrejected.symm.trans hfailed
      · exact Or.inr hcrash
    · rintro (hfailed | hcrash)
      · exact absurd hserves (driver_ended_unserved (by simp [hfailed]) hstep)
      · exact hcrash.fails hstep
  · have hsame : t.ending q = s.ending q := by
      rw [DriverState.ending, DriverState.ending, driver_unserved hstep hserves]
    rw [hsame]
    exact ⟨Or.inl, fun h => h.elim id fun hcrash => absurd hcrash.served hserves⟩

/-- A request that is about to send its command can only send it, or be stopped. -/
theorem sending_steps {loaded changed : DriverProfile} {fresh : Bool} {command : GeoCommand}
    (hreq : s.requests q = some (call, .sending loaded changed fresh command))
    (hserves : a.request = some q) (hstep : driverStep cfg s a = some t) :
    a = .redis q ∨ a = .abort q := by
  cases a with
  | begin p user request =>
      obtain rfl := Option.some.inj hserves
      cases (driver_begin hstep).1.symm.trans hreq
  | read p =>
      obtain rfl := Option.some.inj hserves
      obtain ⟨_, hreq', _⟩ := driver_read hstep
      cases hreq.symm.trans hreq'
  | insert p =>
      obtain rfl := Option.some.inj hserves
      obtain ⟨_, hreq', _⟩ := driver_insert hstep
      cases hreq.symm.trans hreq'
  | handle p =>
      obtain rfl := Option.some.inj hserves
      obtain ⟨_, _, _, hreq', _⟩ := driver_handle hstep
      cases hreq.symm.trans hreq'
  | redis p => exact Or.inl (congrArg DriverAction.redis (Option.some.inj hserves))
  | commit p =>
      obtain rfl := Option.some.inj hserves
      obtain ⟨_, _, _, _, hreq', _⟩ := driver_commit hstep
      cases hreq.symm.trans hreq'
  | abort p => exact Or.inr (congrArg DriverAction.abort (Option.some.inj hserves))
  | _ => cases hserves

/-- Past its command, or about to send one that Redis takes. -/
def DriverStage.Safe (call : DriverCall) : DriverStage → Prop
  | .sending _ _ _ command => ∀ pool, (command.run pool call.user.id).isSome
  | .committing _ _ _ => True
  | .answered (.ok _) => True
  | _ => False

/-- The request is safe: it can only be answered 200, or be stopped. -/
def DriverState.Safe (s : DriverState) (q : DriverReqId) : Prop :=
  ∃ call stage, s.requests q = some (call, stage) ∧ stage.Safe call

/-- A safe request stays safe until it is stopped. -/
theorem step_driver_safe (hbooks : DriverBooks s) (h : s.Safe q) (hgoes : a ≠ .abort q)
    (hstep : driverStep cfg s a = some t) : t.Safe q := by
  obtain ⟨call, stage, hreq, hsafe⟩ := h
  by_cases hserves : a.request = some q
  · cases a with
    | begin p user request =>
        obtain rfl := Option.some.inj hserves
        obtain ⟨hnone, _⟩ := driver_begin hstep
        cases hnone.symm.trans hreq
    | read p =>
        obtain rfl := Option.some.inj hserves
        obtain ⟨_, hreq', _⟩ := driver_read hstep
        cases hreq.symm.trans hreq'
        exact absurd hsafe id
    | insert p =>
        obtain rfl := Option.some.inj hserves
        obtain ⟨_, hreq', _⟩ := driver_insert hstep
        cases hreq.symm.trans hreq'
        exact absurd hsafe id
    | handle p =>
        obtain rfl := Option.some.inj hserves
        obtain ⟨_, _, _, hreq', _⟩ := driver_handle hstep
        cases hreq.symm.trans hreq'
        exact absurd hsafe id
    | redis p =>
        obtain rfl := Option.some.inj hserves
        obtain ⟨_, loaded, changed, fresh, command, hreq', _⟩ := driver_redis hstep
        cases hreq.symm.trans hreq'
        obtain ⟨pool, hrun⟩ := Option.isSome_iff_exists.mp (hsafe s.store.pool)
        simp only [driverStep, hreq, hrun, Option.some.injEq] at hstep
        subst hstep
        exact ⟨call, .committing loaded changed fresh, update_self .., trivial⟩
    | commit p =>
        obtain rfl := Option.some.inj hserves
        obtain ⟨_, loaded, changed, fresh, hreq', ⟨_, rfl⟩ | ⟨_, row, _, rfl⟩ |
          ⟨rfl, hnone, _⟩⟩ := driver_commit hstep
        · cases hreq.symm.trans hreq'
          exact ⟨call, .answered (.ok changed), update_self .., trivial⟩
        · cases hreq.symm.trans hreq'
          exact ⟨call, .answered (.ok changed), update_self .., trivial⟩
        · obtain ⟨hholds, _⟩ := hbooks.fine hreq'
          exact absurd hnone hholds
    | abort p =>
        obtain rfl := Option.some.inj hserves
        exact absurd rfl hgoes
    | _ => cases hserves
  · exact ⟨call, stage, (driver_unserved hstep hserves).trans hreq, hsafe⟩

/-- A safe request has been answered 200, or has a step to take. -/
theorem driver_safe_moves (h : s.Safe q) : s.ending q = some .ok ∨ s.Moves cfg q := by
  obtain ⟨call, stage, hreq, hsafe⟩ := h
  cases stage with
  | sending loaded changed fresh command => exact Or.inr (DriverStage.holding_moves hreq rfl)
  | committing loaded changed fresh => exact Or.inr (DriverStage.holding_moves hreq rfl)
  | answered outcome =>
      cases outcome with
      | ok profile => exact Or.inl (driver_ending_of hreq)
      | rejected e => exact absurd hsafe id
      | failed => exact absurd hsafe id
  | _ => exact absurd hsafe id

/-- Nor has it ended in another way. -/
theorem driver_safe_ending (h : s.Safe q) : s.ending q = none ∨ s.ending q = some .ok := by
  obtain ⟨call, stage, hreq, hsafe⟩ := h
  rw [driver_ending_of hreq]
  cases stage with
  | answered outcome =>
      cases outcome with
      | ok profile => exact Or.inr rfl
      | rejected e => exact absurd hsafe id
      | failed => exact absurd hsafe id
  | _ => exact Or.inl rfl

end Drivers

/-! ### The transitions -/

/-- A rejection is declared by an `HTTPException` with a client error. -/
def Rejection.IsClientError (error : Rejection) : Prop :=
  400 ≤ error.statusCode ∧ error.statusCode < 500

section Rides

variable {cfg : Settings} {s t : RideState} {a : RideAction} {q : ReqId} {call : TransitionCall}
  {stage : Stage}

/-- A transition ends as its stage says. -/
theorem ride_ending_of (hreq : s.requests q = some (call, stage)) :
    s.ending q = stage.ending := by
  simp [RideState.ending, hreq]

/-- A request ends as the stage says that it is put into. -/
theorem ride_ending_put {requests : ReqId → Option (TransitionCall × Stage)}
    {ending : Option Ending} (hreqs : t.requests = update requests q (some (call, stage)))
    (hstage : stage.ending = ending) : t.ending q = ending := by
  rw [← hstage]
  exact ride_ending_of (hreqs ▸ update_self ..)

/-- A transition that is left alone ends as before. -/
theorem ride_ending_same (hsame : t.requests q = s.requests q) : t.ending q = s.ending q := by
  rw [RideState.ending, RideState.ending, hsame]

/-- A step that does not serve a request leaves it alone. -/
theorem ride_unserved (hstep : rideStep cfg s a = some t) (hserves : a.request ≠ some q) :
    t.requests q = s.requests q := by
  rcases step_advances hstep with ⟨_, hsame⟩ | ⟨p, _, _, _, _, hmoved, hadvances⟩
  · rw [hsame]
  · rw [hmoved, update_of_ne]
    rintro rfl
    exact hserves hadvances.served

/-- What `transition_ride` makes of an error of the state machine is a 4xx. -/
theorem rejection_isClientError (e : TransitionError) : e.rejection.IsClientError := by
  cases e <;> simp [TransitionError.rejection, Rejection.IsClientError]

/-- How a transition can end in a step of its own. -/
theorem ride_ends (hserves : a.request = some q) (hstep : rideStep cfg s a = some t) :
    t.ending q = none ∨ t.ending q = some .ok ∨
      (∃ e, t.ending q = some (.rejected e) ∧ e.IsClientError) ∨
      (t.ending q = some .failed ∧ a = .abort q) := by
  cases a with
  | create _ _ _ _ _ => cases hserves
  | begin p _ _ _ =>
      obtain rfl := Option.some.inj hserves
      obtain ⟨_, rfl⟩ := step_begin hstep
      exact Or.inl (ride_ending_put rfl rfl)
  | read p =>
      obtain rfl := Option.some.inj hserves
      obtain ⟨call, _, ⟨error, ht⟩ | ⟨ride, _, _, rfl⟩⟩ := step_read hstep
      · have hrejected : t.requests p = some (call, .answered (.rejected error)) := by
          rw [ht]
          exact update_self ..
        refine Or.inr (Or.inr (Or.inl ⟨error, ride_ending_of hrejected, ?_⟩))
        rcases step_read_rejected hstep hrejected with rfl | rfl
        · exact ⟨by decide, by decide⟩
        · exact ⟨by decide, by decide⟩
      · exact Or.inl (ride_ending_put rfl rfl)
  | update p =>
      obtain rfl := Option.some.inj hserves
      obtain ⟨call, ride, _, ⟨e, _, rfl⟩ | ⟨done, _, _, rfl⟩⟩ := step_update hstep
      · exact Or.inr (Or.inr (Or.inl ⟨_, ride_ending_put rfl rfl, rejection_isClientError e⟩))
      · exact Or.inl (ride_ending_put rfl rfl)
  | search p candidates =>
      obtain rfl := Option.some.inj hserves
      obtain ⟨_, _, _, _, rfl⟩ := step_search hstep
      exact Or.inl (ride_ending_put rfl rfl)
  | reserve p =>
      obtain rfl := Option.some.inj hserves
      obtain ⟨_, _, _, _, _, ⟨_, rfl⟩ | ⟨_, _, _, _, rfl⟩ | ⟨_, _, _, _, rfl⟩⟩ :=
        step_reserve hstep
      · exact Or.inl (ride_ending_put rfl rfl)
      · exact Or.inl (ride_ending_put rfl rfl)
      · exact Or.inl (ride_ending_put rfl rfl)
  | resolve p =>
      obtain rfl := Option.some.inj hserves
      obtain ⟨_, _, _, _, _, ⟨e, _, rfl⟩ | ⟨done, _, rfl⟩⟩ := step_resolve hstep
      · exact Or.inr (Or.inr (Or.inl ⟨_, ride_ending_put rfl rfl, rejection_isClientError e⟩))
      · exact Or.inl (ride_ending_put rfl rfl)
  | getKey p =>
      obtain rfl := Option.some.inj hserves
      obtain ⟨_, _, _, _, _, _, ⟨_, rfl⟩ | ⟨_, rfl⟩⟩ := step_getKey hstep
      · exact Or.inl (ride_ending_put rfl rfl)
      · exact Or.inl (ride_ending_put rfl rfl)
  | deleteKey p =>
      obtain rfl := Option.some.inj hserves
      obtain ⟨_, _, _, _, _, _, rfl⟩ := step_deleteKey hstep
      exact Or.inl (ride_ending_put rfl rfl)
  | commit p =>
      obtain rfl := Option.some.inj hserves
      obtain ⟨_, _, _, _, rfl⟩ := step_commit hstep
      exact Or.inr (Or.inl (ride_ending_put rfl rfl))
  | abort p =>
      obtain rfl := Option.some.inj hserves
      obtain ⟨_, _, _, _, rfl⟩ := step_abort hstep
      exact Or.inr (Or.inr (Or.inr ⟨ride_ending_put rfl rfl, rfl⟩))
  | expire _ => cases hserves
  | advance _ => cases hserves

/-- **A transition fails only by being stopped.** -/
theorem ride_failed_iff (hstep : rideStep cfg s a = some t) :
    t.ending q = some .failed ↔ s.ending q = some .failed ∨ a = .abort q := by
  by_cases hserves : a.request = some q
  · constructor
    · intro hfailed
      rcases ride_ends hserves hstep with hnone | hok | ⟨_, hrejected, _⟩ | ⟨_, habort⟩
      · cases hnone.symm.trans hfailed
      · cases hok.symm.trans hfailed
      · cases hrejected.symm.trans hfailed
      · exact Or.inr habort
    · rintro (hfailed | rfl)
      · rcases step_advances hstep with ⟨hnone, _⟩ | ⟨p, call, before, after, hp, _, hadvances⟩
        · rw [hnone] at hserves
          cases hserves
        · obtain rfl := Option.some.inj (hadvances.served.symm.trans hserves)
          cases before with
          | none => simp [RideState.ending, hp] at hfailed
          | some stage =>
              rw [ride_ending_of hp] at hfailed
              cases stage with
              | answered outcome => exact absurd rfl (hadvances.unanswered outcome)
              | _ => cases hfailed
      · obtain ⟨_, _, _, _, rfl⟩ := step_abort hstep
        exact ride_ending_put rfl rfl
  · rw [ride_ending_same (ride_unserved hstep hserves)]
    refine ⟨Or.inl, fun h => h.elim id ?_⟩
    rintro rfl
    exact absurd rfl hserves

/-- A request that is about to search can only search, or be stopped. -/
theorem searching_steps {ride : Ride} {pending : List Applied}
    (hreq : s.requests q = some (call, .holding ride pending .search))
    (hserves : a.request = some q) (hstep : rideStep cfg s a = some t) :
    (∃ candidates, a = .search q candidates) ∨ a = .abort q := by
  cases a with
  | create _ _ _ _ _ => cases hserves
  | begin p _ _ _ =>
      obtain rfl := Option.some.inj hserves
      cases (step_begin hstep).1.symm.trans hreq
  | read p =>
      obtain rfl := Option.some.inj hserves
      obtain ⟨_, hreq', _⟩ := step_read hstep
      cases hreq.symm.trans hreq'
  | update p =>
      obtain rfl := Option.some.inj hserves
      obtain ⟨_, _, hreq', _⟩ := step_update hstep
      cases hreq.symm.trans hreq'
  | search p candidates =>
      obtain rfl := Option.some.inj hserves
      exact Or.inl ⟨candidates, rfl⟩
  | reserve p =>
      obtain rfl := Option.some.inj hserves
      obtain ⟨_, _, _, _, hreq', _⟩ := step_reserve hstep
      cases hreq.symm.trans hreq'
  | resolve p =>
      obtain rfl := Option.some.inj hserves
      obtain ⟨_, _, _, _, hreq', _⟩ := step_resolve hstep
      cases hreq.symm.trans hreq'
  | getKey p =>
      obtain rfl := Option.some.inj hserves
      obtain ⟨_, _, _, _, hreq', _⟩ := step_getKey hstep
      cases hreq.symm.trans hreq'
  | deleteKey p =>
      obtain rfl := Option.some.inj hserves
      obtain ⟨_, _, _, _, hreq', _⟩ := step_deleteKey hstep
      cases hreq.symm.trans hreq'
  | commit p =>
      obtain rfl := Option.some.inj hserves
      obtain ⟨_, _, _, hreq', _⟩ := step_commit hstep
      cases hreq.symm.trans hreq'
  | abort p => exact Or.inr (congrArg RideAction.abort (Option.some.inj hserves))
  | expire _ => cases hserves
  | advance _ => cases hserves

/-- About to search where Redis does, past it, or answered 200. -/
def Stage.Safe : Stage → Prop
  | .holding ride _ .search => InGeoRange ride.pickupLat
  | .holding _ _ _ => True
  | .answered (.ok _) => True
  | _ => False

/-- The request is safe: it can only be answered 200, or be stopped. -/
def RideState.Safe (s : RideState) (q : ReqId) : Prop :=
  ∃ call stage, s.requests q = some (call, stage) ∧ stage.Safe

/-- Past its search a transition is safe. -/
theorem holding_safe {ride : Ride} {pending : List Applied} {todo : Todo}
    (htodo : todo ≠ .search) : (Stage.holding ride pending todo).Safe := by
  cases todo with
  | search => exact absurd rfl htodo
  | _ => trivial

/-- A safe request stays safe until it is stopped. -/
theorem step_ride_safe (hfit : BranchesFit s) (h : s.Safe q) (hgoes : a ≠ .abort q)
    (hstep : rideStep cfg s a = some t) : t.Safe q := by
  obtain ⟨call, stage, hreq, hsafe⟩ := h
  by_cases hserves : a.request = some q
  · cases a with
    | create _ _ _ _ _ => cases hserves
    | begin p _ _ _ =>
        obtain rfl := Option.some.inj hserves
        obtain ⟨hnone, _⟩ := step_begin hstep
        cases hnone.symm.trans hreq
    | read p =>
        obtain rfl := Option.some.inj hserves
        obtain ⟨_, hreq', _⟩ := step_read hstep
        cases hreq.symm.trans hreq'
        exact absurd hsafe id
    | update p =>
        obtain rfl := Option.some.inj hserves
        obtain ⟨_, _, hreq', _⟩ := step_update hstep
        cases hreq.symm.trans hreq'
        exact absurd hsafe id
    | search p candidates =>
        obtain rfl := Option.some.inj hserves
        obtain ⟨call', _, _, _, rfl⟩ := step_search hstep
        exact ⟨call', _, update_self .., holding_safe (by simp)⟩
    | reserve p =>
        obtain rfl := Option.some.inj hserves
        obtain ⟨call', _, _, _, _, ⟨_, rfl⟩ | ⟨_, _, _, _, rfl⟩ | ⟨_, _, _, _, rfl⟩⟩ :=
          step_reserve hstep
        · exact ⟨call', _, update_self .., holding_safe (by simp)⟩
        · exact ⟨call', _, update_self .., holding_safe (by simp)⟩
        · exact ⟨call', _, update_self .., holding_safe (by simp)⟩
    | resolve p =>
        obtain rfl := Option.some.inj hserves
        obtain ⟨call', _, _, driverId, hreq', ⟨e, herror, _⟩ | ⟨done, _, rfl⟩⟩ :=
          step_resolve hstep
        · exact absurd herror (second_never_raises (hfit _ _ _ _ _ hreq') driverId _ _ e)
        · exact ⟨call', _, update_self .., holding_safe (by simp)⟩
    | getKey p =>
        obtain rfl := Option.some.inj hserves
        obtain ⟨call', _, _, _, _, _, ⟨_, rfl⟩ | ⟨_, rfl⟩⟩ := step_getKey hstep
        · exact ⟨call', _, update_self .., holding_safe (by simp)⟩
        · exact ⟨call', _, update_self .., holding_safe (by simp)⟩
    | deleteKey p =>
        obtain rfl := Option.some.inj hserves
        obtain ⟨call', _, _, _, _, _, rfl⟩ := step_deleteKey hstep
        exact ⟨call', _, update_self .., holding_safe (by simp)⟩
    | commit p =>
        obtain rfl := Option.some.inj hserves
        obtain ⟨call', ride, _, _, rfl⟩ := step_commit hstep
        exact ⟨call', .answered (.ok ride), update_self .., trivial⟩
    | abort p =>
        obtain rfl := Option.some.inj hserves
        exact absurd rfl hgoes
    | expire _ => cases hserves
    | advance _ => cases hserves
  · exact ⟨call, stage, (ride_unserved hstep hserves).trans hreq, hsafe⟩

/-- A safe request has been answered 200, or searches where Redis does, or has
another step to take. -/
theorem ride_safe_moves (hfit : BranchesFit s) (h : s.Safe q) :
    s.ending q = some .ok ∨ s.Moves cfg q ∨
      ∃ call ride pending, s.requests q = some (call, .holding ride pending .search) ∧
        InGeoRange ride.pickupLat := by
  obtain ⟨call, stage, hreq, hsafe⟩ := h
  cases stage with
  | holding ride pending todo =>
      by_cases hsearch : todo = .search
      · subst hsearch
        exact Or.inr (Or.inr ⟨call, ride, pending, hreq, hsafe⟩)
      · exact Or.inr (Or.inl (holding_moves hfit hreq hsearch))
  | answered outcome =>
      cases outcome with
      | ok ride => exact Or.inl (ride_ending_of hreq)
      | rejected e => exact absurd hsafe id
      | failed => exact absurd hsafe id
  | _ => exact absurd hsafe id

/-- Nor has it ended in another way. -/
theorem ride_safe_ending (h : s.Safe q) : s.ending q = none ∨ s.ending q = some .ok := by
  obtain ⟨call, stage, hreq, hsafe⟩ := h
  rw [ride_ending_of hreq]
  cases stage with
  | answered outcome =>
      cases outcome with
      | ok ride => exact Or.inr rfl
      | rejected e => exact absurd hsafe id
      | failed => exact absurd hsafe id
  | _ => exact Or.inl rfl

end Rides

end RideFlow
