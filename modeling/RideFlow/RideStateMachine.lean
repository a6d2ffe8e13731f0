import RideFlow.Models

/-!
# The ride state machine

`assert_valid_transition` and `apply_transition` of
`services/ride_state_machine.py`.  The legality check looks at the ride that
the caller holds in memory; the conditional UPDATE looks at the row stored
under its id and compares only the version that the caller was given.  The
two agree on the row exactly when the caller's version is the one it read.

`applyTransition` is given the row that the UPDATE finds (`stored`), the time
at which the transaction started (`now()` of PostgreSQL) and the id drawn for
the event.
-/

namespace RideFlow

/-- The two exceptions of the state machine. -/
inductive TransitionError
  | invalidTransition (current target : RideStatus)
  | staleVersion (rideId : RideId) (expectedVersion : Int)
  deriving DecidableEq, Repr

/-- The list of allowed targets as the error message prints it.  The source
prints a set, in no fixed order; here it is the order of the table. -/
def allowedText (current : RideStatus) : String :=
  match rideTransitions current with
  | [] => "none (terminal state)"
  | targets => "[" ++ ", ".intercalate (targets.map fun t => "'" ++ t.value ++ "'") ++ "]"

/-- `str(exc)`. -/
def TransitionError.message : TransitionError → String
  | .invalidTransition current target =>
      "Cannot transition ride from '" ++ current.value ++ "' to '" ++ target.value ++
        "'. Allowed: " ++ allowedText current
  | .staleVersion rideId expectedVersion =>
      "Ride " ++ toString rideId ++ " was modified concurrently (expected version " ++
        toString expectedVersion ++ "). Re-fetch the ride and retry."

/-- `assert_valid_transition`. -/
def assertValidTransition (current target : RideStatus) : Except TransitionError Unit :=
  if target ∈ rideTransitions current then .ok ()
  else .error (.invalidTransition current target)

/-- `extra_fields`: the only column that callers pass is the driver. -/
structure ExtraFields where
  driverId : UserId
  deriving DecidableEq, Repr

/-- The SET clause of the UPDATE: status, version + 1, the extra fields, and
`updated_at` by its `onupdate`. -/
def Ride.set (row : Ride) (target : RideStatus) (extra : Option ExtraFields)
    (now : Timestamp) : Ride :=
  { row with
    status := target
    version := row.version + 1
    driverId := match extra with
      | none => row.driverId
      | some fields => some fields.driverId
    updatedAt := now }

/-- `UPDATE rides SET .. WHERE id = .. AND version = ..` on the row stored
under the id: the new row, or none when no row matches. -/
def updateRide (stored : Option Ride) (expected : Int) (target : RideStatus)
    (extra : Option ExtraFields) (now : Timestamp) : Option Ride :=
  match stored with
  | none => none
  | some row => if (row.version : Int) = expected then some (row.set target extra now) else none

/-- The event that `apply_transition` adds to the session. -/
def statusChanged (id : Nat) (ride : Ride) (previous target : RideStatus)
    (now : Timestamp) : OutboxEvent where
  id := id
  aggregateType := "ride"
  aggregateId := ride.id
  eventType := "ride.status_changed"
  payload :=
    { rideId := ride.id
      previousStatus := previous
      newStatus := target
      driverId := ride.driverId
      passengerId := ride.passengerId }
  published := false
  createdAt := now
  publishedAt := none

/-- What `apply_transition` returns (the refreshed ride and the previous
status) and the event it added. -/
structure TransitionResult where
  ride : Ride
  previousStatus : RideStatus
  event : OutboxEvent
  deriving DecidableEq, Repr

/-- `apply_transition` on the row stored under the id of the ride. -/
def applyTransition (stored : Option Ride) (ride : Ride) (target : RideStatus)
    (expected : Int) (extra : Option ExtraFields) (now : Timestamp) (eventId : Nat) :
    Except TransitionError TransitionResult := do
  assertValidTransition ride.status target
  match updateRide stored expected target extra now with
  | none => .error (.staleVersion ride.id expected)
  | some refreshed =>
      .ok {
        ride := refreshed
        previousStatus := ride.status
        event := statusChanged eventId refreshed ride.status target now }

/-- The UPDATE keeps the id. -/
@[simp] theorem Ride.set_id (row : Ride) (target : RideStatus) (extra : Option ExtraFields)
    (now : Timestamp) : (row.set target extra now).id = row.id := rfl

/-- It writes the target. -/
@[simp] theorem Ride.set_status (row : Ride) (target : RideStatus) (extra : Option ExtraFields)
    (now : Timestamp) : (row.set target extra now).status = target := rfl

/-- It adds one to the version. -/
@[simp] theorem Ride.set_version (row : Ride) (target : RideStatus)
    (extra : Option ExtraFields) (now : Timestamp) :
    (row.set target extra now).version = row.version + 1 := rfl

/-- Without extra fields it keeps the driver. -/
@[simp] theorem Ride.set_driverId_none (row : Ride) (target : RideStatus) (now : Timestamp) :
    (row.set target none now).driverId = row.driverId := rfl

/-- With extra fields it writes their driver. -/
@[simp] theorem Ride.set_driverId_some (row : Ride) (target : RideStatus)
    (fields : ExtraFields) (now : Timestamp) :
    (row.set target (some fields) now).driverId = some fields.driverId := rfl

/-- The UPDATE matches exactly the row at the expected version. -/
theorem updateRide_eq_some {stored : Option Ride} {expected : Int} {target : RideStatus}
    {extra : Option ExtraFields} {now : Timestamp} {new : Ride} :
    updateRide stored expected target extra now = some new ↔
      ∃ row, stored = some row ∧ (row.version : Int) = expected ∧
        new = row.set target extra now := by
  cases stored with
  | none => simp [updateRide]
  | some row =>
      by_cases h : (row.version : Int) = expected
      · simp [updateRide, h, eq_comm]
      · simp [updateRide, h]

/-- **What a successful call did.**  The target is legal after the status that
was checked, the stored row was at the expected version, and ride and event
are built from the stored row. -/
theorem applyTransition_ok {stored : Option Ride} {ride : Ride} {target : RideStatus}
    {expected : Int} {extra : Option ExtraFields} {now : Timestamp} {eventId : Nat}
    {result : TransitionResult} :
    applyTransition stored ride target expected extra now eventId = .ok result ↔
      target ∈ rideTransitions ride.status ∧
        ∃ row, stored = some row ∧ (row.version : Int) = expected ∧
          result = ⟨row.set target extra now, ride.status,
            statusChanged eventId (row.set target extra now) ride.status target now⟩ := by
  unfold applyTransition assertValidTransition
  by_cases hlegal : target ∈ rideTransitions ride.status
  · cases hupdate : updateRide stored expected target extra now with
    | none =>
        have hmiss : ∀ row, stored = some row → (row.version : Int) ≠ expected := by
          intro row hrow hversion
          have hsome : updateRide stored expected target extra now = some _ :=
            updateRide_eq_some.mpr ⟨row, hrow, hversion, rfl⟩
          rw [hupdate] at hsome
          cases hsome
        simp only [hlegal, if_true, true_and]
        constructor
        · intro h
          cases h
        · intro h
          obtain ⟨row, hrow, hversion, _⟩ := h
          exact absurd hversion (hmiss row hrow)
    | some new =>
        obtain ⟨row, hrow, hversion, rfl⟩ := updateRide_eq_some.mp hupdate
        subst hrow
        simp only [hlegal, if_true, true_and, Option.some.injEq]
        constructor
        · intro h
          cases h
          exact ⟨row, rfl, hversion, rfl⟩
        · intro h
          obtain ⟨row', rfl, _, rfl⟩ := h
          rfl
  · simp only [hlegal, if_false, false_and, iff_false]
    intro h
    cases h

/-- The errors of a call: an illegal target, or else a row that is missing or
at another version. -/
theorem applyTransition_error {stored : Option Ride} {ride : Ride} {target : RideStatus}
    {expected : Int} {extra : Option ExtraFields} {now : Timestamp} {eventId : Nat}
    {e : TransitionError}
    (h : applyTransition stored ride target expected extra now eventId = .error e) :
    (target ∉ rideTransitions ride.status ∧ e = .invalidTransition ride.status target) ∨
      (target ∈ rideTransitions ride.status ∧ e = .staleVersion ride.id expected ∧
        ∀ row, stored = some row → (row.version : Int) ≠ expected) := by
  by_cases hlegal : target ∈ rideTransitions ride.status
  · right
    have hmiss : ∀ row, stored = some row → (row.version : Int) ≠ expected := by
      intro row hrow hversion
      have hok : applyTransition stored ride target expected extra now eventId = .ok _ :=
        applyTransition_ok.mpr ⟨hlegal, row, hrow, hversion, rfl⟩
      rw [h] at hok
      cases hok
    have hnone : updateRide stored expected target extra now = none := by
      cases hupdate : updateRide stored expected target extra now with
      | none => rfl
      | some new =>
          obtain ⟨row, hrow, hversion, _⟩ := updateRide_eq_some.mp hupdate
          exact absurd hversion (hmiss row hrow)
    refine ⟨hlegal, ?_, hmiss⟩
    unfold applyTransition assertValidTransition at h
    simp only [hlegal, if_true, hnone] at h
    cases h
    rfl
  · left
    unfold applyTransition assertValidTransition at h
    simp only [hlegal, if_false] at h
    cases h
    exact ⟨hlegal, rfl⟩

end RideFlow
