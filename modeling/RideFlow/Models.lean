import Mathlib.Data.Rat.Defs
import Mathlib.Tactic.Common
import Mathlib.Tactic.NormNum

/-!
# The data model

The tables of `models.py`, with the fields that the modelled operations read
or write, and the request bodies of `schemas.py`.  Identifiers are the UUIDs
of the tables; only their equality is ever used, so they are numbers.  Times
are numbers of seconds.  Coordinates and fares are finite doubles, read as the
rationals they denote.

Validation that happens before a handler runs is carried by the request
types: a `RideCreateRequest` cannot be built with a latitude outside the
bounds that the schema declares.
-/

namespace RideFlow

abbrev UserId := Nat
abbrev RideId := Nat
abbrev Timestamp := Nat
abbrev Degrees := ℚ

/-- `UserRole`. -/
inductive UserRole
  | passenger
  | driver
  | admin
  deriving DecidableEq, Repr

/-- `RideStatus`. -/
inductive RideStatus
  | requested
  | matching
  | accepted
  | driverArriving
  | inProgress
  | completed
  | cancelled
  | noDriversFound
  deriving DecidableEq, Repr

/-- The string a status is stored and sent as. -/
def RideStatus.value : RideStatus → String
  | .requested => "requested"
  | .matching => "matching"
  | .accepted => "accepted"
  | .driverArriving => "driver_arriving"
  | .inProgress => "in_progress"
  | .completed => "completed"
  | .cancelled => "cancelled"
  | .noDriversFound => "no_drivers_found"

/-- `RIDE_TRANSITIONS`: the statuses that may follow each status. -/
def rideTransitions : RideStatus → List RideStatus
  | .requested => [.matching, .cancelled]
  | .matching => [.accepted, .noDriversFound, .cancelled]
  | .accepted => [.driverArriving, .cancelled]
  | .driverArriving => [.inProgress, .cancelled]
  | .inProgress => [.completed, .cancelled]
  | .completed => []
  | .cancelled => []
  | .noDriversFound => [.matching, .cancelled]

/-- A status that no transition leaves. -/
def RideStatus.Terminal (s : RideStatus) : Prop := rideTransitions s = []

instance (s : RideStatus) : Decidable s.Terminal := inferInstanceAs (Decidable (_ = _))

/-- Exactly the completed and the cancelled rides are at rest. -/
theorem terminal_iff {s : RideStatus} :
    s.Terminal ↔ s = .completed ∨ s = .cancelled := by
  cases s <;> decide

/-- A driver is on this ride: it was accepted and has not ended. -/
def RideStatus.Active (s : RideStatus) : Prop :=
  s = .accepted ∨ s = .driverArriving ∨ s = .inProgress

instance (s : RideStatus) : Decidable s.Active := inferInstanceAs (Decidable (_ ∨ _))

/-- `User`, without the time at which it was created. -/
structure User where
  id : UserId
  email : String
  hashedPassword : String
  fullName : String
  role : UserRole
  isActive : Bool
  deriving DecidableEq, Repr

/-- An HTTP error answer. -/
structure Rejection where
  statusCode : Nat
  detail : String
  deriving DecidableEq, Repr

/-- A row of `rides`. -/
structure Ride where
  id : RideId
  passengerId : UserId
  driverId : Option UserId
  status : RideStatus
  version : Nat
  pickupLat : Degrees
  pickupLng : Degrees
  dropoffLat : Degrees
  dropoffLng : Degrees
  fareEstimate : Option ℚ
  idempotencyKey : Option String
  createdAt : Timestamp
  updatedAt : Timestamp
  deriving DecidableEq, Repr

/-- The payload of a `ride.status_changed` event; the statuses are sent as
their `value`s. -/
structure StatusChange where
  rideId : RideId
  previousStatus : RideStatus
  newStatus : RideStatus
  driverId : Option UserId
  passengerId : UserId
  deriving DecidableEq, Repr

/-- A row of `outbox_events`. -/
structure OutboxEvent where
  id : Nat
  aggregateType : String
  aggregateId : RideId
  eventType : String
  payload : StatusChange
  published : Bool
  createdAt : Timestamp
  publishedAt : Option Timestamp
  deriving DecidableEq, Repr

/-- The body of `POST /rides`, with the bounds that the schema checks. -/
structure RideCreateRequest where
  pickupLat : Degrees
  pickupLng : Degrees
  dropoffLat : Degrees
  dropoffLng : Degrees
  pickup_lat_mem : -90 ≤ pickupLat ∧ pickupLat ≤ 90
  pickup_lng_mem : -180 ≤ pickupLng ∧ pickupLng ≤ 180
  dropoff_lat_mem : -90 ≤ dropoffLat ∧ dropoffLat ≤ 90
  dropoff_lng_mem : -180 ≤ dropoffLng ∧ dropoffLng ≤ 180
  deriving DecidableEq

/-- The body of `POST /rides/{id}/transition`; `expected_version` is any
integer that the client sends. -/
structure RideTransitionRequest where
  targetStatus : RideStatus
  expectedVersion : Int
  deriving DecidableEq, Repr

/-- The settings of `config.py` that the modelled operations read. -/
structure Settings where
  driverSearchRadiusKm : ℚ := 5
  driverStaleAfterSeconds : Nat := 30
  driverReservationTtlSeconds : Nat := 15
  refreshTokenExpireMinutes : Nat := 60 * 24 * 7

/-- Users and a body for the concrete runs. -/
def sampleUser (id : UserId) (role : UserRole) : User :=
  ⟨id, "a@example.com", "", "", role, true⟩

def sampleBody : RideCreateRequest where
  pickupLat := 40
  pickupLng := -74
  dropoffLat := 41
  dropoffLng := -73
  pickup_lat_mem := by norm_num
  pickup_lng_mem := by norm_num
  dropoff_lat_mem := by norm_num
  dropoff_lng_mem := by norm_num

/-- The fare that the estimate gives for `sampleBody`. -/
def sampleFare : ℚ := 19108 / 100

/-- The row that `create_ride` inserts: a fresh id, no driver, version 1. -/
def newRide (id : RideId) (user : User) (payload : RideCreateRequest) (fare : ℚ)
    (idempotencyKey : Option String) (now : Timestamp) : Ride where
  id := id
  passengerId := user.id
  driverId := none
  status := .requested
  version := 1
  pickupLat := payload.pickupLat
  pickupLng := payload.pickupLng
  dropoffLat := payload.dropoffLat
  dropoffLng := payload.dropoffLng
  fareEstimate := some fare
  idempotencyKey := idempotencyKey
  createdAt := now
  updatedAt := now

end RideFlow
