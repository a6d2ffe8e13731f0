import Mathlib.Data.List.Sort
import RideFlow.Library.Tables
import RideFlow.Models

/-!
# Driver discovery and reservation

`services/matching.py` over the two Redis structures it uses: the GEO set of
matchable drivers and the reservation keys.

`GEOADD`, `ZREM` and `GEOSEARCH .. ASC COUNT n` follow the Redis manual; the
distance between two points is Redis's own and stays a parameter.  A
reservation key holds a ride id and the time from which it may be gone
(`SET .. NX EX ttl`).
-/

namespace RideFlow

open Tables

/-- A member of `drivers:geo` with the coordinates last added for it. -/
structure GeoMember where
  driverId : UserId
  lng : Degrees
  lat : Degrees
  deriving DecidableEq, Repr

abbrev GeoPool := List GeoMember

/-- `ZREM drivers:geo id`. -/
def removeDriverFromPool (pool : GeoPool) (driverId : UserId) : GeoPool :=
  pool.filter fun m => m.driverId ≠ driverId

/-- The coordinates that Redis can hash; any other pair is an error. -/
def validCoordinates (lng lat : Degrees) : Bool :=
  -180 ≤ lng ∧ lng ≤ 180 ∧ -(8505112878 / 100000000) ≤ lat ∧ lat ≤ 8505112878 / 100000000

/-- `GEOADD drivers:geo lng lat id`: a member is replaced, never duplicated. -/
def upsertDriverLocation (pool : GeoPool) (driverId : UserId) (lat lng : Degrees) :
    Option GeoPool :=
  if validCoordinates lng lat then
    some (⟨driverId, lng, lat⟩ :: removeDriverFromPool pool driverId)
  else none

/-- The distance in kilometres that Redis computes between two points, each
given by longitude and latitude. -/
abbrev GeoDistance := Degrees → Degrees → Degrees → Degrees → ℚ

/-- `GEOSEARCH drivers:geo FROMLONLAT lng lat BYRADIUS r km ASC COUNT n`. -/
def geosearch (dist : GeoDistance) (pool : GeoPool) (lng lat : Degrees) (radius : ℚ)
    (count : Nat) : Option (List UserId) :=
  if validCoordinates lng lat then
    let inRange := pool.filter fun m => dist lng lat m.lng m.lat ≤ radius
    let nearestFirst := inRange.insertionSort
      fun m n => dist lng lat m.lng m.lat ≤ dist lng lat n.lng n.lat
    some ((nearestFirst.take count).map GeoMember.driverId)
  else none

/-- `find_nearby_drivers` with the default radius and count. -/
def findNearbyDrivers (cfg : Settings) (dist : GeoDistance) (pool : GeoPool)
    (lat lng : Degrees) : Option (List UserId) :=
  geosearch dist pool lng lat cfg.driverSearchRadiusKm 10

/-- The value of a reservation key and the end of its time to live. -/
structure Reservation where
  rideId : RideId
  expiresAt : Timestamp
  deriving DecidableEq, Repr

/-- The keys `driver:reservation:<driver>`. -/
abbrev Reservations := UserId → Option Reservation

/-- One `SET key ride NX EX ttl`. -/
def tryReserveDriver (cfg : Settings) (keys : Reservations) (driverId : UserId)
    (rideId : RideId) (now : Timestamp) : Bool × Reservations :=
  match keys driverId with
  | some _ => (false, keys)
  | none =>
      let key := ⟨rideId, now + cfg.driverReservationTtlSeconds⟩
      (true, Function.update keys driverId (some key))

/-- The scan of `find_and_reserve_driver`: the first candidate whose key can be
set. -/
def reserveFirst (cfg : Settings) (rideId : RideId) (now : Timestamp) :
    Reservations → List UserId → Option UserId × Reservations
  | keys, [] => (none, keys)
  | keys, driverId :: rest =>
      match tryReserveDriver cfg keys driverId rideId now with
      | (true, keys') => (some driverId, keys')
      | (false, keys') => reserveFirst cfg rideId now keys' rest

/-- `find_and_reserve_driver`; `none` when Redis raises. -/
def findAndReserveDriver (cfg : Settings) (dist : GeoDistance) (pool : GeoPool)
    (keys : Reservations) (lat lng : Degrees) (rideId : RideId) (now : Timestamp) :
    Option (Option UserId × Reservations) :=
  (findNearbyDrivers cfg dist pool lat lng).map (reserveFirst cfg rideId now keys)

/-- The GET of `release_driver_reservation`: does the key hold this ride? -/
def holdsReservation (keys : Reservations) (driverId : UserId) (rideId : RideId) : Bool :=
  (keys driverId).map Reservation.rideId = some rideId

/-- The DEL of `release_driver_reservation`. -/
def deleteReservation (keys : Reservations) (driverId : UserId) : Reservations :=
  Function.update keys driverId none

section Keys

variable {cfg : Settings} {keys keys' : Reservations} {d e : UserId} {r : RideId}
  {now : Timestamp}

/-- SET NX succeeds exactly when the key is absent, and then writes it. -/
theorem tryReserveDriver_eq {ok : Bool} :
    tryReserveDriver cfg keys d r now = (ok, keys') ↔
      (ok = false ∧ (keys d).isSome ∧ keys' = keys) ∨
        (ok = true ∧ keys d = none ∧
          keys' = Function.update keys d
            (some ⟨r, now + cfg.driverReservationTtlSeconds⟩)) := by
  cases hkey : keys d with
  | none => simp [tryReserveDriver, hkey, eq_comm]
  | some key => simp [tryReserveDriver, hkey, eq_comm]

/-- The scan finds a candidate whose key is absent, the first one. -/
theorem reserveFirst_eq_find (candidates : List UserId) :
    reserveFirst cfg r now keys candidates =
      match candidates.find? fun d => (keys d).isNone with
      | some d => (some d,
          Function.update keys d (some ⟨r, now + cfg.driverReservationTtlSeconds⟩))
      | none => (none, keys) := by
  induction candidates with
  | nil => rfl
  | cons d rest ih =>
      cases hkey : keys d with
      | none => simp [reserveFirst, tryReserveDriver, hkey]
      | some key => simp [reserveFirst, tryReserveDriver, hkey, ih]

end Keys

end RideFlow
