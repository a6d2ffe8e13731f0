import RideFlow.Matching

/-!
# Driver profiles and the matching pool

`routers/drivers.py` and the eviction sweep of `workers/tasks.py`, each as one
step from the profiles and the pool before to those after.  A handler that
raises rolls its database changes back; both raise before they touch the pool.
-/

namespace RideFlow

open Function

/-- A row of `driver_profiles`; the defaults are those of a new profile. -/
structure DriverProfile where
  isAvailable : Bool := false
  lastLat : Option Degrees := none
  lastLng : Option Degrees := none
  lastHeartbeatAt : Option Timestamp := none
  deriving DecidableEq, Repr

/-- The body of `POST /drivers/me/heartbeat`, with the bounds that the schema
checks. -/
structure HeartbeatRequest where
  lat : Degrees
  lng : Degrees
  lat_mem : -90 ≤ lat ∧ lat ≤ 90
  lng_mem : -180 ≤ lng ∧ lng ≤ 180

/-- `driver_profiles` by user, and `drivers:geo`. -/
structure DriverStore where
  profiles : UserId → Option DriverProfile
  pool : GeoPool

/-- No profiles, and an empty pool. -/
def DriverStore.init : DriverStore := ⟨fun _ => none, []⟩

/-- How a driver's request can fail: an HTTP error, or an exception that
nobody catches. -/
inductive DriverFailure
  | rejected (error : Rejection)
  | crashed
  deriving DecidableEq, Repr

namespace DriverStore

variable (st : DriverStore)

/-- `_get_or_create_profile`. -/
def getOrCreateProfile (user : User) : DriverProfile :=
  (st.profiles user.id).getD {}

/-- GEOADD, with the error that Redis raises for coordinates it cannot hash. -/
def upsert (userId : UserId) (lat lng : Degrees) : Except DriverFailure GeoPool :=
  match upsertDriverLocation st.pool userId lat lng with
  | some pool => .ok pool
  | none => .error .crashed

/-- Write the profile back, with the pool that the Redis command left. -/
def save (user : User) (profile : DriverProfile) (pool : Except DriverFailure GeoPool) :
    Except DriverFailure DriverStore :=
  pool.map fun pool => ⟨update st.profiles user.id (some profile), pool⟩

/-- `heartbeat`: the pool follows if the driver is available. -/
def heartbeat (user : User) (payload : HeartbeatRequest) (now : Timestamp) :
    Except DriverFailure DriverStore :=
  let profile := { st.getOrCreateProfile user with
    lastLat := some payload.lat
    lastLng := some payload.lng
    lastHeartbeatAt := some now }
  st.save user profile
    (if profile.isAvailable then st.upsert user.id payload.lat payload.lng else .ok st.pool)

/-- `set_availability`, which places the driver where the last heartbeat came from. -/
def setAvailability (user : User) (isAvailable : Bool) : Except DriverFailure DriverStore :=
  let profile := { st.getOrCreateProfile user with isAvailable := isAvailable }
  st.save user profile
    (if isAvailable then
      match profile.lastLat, profile.lastLng with
      | some lat, some lng => st.upsert user.id lat lng
      | _, _ => .error
          (.rejected ⟨400, "Send a heartbeat with your location before going available"⟩)
    else .ok (removeDriverFromPool st.pool user.id))

/-- `get_my_profile`, which may create the profile. -/
def getMyProfile (user : User) : Except DriverFailure DriverStore :=
  st.save user (st.getOrCreateProfile user) (.ok st.pool)

/-- The WHERE of the sweep: available, and the last heartbeat older than the
cutoff.  A profile without a heartbeat does not match. -/
def isStale (cfg : Settings) (now : Timestamp) (driverId : UserId) : Bool :=
  (st.profiles driverId).any fun profile =>
    profile.isAvailable && profile.lastHeartbeatAt.any fun at_ =>
      at_ + cfg.driverStaleAfterSeconds < now

/-- The sweep marks every stale driver unavailable and removes it from the
pool. -/
def evictStaleDrivers (cfg : Settings) (now : Timestamp) : DriverStore where
  profiles := fun d =>
    if st.isStale cfg now d then
      (st.profiles d).map fun profile => { profile with isAvailable := false }
    else st.profiles d
  pool := st.pool.filter fun m => !st.isStale cfg now m.driverId

end DriverStore

/-- The driver is a member of `drivers:geo`. -/
def DriverStore.InPool (st : DriverStore) (d : UserId) : Prop :=
  ∃ m ∈ st.pool, m.driverId = d

instance (st : DriverStore) (d : UserId) : Decidable (st.InPool d) :=
  inferInstanceAs (Decidable (∃ m ∈ st.pool, _))

/-- The committed profile says that the driver is available. -/
def DriverStore.Available (st : DriverStore) (d : UserId) : Prop :=
  (st.profiles d).any DriverProfile.isAvailable = true

instance (st : DriverStore) (d : UserId) : Decidable (st.Available d) :=
  inferInstanceAs (Decidable (_ = true))

/-- Nobody who is not in the pool is found. -/
theorem found_in_pool {cfg : Settings} {dist : GeoDistance} {st : DriverStore}
    {lat lng : Degrees} {found : List UserId} {d : UserId}
    (h : findNearbyDrivers cfg dist st.pool lat lng = some found) (hd : d ∈ found) :
    st.InPool d := by
  simp only [findNearbyDrivers, geosearch, Option.ite_none_right_eq_some,
    Option.some.injEq] at h
  obtain ⟨_, rfl⟩ := h
  obtain ⟨m, hm, hmd⟩ := List.mem_map.mp hd
  have hsorted := (List.mem_insertionSort _).mp (List.mem_of_mem_take hm)
  exact ⟨m, (List.mem_filter.mp hsorted).1, hmd⟩

/-- A driver at the pickup point of `sampleBody`. -/
def sampleHeartbeat : HeartbeatRequest where
  lat := sampleBody.pickupLat
  lng := sampleBody.pickupLng
  lat_mem := sampleBody.pickup_lat_mem
  lng_mem := sampleBody.pickup_lng_mem

end RideFlow
