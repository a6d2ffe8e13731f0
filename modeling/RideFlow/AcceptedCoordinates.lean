import RideFlow.GhostDrivers
import RideFlow.RoundTrip

/-!
# Coordinates that are accepted and those that Redis takes

The bodies of a heartbeat and of a new ride are checked against ±90 and ±180
degrees.  GEOADD and GEOSEARCH take longitudes up to ±180, but latitudes only up
to ±85.05112878.  A pair that was accepted is stored and sent later, by other
requests too.

What is kept of all stored and loaded coordinates is said for any two conditions
(`AllLocated`, and `rides_carry` for the rides).  With the bounds of the schemas
it says that only a latitude can be refused (`sending_answered_iff`,
`searching_answered_iff`); with the range of Redis it says that runs without polar
latitudes are safe (`sending_in_range`, `searching_in_range`).

Coordinates are rationals here.  A NaN, which Python's `json` reads and which a
comparison with a bound may let pass, is not one of them.
-/

namespace RideFlow

open Function Runs Tables

/-- The latitudes that Redis takes. -/
def InGeoRange (lat : Degrees) : Prop :=
  -(8505112878 / 100000000) ≤ lat ∧ lat ≤ 8505112878 / 100000000

/-- The longitudes that it takes, and that the schemas accept. -/
def LngInBounds (lng : Degrees) : Prop := -180 ≤ lng ∧ lng ≤ 180

theorem validCoordinates_iff {lng lat : Degrees} (hlng : LngInBounds lng) :
    validCoordinates lng lat = true ↔ InGeoRange lat := by
  simp [validCoordinates, InGeoRange, hlng.1, hlng.2]

instance (lat : Degrees) : Decidable (InGeoRange lat) :=
  inferInstanceAs (Decidable (_ ∧ _))

/-- The latitude that a request sends, given the profile that it has loaded: a
heartbeat's own, if the profile is available, or the last one of the profile. -/
def DriverRequest.latitude (profile : DriverProfile) : DriverRequest → Option Degrees
  | .heartbeat payload => if profile.isAvailable then some payload.lat else none
  | .setAvailability true => profile.lastLat
  | _ => none

section Located

variable (okLat okLng : Degrees → Prop)

/-- The coordinates of a profile, as far as there are any, are fine. -/
def DriverProfile.Located (profile : DriverProfile) : Prop :=
  (∀ lat, profile.lastLat = some lat → okLat lat) ∧
    ∀ lng, profile.lastLng = some lng → okLng lng

/-- So are those of a heartbeat. -/
def DriverRequest.Located (request : DriverRequest) : Prop :=
  ∀ payload, request = .heartbeat payload → okLat payload.lat ∧ okLng payload.lng

/-- The profiles in the session of a request. -/
def DriverStage.profiles : DriverStage → List DriverProfile
  | .loaded profile _ => [profile]
  | .sending before changed _ _ => [before, changed]
  | .committing before changed _ => [before, changed]
  | _ => []

/-- Every coordinate that is stored, loaded or sent meets its condition. -/
structure AllLocated (s : DriverState) : Prop where
  stored : ∀ d row, s.store.profiles d = some row → row.Located okLat okLng
  calls : ∀ q call stage, s.requests q = some (call, stage) → call.request.Located okLat okLng
  working : ∀ q call stage, s.requests q = some (call, stage) →
    ∀ profile ∈ stage.profiles, profile.Located okLat okLng

end Located

section Drivers

variable {cfg : Settings} {okLat okLng : Degrees → Prop} {s t : DriverState} {a : DriverAction}
  {q : DriverReqId} {call : DriverCall} {stage : DriverStage}

/-- A new profile has no coordinates. -/
theorem located_new : ({} : DriverProfile).Located okLat okLng :=
  ⟨fun _ h => (by cases h), fun _ h => (by cases h)⟩

/-- The handler stores the coordinates of the request or keeps those of the
profile. -/
theorem handle_located {request : DriverRequest} {profile changed : DriverProfile}
    {now : Timestamp} {command : Option GeoCommand} (hrequest : request.Located okLat okLng)
    (hprofile : profile.Located okLat okLng)
    (h : request.handle profile now = .ok (changed, command)) : changed.Located okLat okLng := by
  rcases handle_ok h with ⟨payload, rfl, rfl, _⟩ | ⟨_, _, _, _, _, rfl, _⟩ | ⟨_, rfl, _⟩ |
    ⟨_, rfl, _⟩
  · obtain ⟨hlat, hlng⟩ := hrequest payload rfl
    constructor
    · rintro lat ⟨⟩
      exact hlat
    · rintro lng ⟨⟩
      exact hlng
  · exact hprofile
  · exact hprofile
  · exact hprofile

/-- A flush takes each coordinate from the session or leaves that of the row. -/
theorem flush_located {loaded changed row : DriverProfile} (hchanged : changed.Located okLat okLng)
    (hrow : row.Located okLat okLng) : (loaded.flush changed row).Located okLat okLng := by
  constructor
  · intro lat hlat
    dsimp only [DriverProfile.flush] at hlat
    split at hlat
    · exact hrow.1 lat hlat
    · exact hchanged.1 lat hlat
  · intro lng hlng
    dsimp only [DriverProfile.flush] at hlng
    split at hlng
    · exact hrow.2 lng hlng
    · exact hchanged.2 lng hlng

/-- One request moves, and may write a row. -/
theorem AllLocated.move (h : AllLocated okLat okLng s)
    (hreqs : t.requests = update s.requests q (some (call, stage)))
    (hcall : call.request.Located okLat okLng)
    (hworking : ∀ profile ∈ stage.profiles, profile.Located okLat okLng)
    (hstored : ∀ d row, t.store.profiles d = some row →
      s.store.profiles d = some row ∨ row.Located okLat okLng) : AllLocated okLat okLng t where
  stored := by
    intro d row hrow
    rcases hstored d row hrow with hold | hnew
    · exact h.stored d row hold
    · exact hnew
  calls := by
    intro p call' stage' hp
    rw [hreqs] at hp
    rcases update_some_iff.mp hp with ⟨_, hnew⟩ | ⟨_, hold⟩
    · cases hnew
      exact hcall
    · exact h.calls p call' stage' hold
  working := by
    intro p call' stage' hp
    rw [hreqs] at hp
    rcases update_some_iff.mp hp with ⟨_, hnew⟩ | ⟨_, hold⟩
    · cases hnew
      exact hworking
    · exact h.working p call' stage' hold

/-- A request ends without writing. -/
theorem AllLocated.finish (h : AllLocated okLat okLng s) {old : DriverStage}
    (hreq : s.requests q = some (call, old)) (outcome : DriverOutcome) :
    AllLocated okLat okLng (s.finish q call outcome) :=
  h.move rfl (h.calls q call old hreq) (by simp [DriverStage.profiles]) fun _ _ => Or.inl

/-- Nothing but the sweeps moves, and rows only lose their availability. -/
theorem AllLocated.sweep (h : AllLocated okLat okLng s) (hreqs : t.requests = s.requests)
    (hrows : ∀ d row, t.store.profiles d = some row → row.Located okLat okLng) :
    AllLocated okLat okLng t where
  stored := hrows
  calls := by
    rw [hreqs]
    exact h.calls
  working := by
    rw [hreqs]
    exact h.working

/-- **Every step keeps the conditions**, if what begins meets them. -/
theorem step_allLocated (h : AllLocated okLat okLng s)
    (hbegun : ∀ q user request, a = .begin q user request → request.Located okLat okLng)
    (hstep : driverStep cfg s a = some t) : AllLocated okLat okLng t := by
  cases a with
  | begin q user request =>
      obtain ⟨_, _, rfl⟩ := driver_begin hstep
      exact h.move rfl (hbegun q user request rfl) (by simp [DriverStage.profiles])
        fun _ _ => Or.inl
  | read q =>
      obtain ⟨call, hreq, ⟨profile, hrow, rfl⟩ | ⟨_, rfl⟩⟩ := driver_read hstep
      · refine h.move rfl (h.calls q call _ hreq) ?_ fun _ _ => Or.inl
        simpa [DriverStage.profiles] using h.stored _ profile hrow
      · exact h.move rfl (h.calls q call _ hreq) (by simp [DriverStage.profiles])
          fun _ _ => Or.inl
  | insert q =>
      obtain ⟨call, hreq, rfl | ⟨_, _, rfl⟩⟩ := driver_insert hstep
      · exact h.finish hreq _
      · refine h.move rfl (h.calls q call _ hreq) ?_ fun _ _ => Or.inl
        simpa [DriverStage.profiles] using located_new
  | handle q =>
      obtain ⟨call, profile, fresh, hreq, hcases⟩ := driver_handle hstep
      have hcall := h.calls q call _ hreq
      have hprofile : profile.Located okLat okLng := h.working q call _ hreq profile (by
        simp [DriverStage.profiles])
      rcases hcases with ⟨_, _, rfl⟩ | ⟨changed, command, hok, rfl⟩ | ⟨changed, hok, rfl⟩
      · exact h.finish hreq _
      · refine h.move rfl hcall ?_ fun _ _ => Or.inl
        simpa [DriverStage.profiles] using
          And.intro hprofile (handle_located hcall hprofile hok)
      · refine h.move rfl hcall ?_ fun _ _ => Or.inl
        simpa [DriverStage.profiles] using
          And.intro hprofile (handle_located hcall hprofile hok)
  | redis q =>
      obtain ⟨call, loaded, changed, fresh, command, hreq, ⟨pool, _, rfl⟩ | rfl⟩ :=
        driver_redis hstep
      · have hsession := h.working q call _ hreq
        exact h.move rfl (h.calls q call _ hreq) hsession fun _ _ => Or.inl
      · exact h.finish hreq _
  | commit q =>
      obtain ⟨call, loaded, changed, fresh, hreq, hcases⟩ := driver_commit hstep
      have hchanged : changed.Located okLat okLng := h.working q call _ hreq changed (by
        simp [DriverStage.profiles])
      rcases hcases with ⟨_, rfl⟩ | ⟨_, row, hrow, rfl⟩ | ⟨_, _, rfl⟩
      · refine h.move rfl (h.calls q call _ hreq) (by simp [DriverStage.profiles]) ?_
        intro d row' hrow'
        rcases update_some_iff.mp hrow' with ⟨_, rfl⟩ | ⟨_, hold⟩
        · exact Or.inr hchanged
        · exact Or.inl hold
      · refine h.move rfl (h.calls q call _ hreq) (by simp [DriverStage.profiles]) ?_
        intro d row' hrow'
        rcases update_some_iff.mp hrow' with ⟨_, rfl⟩ | ⟨_, hold⟩
        · exact Or.inr (flush_located hchanged (h.stored _ row hrow))
        · exact Or.inl hold
      · exact h.finish hreq _
  | abort q =>
      obtain ⟨call, stage, hreq, _, rfl⟩ := driver_abort hstep
      exact h.finish hreq _
  | beginSweep c =>
      obtain ⟨_, rfl⟩ := driver_beginSweep hstep
      exact h.sweep rfl h.stored
  | selectStale c found =>
      obtain ⟨_, _, _, rfl⟩ := driver_selectStale hstep
      exact h.sweep rfl h.stored
  | removeStale c =>
      obtain ⟨_, _, _, _, _, rfl⟩ := driver_removeStale hstep
      exact h.sweep rfl h.stored
  | commitSweep c =>
      obtain ⟨_, evicted, _, rfl⟩ := driver_commitSweep hstep
      refine h.sweep rfl ?_
      intro d row hrow
      dsimp only [DriverState.commitSweep] at hrow
      split at hrow
      · obtain ⟨old, hold, rfl⟩ := Option.map_eq_some_iff.mp hrow
        have hlocated := h.stored d old hold
        exact hlocated
      · exact h.stored d row hrow
  | abortSweep c =>
      obtain ⟨_, _, _, rfl⟩ := driver_abortSweep hstep
      exact h.sweep rfl h.stored
  | advance seconds =>
      obtain rfl := driver_advance hstep
      exact h.sweep rfl h.stored

/-- A command is a GEOADD of the request's latitude, or a ZREM. -/
theorem handle_command {request : DriverRequest} {profile changed : DriverProfile}
    {now : Timestamp} {command : GeoCommand} (hprofile : profile.Located okLat LngInBounds)
    (h : request.handle profile now = .ok (changed, some command)) :
    (∃ lat lng, command = .geoadd lat lng ∧ request.latitude profile = some lat ∧
      LngInBounds lng) ∨
    (command = .zrem ∧ request.latitude profile = none) := by
  rcases handle_ok h with ⟨payload, rfl, _, hcommand⟩ | ⟨lat, lng, rfl, hlat, hlng, _, hcommand⟩ |
    ⟨rfl, _, hcommand⟩ | ⟨_, _, hcommand⟩
  · obtain ⟨havailable, hsent⟩ := Option.ite_none_right_eq_some.mp hcommand.symm
    obtain rfl := Option.some.inj hsent
    exact Or.inl ⟨payload.lat, payload.lng, rfl, by simp [DriverRequest.latitude, havailable],
      payload.lng_mem⟩
  · obtain rfl := Option.some.inj hcommand
    exact Or.inl ⟨lat, lng, rfl, hlat, hprofile.2 lng hlng⟩
  · obtain rfl := Option.some.inj hcommand
    exact Or.inr ⟨rfl, rfl⟩
  · cases hcommand

/-- The latitude that a request sends is its own or that of the profile. -/
theorem latitude_located {request : DriverRequest} {profile : DriverProfile} {lat : Degrees}
    (hrequest : request.Located okLat okLng) (hprofile : profile.Located okLat okLng)
    (h : request.latitude profile = some lat) : okLat lat := by
  unfold DriverRequest.latitude at h
  split at h
  case h_1 payload =>
      obtain ⟨_, hsent⟩ := Option.ite_none_right_eq_some.mp h
      obtain rfl := Option.some.inj hsent
      exact (hrequest payload rfl).1
  case h_2 => exact hprofile.1 lat h
  case h_3 => cases h

/-- Redis answers a command exactly when it takes the latitude. -/
theorem command_answered_iff {request : DriverRequest} {profile changed : DriverProfile}
    {now : Timestamp} {command : GeoCommand} (hprofile : profile.Located okLat LngInBounds)
    (h : request.handle profile now = .ok (changed, some command)) (pool : GeoPool) (d : UserId) :
    (command.run pool d).isSome ↔ ∀ lat ∈ request.latitude profile, InGeoRange lat := by
  rcases handle_command hprofile h with ⟨lat, lng, rfl, hlat, hlng⟩ | ⟨rfl, hnone⟩
  · simp [GeoCommand.run, upsertDriverLocation, hlat, ← validCoordinates_iff hlng]
  · simp [GeoCommand.run, hnone]

/-- The same for a search. -/
theorem search_answered_iff {cfg : Settings} {dist : GeoDistance} {pool : GeoPool}
    {lat lng : Degrees} (hlng : LngInBounds lng) :
    (findNearbyDrivers cfg dist pool lat lng).isSome ↔ InGeoRange lat := by
  simp [findNearbyDrivers, geosearch, ← validCoordinates_iff hlng]

end Drivers

/-- A heartbeat or a new ride that arrives has a latitude that Redis takes. -/
def ServerAction.BringsInRange : ServerAction → Prop
  | .arrive (.driver _ (.heartbeat payload)) _ => InGeoRange payload.lat
  | .arrive (.createRide _ payload _) _ => InGeoRange payload.pickupLat
  | _ => True

section Main

variable {cfg : Settings} {fns : ServerFunctions} {okLat okLng : Degrees → Prop}
  {ok : ServerState → ServerAction → Prop} {users : List User} {acts : List ServerAction}
  {s : ServerState}

/-- What all heartbeats of a run meet, all coordinates of drivers meet. -/
theorem drivers_located
    (hbegun : ∀ q request token, .arrive (.driver q request) token ∈ acts →
      request.Located okLat okLng)
    (h : Steps (serverSystem cfg fns) ok (.init users) acts s) :
    AllLocated okLat okLng s.drivers := by
  have hinit : AllLocated okLat okLng .init := by
    constructor <;> intros <;> simp_all [DriverState.init, DriverStore.init]
  obtain ⟨seen, hrun⟩ := drivers_run h
  refine hrun.invariant (AllLocated okLat okLng) hinit ?_
  rintro s a t hs ⟨arrival, hmem, hby⟩ hstep
  refine step_allLocated hs ?_ hstep
  rintro q user request rfl
  obtain ⟨token, rfl⟩ := hby
  exact hbegun q request token hmem

/-- Redis answers the command that a driver's request is about to send if and
only if it takes the latitude. -/
theorem sending_answered_iff (h : Steps (serverSystem cfg fns) ok (.init users) acts s)
    {q : DriverReqId} {call : DriverCall} {loaded changed : DriverProfile} {fresh : Bool}
    {command : GeoCommand}
    (hreq : s.drivers.requests q = some (call, .sending loaded changed fresh command))
    (pool : GeoPool) :
    (command.run pool call.user.id).isSome ↔
      ∀ lat ∈ call.request.latitude loaded, InGeoRange lat := by
  obtain ⟨seen, hrun⟩ := drivers_run h
  obtain ⟨_, now, hhandle⟩ := (driver_books_kept hrun).fine hreq
  have hlocated : AllLocated (fun _ => True) LngInBounds s.drivers :=
    drivers_located (fun _ _ _ _ payload _ => ⟨trivial, payload.lng_mem⟩) h
  have hloaded := hlocated.working q call _ hreq loaded (by simp [DriverStage.profiles])
  exact command_answered_iff hloaded hhandle pool _

/-- A search that a transition is about to send is answered if and only if Redis
takes the latitude of the pickup. -/
theorem searching_answered_iff (h : Steps (serverSystem cfg fns) ok (.init users) acts s)
    {q : ReqId} {call : TransitionCall} {ride : Ride} {pending : List Applied}
    (hreq : s.rides.requests q = some (call, .holding ride pending .search)) (pool : GeoPool) :
    (findNearbyDrivers cfg fns.dist pool ride.pickupLat ride.pickupLng).isSome ↔
      InGeoRange ride.pickupLat := by
  have hrides : AllRides (fun ride => LngInBounds ride.pickupLng) s.rides :=
    rides_carry ⟨fun _ _ payload _ _ _ _ => payload.pickup_lng_mem, fun _ _ _ _ _ hrow _ => hrow⟩
      (fun _ _ _ _ _ => trivial : FineBodies (fun _ => True) acts) h
  exact search_answered_iff (hrides.held q call ride pending _ hreq)

/-- If Redis takes the latitudes of all heartbeats that have arrived, it takes
that of every command. -/
theorem sending_in_range (h : Steps (serverSystem cfg fns) ok (.init users) acts s)
    (hrange : ∀ a ∈ acts, a.BringsInRange) {q : DriverReqId} {call : DriverCall}
    {loaded changed : DriverProfile} {fresh : Bool} {command : GeoCommand}
    (hreq : s.drivers.requests q = some (call, .sending loaded changed fresh command)) :
    ∀ lat ∈ call.request.latitude loaded, InGeoRange lat := by
  have hranged : AllLocated InGeoRange (fun _ => True) s.drivers := by
    refine drivers_located ?_ h
    rintro p request token hmem payload rfl
    exact ⟨hrange _ hmem, trivial⟩
  intro lat hlat
  have hloaded := hranged.working q call _ hreq loaded (by simp [DriverStage.profiles])
  exact latitude_located (hranged.calls q call _ hreq) hloaded hlat

/-- If it takes those of all new rides, it takes that of every search. -/
theorem searching_in_range (h : Steps (serverSystem cfg fns) ok (.init users) acts s)
    (hrange : ∀ a ∈ acts, a.BringsInRange) {q : ReqId} {call : TransitionCall} {ride : Ride}
    {pending : List Applied}
    (hreq : s.rides.requests q = some (call, .holding ride pending .search)) :
    InGeoRange ride.pickupLat := by
  have hranged : AllRides (fun ride => InGeoRange ride.pickupLat) s.rides :=
    rides_carry ⟨fun _ _ _ _ _ _ hpayload => hpayload, fun _ _ _ _ _ hrow _ => hrow⟩
      (fun _ payload _ _ hmem => hrange _ hmem :
        FineBodies (fun payload => InGeoRange payload.pickupLat) acts) h
  exact hranged.held q call ride pending _ hreq

end Main

end RideFlow
