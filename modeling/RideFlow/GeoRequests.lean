import RideFlow.RequestEndings
import RideFlow.ServerProgress

/-!
# How the requests with coordinates end

Three handlers send coordinates to Redis: the heartbeat and the change of
availability with GEOADD, the transition that matches with GEOSEARCH.  Redis
raises for a latitude that it does not take, and nobody catches that: the request
has failed.  So, of a request that is about to send its command in any state that
the server reaches (`geo_requests_end`):

* if Redis takes the latitude, the request is answered 200 whatever the others do,
  unless its process is stopped, and it can always be served to that answer;
* if not, its next step is its failure.

Among the steps of the drivers' requests there is one more that fails, with or
without coordinates: the INSERT of a profile that another first request of the same
driver has committed since the SELECT.  `ServerState.Crashes` lists them all.
-/

namespace RideFlow

open Function Runs Workers

/-- The requests that may send coordinates to Redis. -/
inductive GeoRequest
  | driver (q : DriverReqId)
  | ride (q : ReqId)

/-- Its name among the requests of the server. -/
def GeoRequest.name : GeoRequest → RequestName
  | .driver q => .driver q
  | .ride q => .ride q

/-- Its process is stopped. -/
def GeoRequest.abort : GeoRequest → ServerAction
  | .driver q => .driver (.abort q)
  | .ride q => .ride (.abort q)

/-- The latitude of the GEO command that a driver's request is about to send. -/
def DriverStage.sends (call : DriverCall) : DriverStage → Option (Option Degrees)
  | .sending profile _ _ _ => some (call.request.latitude profile)
  | _ => none

/-- The latitude of the GEOSEARCH that a transition is about to send. -/
def Stage.sends : Stage → Option (Option Degrees)
  | .holding ride _ .search => some (some ride.pickupLat)
  | _ => none

namespace ServerState

variable (s : ServerState)

/-- How the request has ended, if it has. -/
def ending : GeoRequest → Option Ending
  | .driver q => s.drivers.ending q
  | .ride q => s.rides.ending q

/-- The request is about to send its command, with this latitude; a ZREM has
none. -/
def sends : GeoRequest → Option (Option Degrees)
  | .driver q => (s.drivers.requests q).bind fun c => c.2.sends c.1
  | .ride q => (s.rides.requests q).bind fun c => c.2.sends

/-- The steps that end a request in an error that nobody catches: its process is
stopped, the profile that it INSERTs is there by now, or its latitude is one that
Redis does not take.  A transition whose search is refused can only be stopped. -/
inductive Crashes : GeoRequest → ServerAction → Prop
  | aborted (g : GeoRequest) : Crashes g g.abort
  | inserted {q : DriverReqId} {call : DriverCall} {row : DriverProfile}
      (hreq : s.drivers.requests q = some (call, .creating))
      (hrow : s.drivers.store.profiles call.user.id = some row) :
      Crashes (.driver q) (.driver (.insert q))
  | refused {q : DriverReqId} {lat : Degrees} (hsends : s.sends (.driver q) = some (some lat))
      (hout : ¬ InGeoRange lat) : Crashes (.driver q) (.driver (.redis q))

/-- Whatever the server does, the request is answered 200 if it ends, unless it is
stopped; and it can be served to its end. -/
structure FinishesWell (cfg : Settings) (fns : ServerFunctions) (g : GeoRequest) : Prop where
  kept : ∀ more t, Steps (serverSystem cfg fns) (fun _ a => a ≠ g.abort) s more t →
    t.ending g = none ∨ t.ending g = some .ok
  served : ∃ more t,
    Steps (serverSystem cfg fns) (fun _ a => a.serves = some g.name ∧ a ≠ g.abort) s more t ∧
      t.ending g = some .ok

/-- The request has a step to take, and fails in it. -/
structure MustFail (cfg : Settings) (fns : ServerFunctions) (g : GeoRequest) : Prop where
  fails : ∀ a t, a.serves = some g.name → serverStep cfg fns s a = some t →
    t.ending g = some .failed
  moves : ∃ a t, a.serves = some g.name ∧ serverStep cfg fns s a = some t

/-- The request can only be answered 200, or be stopped. -/
def Safe : GeoRequest → Prop
  | .driver q => s.drivers.Safe q
  | .ride q => s.rides.Safe q

end ServerState

section Server

variable {cfg : Settings} {fns : ServerFunctions} {users : List User} {acts : List ServerAction}
  {s t : ServerState} {a : ServerAction} {g : GeoRequest} {lat : Option Degrees}

/-- The books of the drivers' requests of a server run. -/
theorem server_driverBooks (h : Steps (serverSystem cfg fns) free (.init users) acts s) :
    DriverBooks s.drivers := by
  obtain ⟨_, hrun⟩ := drivers_run h
  exact driver_books_kept hrun

/-- Requests keep to the keys of their tables in every run. -/
theorem server_kept_keyed (h : Steps (serverSystem cfg fns) free (.init users) acts s) :
    s.Keyed :=
  h.invariant ServerState.Keyed (keyed_init users) fun _ _ _ hs _ hstep => server_keyed hs hstep

/-- A driver's request that is about to send a command, and what it sends. -/
theorem sends_driver {q : DriverReqId} (h : s.sends (.driver q) = some lat) :
    ∃ call loaded changed fresh command,
      s.drivers.requests q = some (call, .sending loaded changed fresh command) ∧
        call.request.latitude loaded = lat := by
  obtain ⟨⟨call, stage⟩, hreq, hsends⟩ := Option.bind_eq_some_iff.mp h
  cases stage with
  | sending loaded changed fresh command =>
      exact ⟨call, loaded, changed, fresh, command, hreq, Option.some.inj hsends⟩
  | _ => cases hsends

/-- A transition that is about to search, and where. -/
theorem sends_ride {q : ReqId} (h : s.sends (.ride q) = some lat) :
    ∃ call ride pending, s.rides.requests q = some (call, .holding ride pending .search) ∧
      some ride.pickupLat = lat := by
  obtain ⟨⟨call, stage⟩, hreq, hsends⟩ := Option.bind_eq_some_iff.mp h
  cases stage with
  | holding ride pending todo =>
      cases todo with
      | search => exact ⟨call, ride, pending, hreq, Option.some.inj hsends⟩
      | _ => cases hsends
  | _ => cases hsends

/-- A request that crashes is a driver's that does, or a transition that is
stopped. -/
theorem crashes_driver (h : Steps (serverSystem cfg fns) free (.init users) acts s)
    {q : DriverReqId} :
    s.Crashes (.driver q) a ↔ ∃ b, a = .driver b ∧ s.drivers.Crashes q b := by
  constructor
  · intro hcrash
    cases hcrash with
    | aborted => exact ⟨.abort q, rfl, .aborted⟩
    | inserted hreq hrow => exact ⟨.insert q, rfl, .inserted hreq hrow⟩
    | @refused _ lat hsends hout =>
        obtain ⟨call, loaded, changed, fresh, command, hreq, hlat⟩ := sends_driver hsends
        refine ⟨.redis q, rfl, .refused hreq (Option.eq_none_iff_forall_ne_some.mpr ?_)⟩
        intro pool hrun
        have hall := (sending_answered_iff h hreq s.drivers.store.pool).mp (by simp [hrun])
        exact hout (hall lat hlat)
  · rintro ⟨b, rfl, hcrash⟩
    cases hcrash with
    | aborted => exact .aborted (.driver q)
    | inserted hreq hrow => exact .inserted hreq hrow
    | @refused call loaded _ _ command hreq hrefused =>
        have hout := mt (sending_answered_iff h hreq s.drivers.store.pool).mpr (by simp [hrefused])
        push Not at hout
        obtain ⟨lat, hlat, hout⟩ := hout
        refine .refused ?_ hout
        simp only [ServerState.sends, hreq, Option.bind_some, DriverStage.sends]
        exact congrArg some hlat

/-- A transition crashes only by being stopped. -/
theorem crashes_ride {q : ReqId} : s.Crashes (.ride q) a ↔ a = .ride (.abort q) := by
  constructor
  · intro hcrash
    cases hcrash
    rfl
  · rintro rfl
    exact .aborted (.ride q)

/-- **A request fails only by crashing.** -/
theorem server_failed_iff (h : Steps (serverSystem cfg fns) free (.init users) acts s)
    (hstep : serverStep cfg fns s a = some t) :
    t.ending g = some .failed ↔ s.ending g = some .failed ∨ s.Crashes g a := by
  have hmove := (server_cases hstep).2
  cases g with
  | driver q =>
      have hbooks := server_driverBooks h
      have hending : ∀ u : ServerState, u.ending (.driver q) = u.drivers.ending q := fun _ => rfl
      rw [crashes_driver h, hending, hending]
      constructor
      · intro hfailed
        rcases server_drivers hstep with hsame | ⟨b, _, hown, hb⟩
        · rw [hsame] at hfailed
          exact Or.inl hfailed
        · rcases (driver_failed_iff hbooks hb).mp hfailed with hold | hcrash
          · exact Or.inl hold
          · exact Or.inr ⟨b, hown (by cases hcrash <;> rfl), hcrash⟩
      · rintro (hfailed | ⟨b, rfl, hcrash⟩)
        · rcases server_drivers hstep with hsame | ⟨b, _, _, hb⟩
          · rw [hsame]
            exact hfailed
          · exact (driver_failed_iff hbooks hb).mpr (Or.inl hfailed)
        · obtain ⟨_, _, hb, rfl⟩ := server_driver hmove
          exact hcrash.fails hb
  | ride q =>
      have hending : ∀ u : ServerState, u.ending (.ride q) = u.rides.ending q := fun _ => rfl
      rw [crashes_ride, hending, hending]
      constructor
      · intro hfailed
        rcases server_rides hstep with hsame | ⟨b, _, hown, _, hb⟩ | ⟨_, _, _, _, hinsert⟩
        · rw [hsame] at hfailed
          exact Or.inl hfailed
        · rcases (ride_failed_iff hb).mp hfailed with hold | rfl
          · exact Or.inl hold
          · exact Or.inr (hown rfl)
        · rw [hinsert] at hfailed
          exact Or.inl hfailed
      · rintro (hfailed | rfl)
        · rcases server_rides hstep with hsame | ⟨b, _, _, _, hb⟩ | ⟨_, _, _, _, hinsert⟩
          · rw [hsame]
            exact hfailed
          · exact (ride_failed_iff hb).mpr (Or.inl hfailed)
          · rw [hinsert]
            exact hfailed
        · obtain ⟨_, _, _, hb, rfl⟩ := server_ride hmove
          exact (ride_failed_iff hb).mpr (Or.inr rfl)

/-- Redis takes the latitude that the request is about to send. -/
theorem safe_of_sends (h : Steps (serverSystem cfg fns) free (.init users) acts s)
    (hsends : s.sends g = some lat) (hrange : ∀ l ∈ lat, InGeoRange l) : s.Safe g := by
  cases g with
  | driver q =>
      obtain ⟨call, loaded, changed, fresh, command, hreq, rfl⟩ := sends_driver hsends
      have hanswered : ∀ pool, (command.run pool call.user.id).isSome := fun pool =>
        (sending_answered_iff h hreq pool).mpr hrange
      exact ⟨call, _, hreq, hanswered⟩
  | ride q =>
      obtain ⟨call, ride, pending, hreq, rfl⟩ := sends_ride hsends
      have hpickup : InGeoRange ride.pickupLat := hrange _ rfl
      exact ⟨call, _, hreq, hpickup⟩

/-- **A safe request stays safe until it is stopped.** -/
theorem server_safe (h : Steps (serverSystem cfg fns) free (.init users) acts s)
    (hsafe : s.Safe g) (hgoes : a ≠ g.abort) (hstep : serverStep cfg fns s a = some t) :
    t.Safe g := by
  cases g with
  | driver q =>
      have hsafe : s.drivers.Safe q := hsafe
      show t.drivers.Safe q
      rcases server_drivers hstep with hsame | ⟨b, _, hown, hb⟩
      · rw [hsame]
        exact hsafe
      · refine step_driver_safe (server_driverBooks h) hsafe ?_ hb
        rintro rfl
        exact hgoes (hown rfl)
  | ride q =>
      have hsafe : s.rides.Safe q := hsafe
      show t.rides.Safe q
      rcases server_rides hstep with hsame | ⟨b, _, hown, _, hb⟩ | ⟨_, _, _, _, hinsert⟩
      · rw [hsame]
        exact hsafe
      · refine step_ride_safe (server_kept_keyed h).fit hsafe ?_ hb
        rintro rfl
        exact hgoes (hown rfl)
      · rw [hinsert]
        exact hsafe

/-- A safe request has not ended otherwise than with a 200. -/
theorem server_safe_ending (hsafe : s.Safe g) : s.ending g = none ∨ s.ending g = some .ok := by
  cases g with
  | driver q => exact driver_safe_ending hsafe
  | ride q => exact ride_safe_ending hsafe

/-- A safe request has been answered 200, or can be served. -/
theorem server_safe_moves (h : Steps (serverSystem cfg fns) free (.init users) acts s)
    (hsafe : s.Safe g) :
    s.ending g = some .ok ∨
      ∃ a t, (a.serves = some g.name ∧ a ≠ g.abort) ∧ serverStep cfg fns s a = some t := by
  have hkeyed := server_kept_keyed h
  cases g with
  | driver q =>
      rcases driver_safe_moves hsafe with hok | hmoves
      · exact Or.inl hok
      · obtain ⟨call, stage, hreq, _⟩ := hsafe
        obtain ⟨b, t, hq, hplain, hstep⟩ :=
          takes_driver hkeyed hmoves (by simp [ServerState.entered, hreq])
        refine Or.inr
          ⟨.driver b, t, ⟨by simp [ServerAction.serves, hq, GeoRequest.name], ?_⟩, hstep⟩
        rintro ⟨⟩
        cases hplain
  | ride q =>
      rcases ride_safe_moves hkeyed.fit hsafe with
        hok | hmoves | ⟨call, ride, pending, hreq, hpickup⟩
      · exact Or.inl hok
      · obtain ⟨call, stage, hreq, _⟩ := hsafe
        obtain ⟨b, t, hq, hplain, hstep⟩ :=
          takes_ride hkeyed hmoves (by simp [ServerState.entered, hreq])
        refine Or.inr ⟨.ride b, t, ⟨by simp [ServerAction.serves, hq, GeoRequest.name], ?_⟩, hstep⟩
        rintro ⟨⟩
        cases hplain
      · have hanswered := (searching_answered_iff h hreq s.drivers.store.pool).mpr hpickup
        obtain ⟨candidates, hfound⟩ := Option.isSome_iff_exists.mp hanswered
        obtain ⟨t, ht⟩ := takes_search hkeyed hreq hfound
        refine Or.inr ⟨.ride (.search q candidates), t, ⟨rfl, ?_⟩, ht⟩
        rintro ⟨⟩

/-- The worker of a step that serves the request is the request. -/
theorem worker_of_serves (hserves : a.serves = some g.name) :
    a.worker = some (.request g.name) := by
  cases a with
  | create b =>
      cases hb : b.request with
      | none => simp [ServerAction.serves, hb] at hserves
      | some q => cases g <;> simp [ServerAction.serves, hb, GeoRequest.name] at hserves
  | _ => exact congrArg (Option.map Worker.request) hserves

/-- **A safe request finishes well.** -/
theorem safe_finishes_well (h : Steps (serverSystem cfg fns) free (.init users) acts s)
    (hsafe : s.Safe g) : s.FinishesWell cfg fns g where
  kept := by
    intro more t hmore
    have hkept := hmore.invariant
      (fun u => (∃ acts, Steps (serverSystem cfg fns) free (.init users) acts u) ∧ u.Safe g)
      ⟨⟨acts, h⟩, hsafe⟩ (by
        rintro u a v ⟨⟨front, hu⟩, hsafe⟩ hgoes hstep
        exact ⟨⟨front ++ [a], hu.snoc trivial hstep⟩, server_safe hu hsafe hgoes hstep⟩)
    exact server_safe_ending hkept.2
  served := by
    refine comes_to_its_end
      (fun u => (∃ acts, Steps (serverSystem cfg fns) free (.init users) acts u) ∧ u.Safe g)
      (fun u => u.ending g = some .ok) (fun u => u.left (.request g.name)) ?_ ⟨⟨acts, h⟩, hsafe⟩
    rintro u ⟨⟨front, hu⟩, hsafe⟩
    rcases server_safe_moves hu hsafe with hok | ⟨a, t, hserves, hstep⟩
    · exact Or.inl hok
    · have hless := (server_turn hstep).1 _ (worker_of_serves hserves.1)
      exact Or.inr ⟨a, t, hserves, hstep,
        ⟨⟨front ++ [a], hu.snoc trivial hstep⟩, server_safe hu hsafe hserves.2 hstep⟩, hless⟩

/-- A request that has entered is served by no arrival. -/
theorem entered_no_arrival {request : ProtectedRequest} {token : String}
    (hentered : s.entered request.name = true) :
    serverStep cfg fns s (.arrive request token) ≠ some t := by
  intro hstep
  rcases server_arrive (server_cases hstep).2 with ⟨_, _, hnot, _⟩ | ⟨user, _, hbegin⟩
  · cases hentered.symm.trans hnot
  · rcases enterHandler_cases hbegin with ⟨q, body, drivers, rfl, hdrivers, _⟩ |
      ⟨q, rideId, payload, rides, rfl, hrides, _⟩ | ⟨q, payload, key, creates, rfl, hcreates, _⟩
    · obtain ⟨hnone, _⟩ := driver_begin hdrivers
      simp [ServerState.entered, ProtectedRequest.name, hnone] at hentered
    · obtain ⟨hnone, _⟩ := step_begin hrides
      simp [ServerState.entered, ProtectedRequest.name, hnone] at hentered
    · obtain ⟨hnone, _⟩ := create_begin hcreates
      simp [ServerState.entered, ProtectedRequest.name, hnone] at hentered

/-- A step that serves a driver's request that has entered is one of its own. -/
theorem serves_driver {q : DriverReqId} (hentered : s.entered (.driver q) = true)
    (hserves : a.serves = some (.driver q)) (hstep : serverStep cfg fns s a = some t) :
    ∃ b drivers, a = .driver b ∧ b.request = some q ∧
      driverStep cfg s.drivers b = some drivers := by
  cases a with
  | arrive request token =>
      have hname : request.name = .driver q := Option.some.inj hserves
      exact absurd hstep (entered_no_arrival (hname ▸ hentered))
  | driver b =>
      obtain ⟨_, drivers, hb, _⟩ := server_driver (server_cases hstep).2
      exact ⟨b, drivers, rfl, by simpa [ServerAction.serves] using hserves, hb⟩
  | register _ => cases hserves
  | auth _ => simp [ServerAction.serves] at hserves
  | ride _ => simp [ServerAction.serves] at hserves
  | create _ => simp [ServerAction.serves] at hserves
  | advance _ => cases hserves

/-- The same for a transition, whose search returns what GEOSEARCH finds. -/
theorem serves_ride {q : ReqId} (hentered : s.entered (.ride q) = true)
    (hserves : a.serves = some (.ride q)) (hstep : serverStep cfg fns s a = some t) :
    ∃ b rides, a = .ride b ∧ b.request = some q ∧ s.finds cfg fns b = true ∧
      rideStep cfg s.rides b = some rides := by
  cases a with
  | arrive request token =>
      have hname : request.name = .ride q := Option.some.inj hserves
      exact absurd hstep (entered_no_arrival (hname ▸ hentered))
  | ride b =>
      obtain ⟨_, hfinds, rides, hb, _⟩ := server_ride (server_cases hstep).2
      exact ⟨b, rides, rfl, by simpa [ServerAction.serves] using hserves, hfinds, hb⟩
  | register _ => cases hserves
  | auth _ => simp [ServerAction.serves] at hserves
  | driver _ => simp [ServerAction.serves] at hserves
  | create _ => simp [ServerAction.serves] at hserves
  | advance _ => cases hserves

/-- **A request at a latitude that Redis does not take must fail.** -/
theorem refused_must_fail (h : Steps (serverSystem cfg fns) free (.init users) acts s)
    (hsends : s.sends g = some lat) (hout : ∃ l ∈ lat, ¬ InGeoRange l) :
    s.MustFail cfg fns g := by
  obtain ⟨l, hl, hout⟩ := hout
  have hkeyed := server_kept_keyed h
  cases g with
  | driver q =>
      obtain ⟨call, loaded, changed, fresh, command, hreq, hlat⟩ := sends_driver hsends
      have hentered : s.entered (.driver q) = true := by simp [ServerState.entered, hreq]
      refine ⟨?_, ?_⟩
      · intro a t hserves hstep
        refine (server_failed_iff h hstep).mpr (Or.inr ?_)
        obtain ⟨b, drivers, rfl, hq, hb⟩ := serves_driver hentered hserves hstep
        rcases sending_steps hreq hq hb with rfl | rfl
        · refine .refused ?_ hout
          rw [hsends]
          exact congrArg some hl
        · exact .aborted (.driver q)
      · obtain ⟨b, t, hq, _, hstep⟩ :=
          takes_driver hkeyed (DriverStage.holding_moves hreq rfl) hentered
        exact ⟨.driver b, t, by simp [ServerAction.serves, hq, GeoRequest.name], hstep⟩
  | ride q =>
      obtain ⟨call, ride, pending, hreq, rfl⟩ := sends_ride hsends
      obtain rfl : ride.pickupLat = l := Option.some.inj hl
      have hentered : s.entered (.ride q) = true := by simp [ServerState.entered, hreq]
      refine ⟨?_, ?_⟩
      · intro a t hserves hstep
        refine (server_failed_iff h hstep).mpr (Or.inr ?_)
        obtain ⟨b, rides, rfl, hq, hfinds, hb⟩ := serves_ride hentered hserves hstep
        rcases searching_steps hreq hq hb with ⟨candidates, rfl⟩ | rfl
        · simp only [ServerState.finds, hreq, decide_eq_true_eq] at hfinds
          have hanswered := (searching_answered_iff h hreq s.drivers.store.pool).mp
            (Option.isSome_iff_exists.mpr ⟨candidates, hfinds⟩)
          exact absurd hanswered hout
        · exact .aborted (.ride q)
      · have hstopped : ∃ t, serverStep cfg fns s (.ride (.abort q)) = some t := by
          refine hkeyed.takes ?_ ?_
          · rintro name ⟨⟩
            exact hentered
          · simp [serverMove, RideAction.within, ServerState.finds, hreq, rideStep]
        obtain ⟨t, ht⟩ := hstopped
        exact ⟨.ride (.abort q), t, rfl, ht⟩

/-- A handler rejects a request with a client error. -/
theorem server_rejects (h : Steps (serverSystem cfg fns) free (.init users) acts s)
    {e : Rejection} (he : s.ending g = some (.rejected e)) : e.IsClientError := by
  induction h generalizing e with
  | nil => cases g <;> cases he
  | @snoc mid s front a before hok hstep ih =>
      cases g with
      | driver q =>
          have hmid : mid.drivers.ending q = some (.rejected e) → e.IsClientError := fun h => ih h
          have he : s.drivers.ending q = some (.rejected e) := he
          rcases server_drivers hstep with hsame | ⟨b, _, _, hb⟩
          · exact hmid (hsame ▸ he)
          · by_cases hserves : b.request = some q
            · rcases driver_ends (server_driverBooks before) hserves hb with
                hnone | hok | hrejected | ⟨hfailed, _⟩
              · cases hnone.symm.trans he
              · cases hok.symm.trans he
              · cases hrejected.symm.trans he
                exact ⟨by decide, by decide⟩
              · cases hfailed.symm.trans he
            · refine hmid ?_
              rw [DriverState.ending, driver_unserved hb hserves] at he
              exact he
      | ride q =>
          have hmid : mid.rides.ending q = some (.rejected e) → e.IsClientError := fun h => ih h
          have he : s.rides.ending q = some (.rejected e) := he
          rcases server_rides hstep with hsame | ⟨b, _, _, _, hb⟩ | ⟨_, _, _, _, hinsert⟩
          · exact hmid (hsame ▸ he)
          · by_cases hserves : b.request = some q
            · rcases ride_ends hserves hb with hnone | hok | ⟨e', hrejected, hclient⟩ | ⟨hfailed, _⟩
              · cases hnone.symm.trans he
              · cases hok.symm.trans he
              · cases hrejected.symm.trans he
                exact hclient
              · cases hfailed.symm.trans he
            · exact hmid ((ride_ending_same (ride_unserved hb hserves)).symm.trans he)
          · rw [hinsert] at he
            exact hmid he

/-- The step crashes no request, but where Redis does not take its latitude. -/
def crashesOnlyAtRedis (s : ServerState) (a : ServerAction) : Prop :=
  ∀ g, s.Crashes g a → ∃ lat, s.sends g = some (some lat) ∧ ¬ InGeoRange lat

/-- The latitude that a request is about to send is one of those that have
arrived. -/
theorem sends_in_range (h : Steps (serverSystem cfg fns) free (.init users) acts s)
    (hrange : ∀ a ∈ acts, a.BringsInRange) (hsends : s.sends g = some lat) :
    ∀ l ∈ lat, InGeoRange l := by
  cases g with
  | driver q =>
      obtain ⟨_, _, _, _, _, hreq, rfl⟩ := sends_driver hsends
      exact sending_in_range h hrange hreq
  | ride q =>
      obtain ⟨_, _, _, hreq, rfl⟩ := sends_ride hsends
      rintro l hl
      obtain rfl := Option.some.inj hl
      exact searching_in_range h hrange hreq

/-- Where all latitudes are in range, and nothing else crashes, nothing fails. -/
theorem nothing_fails
    (h : Steps (serverSystem cfg fns) crashesOnlyAtRedis (.init users) acts s)
    (hrange : ∀ a ∈ acts, a.BringsInRange) : s.ending g ≠ some .failed := by
  refine h.history (fun front u => (∀ a ∈ front, a.BringsInRange) →
    ∀ g, u.ending g ≠ some .failed) ?_ ?_ hrange g
  · rintro _ (q | q) hfailed
    · cases hfailed
    · cases hfailed
  · intro front u a v hbefore ih hok hstep hfront g hfailed
    have hfree := hbefore.mono fun _ _ _ => trivial
    have hfront : ∀ a ∈ front, a.BringsInRange := fun b hb =>
      hfront b (List.mem_append_left _ hb)
    rcases (server_failed_iff hfree hstep).mp hfailed with hold | hcrash
    · exact ih hfront g hold
    · obtain ⟨lat, hsends, hout⟩ := hok g hcrash
      exact hout (sends_in_range hfree hfront hsends lat rfl)

/-- **How the requests with coordinates end.**  In every state that the server
reaches,

* a request about to send its command finishes well, if Redis takes the latitude:
  a heartbeat's own, if the loaded profile is available, the last one of the profile
  for a driver that goes available, the pickup's for a search; if Redis does not, the
  request must fail;
* a step fails a request if and only if it crashes it;
* who is rejected, is rejected with a client error;
* if Redis takes the latitudes of all heartbeats and pickups that have arrived, every
  request about to send its command finishes well, and none has failed, where nothing
  but Redis makes requests crash. -/
theorem geo_requests_end (h : Steps (serverSystem cfg fns) free (.init users) acts s) :
    (∀ g lat, s.sends g = some lat →
      ((∀ l ∈ lat, InGeoRange l) → s.FinishesWell cfg fns g) ∧
      ((∃ l ∈ lat, ¬ InGeoRange l) → s.MustFail cfg fns g)) ∧
    (∀ g a t, serverStep cfg fns s a = some t →
      (t.ending g = some .failed ↔ s.ending g = some .failed ∨ s.Crashes g a)) ∧
    (∀ g e, s.ending g = some (.rejected e) → e.IsClientError) ∧
    ((∀ a ∈ acts, a.BringsInRange) →
      (∀ g lat, s.sends g = some lat → s.FinishesWell cfg fns g) ∧
      (Steps (serverSystem cfg fns) crashesOnlyAtRedis (.init users) acts s →
        ∀ g, s.ending g ≠ some .failed)) := by
  refine ⟨fun g lat hsends => ⟨?_, ?_⟩, ?_, ?_, fun hrange => ⟨?_, ?_⟩⟩
  · exact fun hin => safe_finishes_well h (safe_of_sends h hsends hin)
  · exact refused_must_fail h hsends
  · exact fun g a t hstep => server_failed_iff h hstep
  · exact fun g e he => server_rejects h he
  · exact fun g lat hsends =>
      safe_finishes_well h (safe_of_sends h hsends (sends_in_range h hrange hsends))
  · exact fun hcrashes g => nothing_fails hcrashes hrange

end Server

/-- The driver, who has sent a heartbeat, is about to go available. -/
def goesAvailable : List ServerAction := (driverAppears 0 1 driverAccessToken).take 8

/-- It will be, unless the process is stopped. -/
theorem driver_goes_available : ∃ s,
    Steps (serverSystem {} sampleTown) free (.init townUsers) goesAvailable s ∧
    s.sends (.driver 1) = some (some sampleHeartbeat.lat) ∧
    s.FinishesWell {} sampleTown (.driver 1) := by
  have hreplay : (exec (serverSystem {} sampleTown) (.init townUsers) goesAvailable).any
      (fun s => s.sends (.driver 1) = some (some sampleHeartbeat.lat)) = true := by decide +kernel
  obtain ⟨s, hrun, hs⟩ := Steps.of_exec_any hreplay
  have hsends := of_decide_eq_true hs
  refine ⟨s, hrun, hsends, ((geo_requests_end hrun).1 _ _ hsends).1 ?_⟩
  rintro lat hlat
  obtain rfl := Option.some.inj hlat
  norm_num [InGeoRange, sampleHeartbeat, sampleBody]

/-- A heartbeat from beyond the latitudes that Redis takes. -/
def polarHeartbeat : HeartbeatRequest where
  lat := 86
  lng := 0
  lat_mem := by norm_num
  lng_mem := by norm_num

/-- The driver, who is available, sends it. -/
def driveToThePole : List ServerAction :=
  driverAppears 0 1 driverAccessToken ++
    [.arrive (.driver 2 (.heartbeat polarHeartbeat)) driverAccessToken,
      .driver (.read 2), .driver (.handle 2)]

/-- **An accepted heartbeat crashes.** -/
theorem polar_heartbeat_crashes :
    ¬ ∀ (cfg : Settings) (fns : ServerFunctions) (users : List User) (acts : List ServerAction)
      (s : ServerState), Steps (serverSystem cfg fns) free (.init users) acts s →
        ∀ g lat, s.sends g = some lat → s.FinishesWell cfg fns g := by
  intro hclaim
  have hreplay : (exec (serverSystem {} sampleTown) (.init townUsers) driveToThePole).any
      (fun s => s.sends (.driver 2) = some (some 86) ∧
        (serverStep {} sampleTown s (.driver (.redis 2))).any fun t =>
          t.ending (.driver 2) = some .failed) = true := by decide +kernel
  obtain ⟨s, hrun, hs⟩ := Steps.of_exec_any hreplay
  obtain ⟨hsends, hstep⟩ := of_decide_eq_true hs
  obtain ⟨t, hstep, hfailed⟩ := (Option.any_eq_true _ _).mp hstep
  have hwell := hclaim {} sampleTown townUsers _ s hrun (.driver 2) _ hsends
  rcases hwell.kept _ t (.single (by rintro ⟨⟩) hstep) with hnone | hok
  · cases hnone.symm.trans (of_decide_eq_true hfailed)
  · cases hok.symm.trans (of_decide_eq_true hfailed)

end RideFlow
