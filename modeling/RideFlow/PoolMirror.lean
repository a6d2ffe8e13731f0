import RideFlow.DriverRequests

/-!
# The pool mirrors the profiles

The driver operations one at a time.  Membership of `drivers:geo` lives in
Redis, the flag and the last coordinates in PostgreSQL; with nobody in between
each operation changes both sides alike, and `Mirrors` says what is kept: the
pool is the map from the available drivers to their last coordinates.

* `run_eq_handle`, `request_alone`, `sweep_alone` -- an execution of the
  concurrent system that nobody interleaves with does what the operation does;
* `pool_mirrors_profiles` -- the invariant over every sequence of operations.
-/

namespace RideFlow

open Function Runs

/-- A request as one operation on the two stores. -/
def DriverRequest.run (st : DriverStore) (user : User) (now : Timestamp) :
    DriverRequest → Except DriverFailure DriverStore
  | .heartbeat payload => st.heartbeat user payload now
  | .setAvailability isAvailable => st.setAvailability user isAvailable
  | .getMyProfile => st.getMyProfile user

section Alone

variable {cfg : Settings} {st : DriverStore} {user : User} {now : Timestamp}

/-- The operation is what the handler makes of the loaded profile, with its
Redis command and its write. -/
theorem run_eq_handle (request : DriverRequest) :
    request.run st user now =
      match request.handle (st.getOrCreateProfile user) now with
      | .error e => .error (.rejected e)
      | .ok (changed, none) => .ok ⟨update st.profiles user.id (some changed), st.pool⟩
      | .ok (changed, some command) =>
          match command.run st.pool user.id with
          | some pool => .ok ⟨update st.profiles user.id (some changed), pool⟩
          | none => .error .crashed := by
  match request with
  | .heartbeat payload =>
      cases havail : (st.getOrCreateProfile user).isAvailable with
      | false => simp [DriverRequest.run, DriverStore.heartbeat, DriverRequest.handle, havail,
          DriverStore.save, Except.map]
      | true =>
          cases hadd : upsertDriverLocation st.pool user.id payload.lat payload.lng <;>
            simp [DriverRequest.run, DriverStore.heartbeat, DriverRequest.handle, havail,
              DriverStore.save, DriverStore.upsert, GeoCommand.run, hadd, Except.map]
  | .setAvailability true =>
      cases hlat : (st.getOrCreateProfile user).lastLat with
      | none => simp [DriverRequest.run, DriverStore.setAvailability, DriverRequest.handle, hlat,
          DriverStore.save, needsHeartbeat, Except.map]
      | some lat =>
          cases hlng : (st.getOrCreateProfile user).lastLng with
          | none => simp [DriverRequest.run, DriverStore.setAvailability, DriverRequest.handle,
              hlat, hlng, DriverStore.save, needsHeartbeat, Except.map]
          | some lng =>
              cases hadd : upsertDriverLocation st.pool user.id lat lng <;>
                simp [DriverRequest.run, DriverStore.setAvailability, DriverRequest.handle, hlat,
                  hlng, DriverStore.save, DriverStore.upsert, GeoCommand.run, hadd, Except.map]
  | .setAvailability false => rfl
  | .getMyProfile => rfl

/-- What an operation that succeeds has done: the write of what the handler made
of the profile, and the handler's Redis command. -/
theorem run_ok {request : DriverRequest} {st' : DriverStore}
    (h : request.run st user now = .ok st') :
    ∃ changed command, request.handle (st.getOrCreateProfile user) now = .ok (changed, command) ∧
      st'.profiles = update st.profiles user.id (some changed) ∧
      (command = none → st'.pool = st.pool) ∧
      ∀ geo, command = some geo → geo.run st.pool user.id = some st'.pool := by
  rw [run_eq_handle] at h
  split at h
  case h_1 => cases h
  case h_2 changed hhandle =>
      cases h
      exact ⟨changed, none, hhandle, rfl, fun _ => rfl, by simp⟩
  case h_3 changed command hhandle =>
      split at h
      case h_1 pool hpool =>
          cases h
          exact ⟨changed, some command, hhandle, rfl, by simp, by simpa using hpool⟩
      case h_2 => cases h

/-- An UPDATE of the row that was loaded writes what the handler made of it. -/
theorem flush_self (loaded changed : DriverProfile) : loaded.flush changed loaded = changed := by
  have hkeep : ∀ {α : Type} [DecidableEq α] (a b : α), (if b = a then a else b) = b := by
    intro α _ a b
    split
    · exact Eq.symm ‹_›
    · rfl
  simp [DriverProfile.flush, hkeep]

/-- The request or the sweep that an action is a step of. -/
def DriverAction.execution? : DriverAction → Option (DriverReqId ⊕ SweepId)
  | .begin q _ _ | .read q | .insert q | .handle q | .redis q | .commit q | .abort q =>
      some (.inl q)
  | .beginSweep c | .selectStale c _ | .removeStale c | .commitSweep c | .abortSweep c =>
      some (.inr c)
  | .advance _ => none

/-- A run of steps of one execution. -/
def RunsAlone (cfg : Settings) (x : DriverReqId ⊕ SweepId) (s t : DriverState) : Prop :=
  ∃ acts, Steps (driverSystem cfg) (fun _ a => a.execution? = some x) s acts t

variable {s t u : DriverState} {q : DriverReqId} {request : DriverRequest}

theorem RunsAlone.step {x : DriverReqId ⊕ SweepId} {a : DriverAction}
    (h : RunsAlone cfg x s t) (ha : a.execution? = some x)
    (hstep : driverStep cfg t a = some u) : RunsAlone cfg x s u :=
  let ⟨acts, hrun⟩ := h
  ⟨acts ++ [a], hrun.snoc ha hstep⟩

/-- A request loads the profile, or creates it. -/
theorem request_loads (cfg : Settings) (request : DriverRequest) (hnew : s.requests q = none)
    (hrole : user.role = .driver) (hfree : s.inserting user.id = none) :
    ∃ t fresh, RunsAlone cfg (.inl q) s t ∧
      t.requests q = some (⟨user, request⟩, .loaded (s.store.getOrCreateProfile user) fresh) ∧
      t.store = s.store ∧ t.clock = s.clock ∧
      (fresh = false → s.store.profiles user.id = some (s.store.getOrCreateProfile user)) := by
  have hbegin : driverStep cfg s (.begin q user request) =
      some { s.at_ q ⟨user, request⟩ .starting with begun := q :: s.begun } :=
    if_pos ⟨hnew, hrole⟩
  generalize hs₁ : ({ s.at_ q ⟨user, request⟩ .starting with begun := q :: s.begun } :
    DriverState) = s₁ at hbegin
  have hstarting : s₁.requests q = some (⟨user, request⟩, .starting) := by
    subst hs₁
    exact update_self ..
  have hstore : s₁.store = s.store ∧ s₁.clock = s.clock ∧ s₁.inserting = s.inserting := by
    subst hs₁
    exact ⟨rfl, rfl, rfl⟩
  obtain ⟨hstore, hclock, hinserting⟩ := hstore
  have hrun : RunsAlone cfg (.inl q) s s₁ := RunsAlone.step ⟨[], .nil s⟩ rfl hbegin
  cases hrow : s.store.profiles user.id with
  | some profile =>
      have hprofile : s.store.getOrCreateProfile user = profile := by
        simp [DriverStore.getOrCreateProfile, hrow]
      have hread : driverStep cfg s₁ (.read q) =
          some (s₁.at_ q ⟨user, request⟩ (.loaded profile false)) := by
        simp [driverStep, hstarting, hstore, hrow]
      rw [hprofile]
      exact ⟨_, false, hrun.step rfl hread, update_self .., hstore, hclock, fun _ => rfl⟩
  | none =>
      have hprofile : s.store.getOrCreateProfile user = {} := by
        simp [DriverStore.getOrCreateProfile, hrow]
      have hread : driverStep cfg s₁ (.read q) = some (s₁.at_ q ⟨user, request⟩ .creating) := by
        simp [driverStep, hstarting, hstore, hrow]
      have hinsert : driverStep cfg (s₁.at_ q ⟨user, request⟩ .creating) (.insert q) =
          some ((s₁.at_ q ⟨user, request⟩ .creating).create q ⟨user, request⟩) := by
        simp [driverStep, DriverState.at_, hstore, hrow, hinserting, hfree]
      rw [hprofile]
      exact ⟨_, true, (hrun.step rfl hread).step rfl hinsert, update_self .., hstore, hclock,
        fun hfresh => by cases hfresh⟩

/-- The COMMIT of a request writes what the handler made of the profile. -/
theorem request_commits (cfg : Settings) {loaded changed : DriverProfile} {fresh : Bool}
    (hcommitting : t.requests q = some (⟨user, request⟩, .committing loaded changed fresh))
    (hrow : fresh = false → t.store.profiles user.id = some loaded) :
    ∃ u, driverStep cfg t (.commit q) = some u ∧
      u.store = ⟨update t.store.profiles user.id (some changed), t.store.pool⟩ ∧
      u.requests q = some (⟨user, request⟩, .answered (.ok changed)) := by
  cases fresh with
  | true =>
      refine ⟨t.commitInsert q ⟨user, request⟩ changed, ?_, rfl, update_self ..⟩
      simp [driverStep, hcommitting]
  | false =>
      refine ⟨t.commitUpdate q ⟨user, request⟩ loaded changed loaded, ?_, ?_, update_self ..⟩
      · simp [driverStep, hcommitting, hrow rfl]
      · simp [DriverState.commitUpdate, flush_self]

/-- **Nobody in between.**  A request whose steps nobody interleaves with ends
in the stores that the operation gives, or leaves them as they were when the
operation fails. -/
theorem request_alone (hnew : s.requests q = none) (hrole : user.role = .driver)
    (hfree : s.inserting user.id = none) :
    ∃ u outcome, RunsAlone cfg (.inl q) s u ∧
      u.requests q = some (⟨user, request⟩, .answered outcome) ∧
      match request.run s.store user s.clock with
      | .ok store => u.store = store ∧ ∃ profile, outcome = .ok profile
      | .error (.rejected e) => u.store = s.store ∧ outcome = .rejected e
      | .error .crashed => u.store = s.store ∧ outcome = .failed := by
  obtain ⟨t, fresh, hrun, hloaded, hstore, hclock, hrow⟩ :=
    request_loads cfg request hnew hrole hfree
  rw [run_eq_handle]
  generalize s.store.getOrCreateProfile user = loaded at hloaded hrow ⊢
  cases hhandle : request.handle loaded s.clock with
  | error e =>
      have hstep : driverStep cfg t (.handle q) =
          some (t.finish q ⟨user, request⟩ (.rejected e)) := by
        simp [driverStep, hloaded, hclock, hhandle]
      exact ⟨_, _, hrun.step rfl hstep, update_self .., hstore, rfl⟩
  | ok made =>
      obtain ⟨changed, command⟩ := made
      cases command with
      | none =>
          have hstep : driverStep cfg t (.handle q) =
              some (t.at_ q ⟨user, request⟩ (.committing loaded changed fresh)) := by
            simp only [driverStep, hloaded, hclock, hhandle]
          have hcommitting : (t.at_ q ⟨user, request⟩ (.committing loaded changed fresh)).requests
              q = some (⟨user, request⟩, .committing loaded changed fresh) := update_self ..
          have hstore₁ : (t.at_ q ⟨user, request⟩ (.committing loaded changed fresh)).store =
              s.store := hstore
          obtain ⟨u, hcommit, hu, hans⟩ := request_commits cfg hcommitting fun hfresh => by
            rw [hstore₁, hrow hfresh]
          refine ⟨u, _, (hrun.step rfl hstep).step rfl hcommit, hans, ?_, _, rfl⟩
          rw [hu, hstore₁]
      | some command =>
          have hstep : driverStep cfg t (.handle q) =
              some (t.at_ q ⟨user, request⟩ (.sending loaded changed fresh command)) := by
            simp only [driverStep, hloaded, hclock, hhandle]
          generalize ht₁ : t.at_ q ⟨user, request⟩ (.sending loaded changed fresh command) = t₁
            at hstep
          have hsending : t₁.requests q =
              some (⟨user, request⟩, .sending loaded changed fresh command) := by
            subst ht₁
            exact update_self ..
          have hstore₁ : t₁.store = s.store := by
            subst ht₁
            exact hstore
          have hrun₁ : RunsAlone cfg (.inl q) s t₁ := hrun.step rfl hstep
          cases hcommand : command.run s.store.pool user.id with
          | none =>
              have hredis : driverStep cfg t₁ (.redis q) =
                  some (t₁.finish q ⟨user, request⟩ .failed) := by
                simp [driverStep, hsending, hstore₁, hcommand]
              refine ⟨_, _, hrun₁.step rfl hredis, update_self .., ?_⟩
              simp only [hcommand]
              exact ⟨hstore₁, trivial⟩
          | some pool =>
              have hredis : driverStep cfg t₁ (.redis q) =
                  some (t₁.send q ⟨user, request⟩ loaded changed fresh pool) := by
                simp [driverStep, hsending, hstore₁, hcommand]
              have hcommitting : (t₁.send q ⟨user, request⟩ loaded changed fresh pool).requests q =
                  some (⟨user, request⟩, .committing loaded changed fresh) := update_self ..
              have hstore₂ : (t₁.send q ⟨user, request⟩ loaded changed fresh pool).store =
                  ⟨s.store.profiles, pool⟩ := by rw [← hstore₁]; rfl
              obtain ⟨u, hcommit, hu, hans⟩ := request_commits cfg hcommitting fun hfresh => by
                rw [hstore₂, hrow hfresh]
              refine ⟨u, _, (hrun₁.step rfl hredis).step rfl hcommit, hans, ?_⟩
              simp only [hcommand]
              exact ⟨by rw [hu, hstore₂], _, rfl⟩

/-- Every profile is in the list that a sweep selects from. -/
def DriverState.RowsListed (s : DriverState) : Prop :=
  ∀ d, s.store.profiles d ≠ none → d ∈ s.rows

theorem step_rowsListed {a : DriverAction} (h : s.RowsListed)
    (hstep : driverStep cfg s a = some t) : t.RowsListed := by
  have hstays : t.store.profiles = s.store.profiles → t.rows = s.rows → t.RowsListed := by
    intro hprofiles hrows d hd
    rw [hrows]
    exact h d (hprofiles ▸ hd)
  cases a with
  | begin q user request =>
      obtain ⟨_, _, rfl⟩ := driver_begin hstep
      exact hstays rfl rfl
  | read q =>
      obtain ⟨call, _, ⟨profile, _, rfl⟩ | ⟨_, rfl⟩⟩ := driver_read hstep
      · exact hstays rfl rfl
      · exact hstays rfl rfl
  | insert q =>
      obtain ⟨call, _, rfl | ⟨_, _, rfl⟩⟩ := driver_insert hstep
      · exact hstays rfl rfl
      · exact hstays rfl rfl
  | handle q =>
      obtain ⟨call, profile, fresh, _, hcase⟩ := driver_handle hstep
      rcases hcase with ⟨e, _, rfl⟩ | ⟨changed, command, _, rfl⟩ | ⟨changed, _, rfl⟩
      · exact hstays rfl rfl
      · exact hstays rfl rfl
      · exact hstays rfl rfl
  | redis q =>
      obtain ⟨call, loaded, changed, fresh, command, _, ⟨pool, _, rfl⟩ | rfl⟩ :=
        driver_redis hstep
      · exact hstays rfl rfl
      · exact hstays rfl rfl
  | commit q =>
      obtain ⟨call, loaded, changed, fresh, _, hcase⟩ := driver_commit hstep
      rcases hcase with ⟨_, rfl⟩ | ⟨_, row, hrow, rfl⟩ | ⟨_, _, rfl⟩
      · intro d hd
        by_cases hdriver : d = call.user.id
        · exact List.mem_append_right _ (List.mem_singleton.mpr hdriver)
        · exact List.mem_append_left _
            (h d fun hnone => hd ((update_of_ne hdriver _ _).trans hnone))
      · intro d hd
        by_cases hdriver : d = call.user.id
        · exact h d (by simp [hdriver, hrow])
        · exact h d fun hnone => hd ((update_of_ne hdriver _ _).trans hnone)
      · exact hstays rfl rfl
  | abort q =>
      obtain ⟨call, stage, _, _, rfl⟩ := driver_abort hstep
      exact hstays rfl rfl
  | beginSweep c =>
      obtain ⟨_, rfl⟩ := driver_beginSweep hstep
      exact hstays rfl rfl
  | selectStale c found =>
      obtain ⟨now, _, _, rfl⟩ := driver_selectStale hstep
      exact hstays rfl rfl
  | removeStale c =>
      obtain ⟨now, d, todo, evicted, _, rfl⟩ := driver_removeStale hstep
      exact hstays rfl rfl
  | commitSweep c =>
      obtain ⟨now, evicted, _, rfl⟩ := driver_commitSweep hstep
      intro d hd
      exact h d fun hnone => hd ((DriverState.commitSweep_none d).mpr hnone)
  | abortSweep c =>
      obtain ⟨stage, _, _, rfl⟩ := driver_abortSweep hstep
      exact hstays rfl rfl
  | advance seconds =>
      obtain rfl := driver_advance hstep
      exact hstays rfl rfl

theorem rows_listed {ok : DriverState → DriverAction → Prop} {acts : List DriverAction}
    (h : Steps (driverSystem cfg) ok .init acts s) : s.RowsListed :=
  h.invariant DriverState.RowsListed (fun _ hd => absurd rfl hd)
    fun _ _ _ hs _ hstep => step_rowsListed hs hstep

/-- A sweep removes the drivers that it has selected, one by one. -/
theorem sweep_removes (cfg : Settings) {c : SweepId} {now : Timestamp} (todo : List UserId)
    {evicted : List UserId} (hc : t.sweeps c = some (.sweeping now todo evicted)) :
    ∃ u, RunsAlone cfg (.inr c) t u ∧
      u.sweeps c = some (.sweeping now [] (evicted ++ todo)) ∧
      u.store = ⟨t.store.profiles, t.store.pool.filter fun m => m.driverId ∉ todo⟩ := by
  induction todo generalizing t evicted with
  | nil => exact ⟨t, ⟨[], .nil t⟩, by simpa using hc, by simp⟩
  | cons d todo ih =>
      have hstep : driverStep cfg t (.removeStale c) = some (t.evict c now d todo evicted) := by
        simp [driverStep, hc]
      obtain ⟨u, ⟨acts, hrun⟩, hu, hstore⟩ :=
        ih (t := t.evict c now d todo evicted) (update_self ..)
      have hfirst : RunsAlone cfg (.inr c) t (t.evict c now d todo evicted) :=
        RunsAlone.step ⟨[], .nil t⟩ rfl hstep
      obtain ⟨front, hfront⟩ := hfirst
      refine ⟨u, ⟨front ++ acts, hfront.trans hrun⟩, by simpa using hu, ?_⟩
      rw [hstore]
      congr 1
      simp [DriverState.evict, removeDriverFromPool, List.filter_filter, Bool.and_comm]

/-- A sweep whose steps nobody interleaves with evicts the stale drivers. -/
theorem sweep_alone {acts : List DriverAction} {c : SweepId}
    (hreach : Steps (driverSystem cfg) free .init acts s) (hnew : s.sweeps c = none) :
    ∃ u, RunsAlone cfg (.inr c) s u ∧ u.sweeps c = some .finished ∧
      u.store = s.store.evictStaleDrivers cfg s.clock := by
  generalize hfound : (s.rows.filter fun d => s.store.isStale cfg s.clock d) = found
  have hmem : ∀ d, d ∈ found ↔ s.store.isStale cfg s.clock d = true := by
    intro d
    subst hfound
    refine ⟨fun hd => (List.mem_filter.mp hd).2, fun hstale => List.mem_filter.mpr ⟨?_, hstale⟩⟩
    refine rows_listed hreach d fun hnone => ?_
    simp [DriverStore.isStale, hnone] at hstale
  have hbegin : driverStep cfg s (.beginSweep c) =
      some { s.setSweep c (.started s.clock) with sweepsBegun := c :: s.sweepsBegun } :=
    if_pos hnew
  generalize hs₁ : ({ s.setSweep c (.started s.clock) with sweepsBegun := c :: s.sweepsBegun } :
    DriverState) = s₁ at hbegin
  have hselect : driverStep cfg s₁ (.selectStale c found) =
      some (s₁.setSweep c (.sweeping s.clock found [])) := by
    subst hs₁
    simp [driverStep, DriverState.setSweep, hfound]
  obtain ⟨u, ⟨acts, hrun⟩, hu, hstore⟩ := sweep_removes cfg found
    (t := s₁.setSweep c (.sweeping s.clock found [])) (update_self ..)
  have hcommit : driverStep cfg u (.commitSweep c) = some (u.commitSweep c found) := by
    simp [driverStep, hu]
  have hopened : RunsAlone cfg (.inr c) s (s₁.setSweep c (.sweeping s.clock found [])) :=
    (RunsAlone.step ⟨[], .nil s⟩ rfl hbegin).step rfl hselect
  obtain ⟨front, hfront⟩ := hopened
  refine ⟨u.commitSweep c found,
    RunsAlone.step ⟨front ++ acts, hfront.trans hrun⟩ rfl hcommit, update_self .., ?_⟩
  subst hs₁
  simp [DriverState.commitSweep, DriverState.setSweep, hstore, hmem,
    DriverStore.evictStaleDrivers]

end Alone

/-! ### The operations in sequence -/

/-- An operation at some time: a request with its authenticated user, or a
sweep. -/
inductive PoolAction
  | request (user : User) (request : DriverRequest) (now : Timestamp)
  | evict (now : Timestamp)

/-- One operation.  A user who is no driver is refused, and a request that fails
leaves both stores as they were. -/
def poolStep (cfg : Settings) (st : DriverStore) : PoolAction → Option DriverStore
  | .request user request now =>
      some (if user.role = .driver then
        match request.run st user now with
        | .ok st' => st'
        | .error _ => st
      else st)
  | .evict now => some (st.evictStaleDrivers cfg now)

/-- The same steps as a system. -/
def poolSystem (cfg : Settings) : System DriverStore PoolAction := ⟨poolStep cfg⟩

/-- The pool is the map from the available drivers to their last coordinates.
A driver who has coordinates has reported at some time, so that an available
one always has. -/
structure Mirrors (st : DriverStore) : Prop where
  member : ∀ d lng lat, ⟨d, lng, lat⟩ ∈ st.pool ↔ ∃ profile,
    st.profiles d = some profile ∧ profile.isAvailable = true ∧
      profile.lastLng = some lng ∧ profile.lastLat = some lat
  nodup : (st.pool.map GeoMember.driverId).Nodup
  located : ∀ {d profile}, st.profiles d = some profile → profile.isAvailable = true →
    profile.lastLat ≠ none ∧ profile.lastLng ≠ none
  reported : ∀ {d profile}, st.profiles d = some profile → profile.lastLat ≠ none →
    profile.lastHeartbeatAt ≠ none

section Mirror

variable {cfg : Settings} {st st' : DriverStore} {user : User} {now : Timestamp}
  {d : UserId} {lng lat : Degrees} {profile changed : DriverProfile} {pool : GeoPool}

theorem mirrors_init : Mirrors .init where
  member := by
    intro d lng lat
    constructor
    · intro hm
      cases hm
    · rintro ⟨profile, hrow, _⟩
      cases hrow
  nodup := List.nodup_nil
  located := by intro d profile hrow; cases hrow
  reported := by intro d profile hrow; cases hrow

/-- ZREM leaves the other members. -/
theorem mem_removeDriver {e : UserId} :
    ⟨d, lng, lat⟩ ∈ removeDriverFromPool pool e ↔ d ≠ e ∧ ⟨d, lng, lat⟩ ∈ pool := by
  simp [removeDriverFromPool, and_comm]

theorem nodup_removeDriver {e : UserId} (h : (pool.map GeoMember.driverId).Nodup) :
    ((removeDriverFromPool pool e).map GeoMember.driverId).Nodup :=
  h.sublist (List.filter_sublist.map _)

theorem notMem_removeDriver {e : UserId} :
    e ∉ (removeDriverFromPool pool e).map GeoMember.driverId := by
  simp [removeDriverFromPool]

/-- The profile that a request has loaded obeys what the stored ones obey. -/
theorem Mirrors.loaded (h : Mirrors st) (hprofile : st.getOrCreateProfile user = profile) :
    (profile.isAvailable = true → ∃ row, st.profiles user.id = some row ∧ row = profile) ∧
    (profile.lastLat ≠ none → profile.lastHeartbeatAt ≠ none) := by
  cases hrow : st.profiles user.id with
  | none =>
      have hnew : profile = {} := by
        rw [← hprofile, DriverStore.getOrCreateProfile, hrow]
        rfl
      subst hnew
      exact ⟨fun havail => (by cases havail), fun hlat => absurd rfl hlat⟩
  | some row =>
      have hsame : row = profile := by
        rw [← hprofile, DriverStore.getOrCreateProfile, hrow]
        rfl
      exact ⟨fun _ => ⟨row, rfl, hsame⟩, hsame ▸ h.reported hrow⟩

/-- A driver becomes available, or moves: GEOADD and the row say the same. -/
theorem Mirrors.add (h : Mirrors st) (hadd : upsertDriverLocation st.pool d lat lng = some pool)
    (havail : changed.isAvailable = true) (hlng : changed.lastLng = some lng)
    (hlat : changed.lastLat = some lat) (hreported : changed.lastHeartbeatAt ≠ none) :
    Mirrors ⟨update st.profiles d (some changed), pool⟩ := by
  simp only [upsertDriverLocation, Option.ite_none_right_eq_some, Option.some.injEq] at hadd
  obtain ⟨_, rfl⟩ := hadd
  refine ⟨?_, ?_, ?_, ?_⟩
  · intro e lng' lat'
    rw [List.mem_cons, mem_removeDriver, h.member]
    simp only [Tables.update_some_iff]
    constructor
    · rintro (hnew | ⟨hne, row, hrow, hrest⟩)
      · cases hnew
        exact ⟨changed, Or.inl ⟨rfl, rfl⟩, havail, hlng, hlat⟩
      · exact ⟨row, Or.inr ⟨hne, hrow⟩, hrest⟩
    · rintro ⟨row, ⟨rfl, rfl⟩ | ⟨hne, hrow⟩, havail', hlng', hlat'⟩
      · rw [hlng] at hlng'
        rw [hlat] at hlat'
        cases hlng'
        cases hlat'
        exact Or.inl rfl
      · exact Or.inr ⟨hne, row, hrow, havail', hlng', hlat'⟩
  · exact List.nodup_cons.mpr ⟨notMem_removeDriver, nodup_removeDriver h.nodup⟩
  · intro e row hrow
    rcases Tables.update_some_iff.mp hrow with ⟨_, rfl⟩ | ⟨_, hrow⟩
    · intro _
      simp [hlat, hlng]
    · exact h.located hrow
  · intro e row hrow
    rcases Tables.update_some_iff.mp hrow with ⟨_, rfl⟩ | ⟨_, hrow⟩
    · exact fun _ => hreported
    · exact h.reported hrow

/-- A row that is not available is written, and the driver is not in the pool
that remains. -/
theorem Mirrors.clear (h : Mirrors st) (hcleared : changed.isAvailable = false)
    (hreported : changed.lastLat ≠ none → changed.lastHeartbeatAt ≠ none) :
    Mirrors ⟨update st.profiles d (some changed), removeDriverFromPool st.pool d⟩ := by
  refine ⟨?_, nodup_removeDriver h.nodup, ?_, ?_⟩
  · intro e lng lat
    rw [mem_removeDriver, h.member]
    simp only [Tables.update_some_iff]
    constructor
    · rintro ⟨hne, row, hrow, hrest⟩
      exact ⟨row, Or.inr ⟨hne, hrow⟩, hrest⟩
    · rintro ⟨row, ⟨rfl, rfl⟩ | ⟨hne, hrow⟩, havail, hrest⟩
      · cases hcleared.symm.trans havail
      · exact ⟨hne, row, hrow, havail, hrest⟩
  · intro e row hrow havail
    rcases Tables.update_some_iff.mp hrow with ⟨_, rfl⟩ | ⟨_, hrow⟩
    · cases hcleared.symm.trans havail
    · exact h.located hrow havail
  · intro e row hrow
    rcases Tables.update_some_iff.mp hrow with ⟨_, rfl⟩ | ⟨_, hrow⟩
    · exact hreported
    · exact h.reported hrow

/-- A driver who is not available is in no pool: ZREM would remove nobody. -/
theorem Mirrors.not_member (h : Mirrors st)
    (hcleared : ∀ row, st.profiles d = some row → row.isAvailable = false) :
    removeDriverFromPool st.pool d = st.pool := by
  refine List.filter_eq_self.mpr ?_
  rintro ⟨e, lng, lat⟩ hm
  obtain ⟨row, hrow, havail, _⟩ := (h.member e lng lat).mp hm
  refine decide_eq_true ?_
  rintro rfl
  cases (hcleared row hrow).symm.trans havail

/-- A row that is not available is written and the pool is left alone. -/
theorem Mirrors.leave (h : Mirrors st) (hprofile : st.getOrCreateProfile user = profile)
    (hwas : profile.isAvailable = false) (hcleared : changed.isAvailable = false)
    (hreported : changed.lastLat ≠ none → changed.lastHeartbeatAt ≠ none) :
    Mirrors ⟨update st.profiles user.id (some changed), st.pool⟩ := by
  have habsent : removeDriverFromPool st.pool user.id = st.pool := by
    refine h.not_member fun row hrow => ?_
    rw [← hprofile, DriverStore.getOrCreateProfile, hrow] at hwas
    exact hwas
  have hclear := h.clear (d := user.id) hcleared hreported
  rwa [habsent] at hclear

/-- An operation of a driver keeps the mirror. -/
theorem Mirrors.request (h : Mirrors st) (request : DriverRequest)
    (hrun : request.run st user now = .ok st') : Mirrors st' := by
  obtain ⟨changed, command, hhandle, hprofiles, hsilent, hsent⟩ := run_ok hrun
  obtain ⟨profiles, pool⟩ := st'
  obtain rfl : profiles = _ := hprofiles
  generalize hprofile : st.getOrCreateProfile user = profile at hhandle
  obtain ⟨hstored, hreported⟩ := h.loaded hprofile
  rcases handle_ok hhandle with ⟨payload, _, rfl, rfl⟩ | ⟨lat, lng, _, hlat, hlng, rfl, rfl⟩ |
    ⟨_, rfl, rfl⟩ | ⟨_, rfl, rfl⟩
  · cases havail : profile.isAvailable with
    | true =>
        have hadd := hsent (.geoadd payload.lat payload.lng) (by simp [havail])
        exact h.add hadd rfl rfl rfl (by simp)
    | false =>
        obtain rfl : pool = st.pool := hsilent (by simp [havail])
        exact h.leave hprofile havail rfl (by simp)
  · have hadd := hsent (.geoadd lat lng) rfl
    exact h.add hadd rfl hlng hlat (hreported (by simp [hlat]))
  · obtain rfl : removeDriverFromPool st.pool user.id = pool := Option.some.inj (hsent _ rfl)
    exact h.clear rfl hreported
  · obtain rfl : pool = st.pool := hsilent rfl
    cases havail : changed.isAvailable with
    | true =>
        obtain ⟨row, hrow, rfl⟩ := hstored havail
        rw [← hrow, update_eq_self]
        exact h
    | false => exact h.leave hprofile havail havail hreported

/-- A sweep keeps the mirror. -/
theorem Mirrors.evict (h : Mirrors st) : Mirrors (st.evictStaleDrivers cfg now) := by
  have hrow : ∀ {d profile}, (st.evictStaleDrivers cfg now).profiles d = some profile →
      (st.isStale cfg now d = false ∧ st.profiles d = some profile) ∨
      (profile.isAvailable = false ∧ ∃ row, st.profiles d = some row ∧
        profile = { row with isAvailable := false }) := by
    intro d profile hrow
    simp only [DriverStore.evictStaleDrivers] at hrow
    split at hrow
    case isTrue =>
        obtain ⟨row, hstored, rfl⟩ := Option.map_eq_some_iff.mp hrow
        exact Or.inr ⟨rfl, row, hstored, rfl⟩
    case isFalse hfresh => exact Or.inl ⟨by simpa using hfresh, hrow⟩
  refine ⟨?_, ?_, ?_, ?_⟩
  · intro d lng lat
    simp only [DriverStore.evictStaleDrivers, List.mem_filter, h.member, Bool.not_eq_true']
    constructor
    · rintro ⟨⟨profile, hprofile, hrest⟩, hfresh⟩
      exact ⟨profile, by simpa [hfresh] using hprofile, hrest⟩
    · rintro ⟨profile, hprofile, havail, hrest⟩
      rcases hrow hprofile with ⟨hfresh, hstored⟩ | ⟨hcleared, _⟩
      · exact ⟨⟨profile, hstored, havail, hrest⟩, hfresh⟩
      · cases hcleared.symm.trans havail
  · exact h.nodup.sublist (List.filter_sublist.map _)
  · intro d profile hprofile havail
    rcases hrow hprofile with ⟨_, hstored⟩ | ⟨hcleared, _⟩
    · exact h.located hstored havail
    · cases hcleared.symm.trans havail
  · intro d profile hprofile
    rcases hrow hprofile with ⟨_, hstored⟩ | ⟨_, row, hstored, rfl⟩
    · exact h.reported hstored
    · have hkept := h.reported hstored
      exact hkept

theorem step_mirrors {a : PoolAction} (h : Mirrors st) (hstep : poolStep cfg st a = some st') :
    Mirrors st' := by
  cases a with
  | request user request now =>
      simp only [poolStep, Option.some.injEq] at hstep
      subst hstep
      split
      case isTrue =>
          split
          case h_1 st' hrun => exact h.request request hrun
          case h_2 => exact h
      case isFalse => exact h
  | evict now =>
      cases hstep
      exact h.evict

/-- **The pool mirrors the profiles.**  After every sequence of operations the
pool is the map that sends each available driver to the last coordinates of the
profile, and an available profile has coordinates and a last heartbeat. -/
theorem pool_mirrors_profiles {acts : List PoolAction}
    (h : Steps (poolSystem cfg) free .init acts st) :
    (∀ d lng lat, ⟨d, lng, lat⟩ ∈ st.pool ↔ ∃ profile, st.profiles d = some profile ∧
      profile.isAvailable = true ∧ profile.lastLng = some lng ∧ profile.lastLat = some lat) ∧
    (st.pool.map GeoMember.driverId).Nodup ∧
    ∀ d profile, st.profiles d = some profile → profile.isAvailable = true →
      profile.lastLat ≠ none ∧ profile.lastLng ≠ none ∧ profile.lastHeartbeatAt ≠ none := by
  have hmirrors : Mirrors st :=
    h.invariant Mirrors mirrors_init fun _ _ _ hs _ hstep => step_mirrors hs hstep
  refine ⟨hmirrors.member, hmirrors.nodup, ?_⟩
  intro d profile hrow havail
  obtain ⟨hlat, hlng⟩ := hmirrors.located hrow havail
  exact ⟨hlat, hlng, hmirrors.reported hrow hlat⟩

end Mirror

/-- Driver 2 goes online and a sweep evicts nobody. -/
theorem online_driver_mirrored : ∃ st acts, Steps (poolSystem {}) free .init acts st ∧
    ∃ profile, st.profiles 2 = some profile ∧ profile.isAvailable = true := by
  have hreplay : (exec (poolSystem {}) .init
      [.request (sampleUser 2 .driver) (.heartbeat sampleHeartbeat) 0,
        .request (sampleUser 2 .driver) (.setAvailability true) 7, .evict 20]).any
      (fun st => ⟨2, sampleHeartbeat.lng, sampleHeartbeat.lat⟩ ∈ st.pool) = true := by
    decide +kernel
  obtain ⟨st, hrun, hst⟩ := Steps.of_exec_any hreplay
  obtain ⟨profile, hrow, havail, _⟩ :=
    ((pool_mirrors_profiles hrun).1 2 _ _).mp (of_decide_eq_true hst)
  exact ⟨st, _, hrun, profile, hrow, havail⟩

end RideFlow
