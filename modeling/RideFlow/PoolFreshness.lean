import RideFlow.PoolMirror

/-!
# How old a heartbeat in the pool can be

The operations one at a time against a clock, with a sweep at least every
`period` seconds.  A sweep at time `c` leaves nobody whose last heartbeat is
older than `c` less the allowed silence, and a heartbeat is always newer than
that.  So every driver in the pool has reported since the cutoff of the last
sweep (`SeenSince`), and that sweep is at most one period ago.

`set_availability(true)` is the third way into the pool, and it looks at no
time: with coordinates from long ago it adds a driver who reported long before
the cutoff.  `togglesInTime` admits the runs where this does not happen, and
`late_toggle_outlives_bound` shows that where it does, the clock can pass the
bound.
-/

namespace RideFlow

open Function Runs

/-- The two stores, the clock, and when the last sweep completed. -/
structure SweptStore where
  store : DriverStore
  clock : Timestamp
  lastSweep : Timestamp

/-- Nobody there, at time 0. -/
def SweptStore.init : SweptStore := ⟨.init, 0, 0⟩

/-- A driver's request, a sweep, or the passing of time. -/
inductive SweptAction
  | request (user : User) (request : DriverRequest)
  | sweep
  | advance (seconds : Nat)

/-- One operation at the current time, or the passing of time, which does not
run ahead of the next sweep. -/
def sweptStep (cfg : Settings) (period : Nat) (s : SweptStore) : SweptAction → Option SweptStore
  | .request user request =>
      (poolStep cfg s.store (.request user request s.clock)).map fun st => { s with store := st }
  | .sweep =>
      (poolStep cfg s.store (.evict s.clock)).map fun st => ⟨st, s.clock, s.clock⟩
  | .advance seconds =>
      if s.clock + seconds ≤ s.lastSweep + period then
        some { s with clock := s.clock + seconds }
      else none

/-- The pool with its periodic sweep. -/
def sweptSystem (cfg : Settings) (period : Nat) : System SweptStore SweptAction :=
  ⟨sweptStep cfg period⟩

/-- GEOADD takes the last coordinates of the profile. -/
def DriverProfile.placeable (profile : DriverProfile) : Bool :=
  match profile.lastLat, profile.lastLng with
  | some lat, some lng => validCoordinates lng lat
  | _, _ => false

/-- A driver who goes available has reported since the cutoff of the last
sweep.  Requests that are refused are none of it. -/
def togglesInTime (cfg : Settings) (s : SweptStore) : SweptAction → Bool
  | .request user (.setAvailability true) =>
      user.role ≠ .driver || !(s.store.getOrCreateProfile user).placeable ||
        (s.store.getOrCreateProfile user).lastHeartbeatAt.all fun at_ =>
          s.lastSweep ≤ at_ + cfg.driverStaleAfterSeconds
  | _ => true

/-- The driver is available and has reported at most `age` seconds ago. -/
def SweptStore.Recent (s : SweptStore) (d : UserId) (age : Nat) : Prop :=
  ∃ profile at_, s.store.profiles d = some profile ∧ profile.isAvailable = true ∧
    profile.lastHeartbeatAt = some at_ ∧ s.clock ≤ at_ + age

/-- Whoever is available has reported since the cutoff of the last sweep, which
is at most one period ago. -/
structure SeenSince (cfg : Settings) (period : Nat) (s : SweptStore) : Prop where
  seen : ∀ {d profile at_}, s.store.profiles d = some profile → profile.isAvailable = true →
    profile.lastHeartbeatAt = some at_ → s.lastSweep ≤ at_ + cfg.driverStaleAfterSeconds
  past : s.lastSweep ≤ s.clock
  due : s.clock ≤ s.lastSweep + period

section Steps

variable {cfg : Settings} {period : Nat} {s t : SweptStore}

theorem seenSince_init : SeenSince cfg period .init where
  seen := by intro d profile at_ hrow; cases hrow
  past := Nat.le_refl 0
  due := Nat.zero_le _

/-- A row is written that is not available, or was seen since the cutoff. -/
theorem SeenSince.write {d : UserId} {changed : DriverProfile} {st : DriverStore}
    (h : SeenSince cfg period s)
    (hprofiles : st.profiles = update s.store.profiles d (some changed))
    (hnew : ∀ at_, changed.isAvailable = true → changed.lastHeartbeatAt = some at_ →
      s.lastSweep ≤ at_ + cfg.driverStaleAfterSeconds) :
    SeenSince cfg period { s with store := st } := by
  refine ⟨?_, h.past, h.due⟩
  intro e row at_ hrow havail hat
  rw [hprofiles, Tables.update_some_iff] at hrow
  rcases hrow with ⟨_, rfl⟩ | ⟨_, hrow⟩
  · exact hnew at_ havail hat
  · exact h.seen hrow havail hat

/-- The profile that an operation loads was seen, if it is available. -/
theorem SeenSince.loaded {user : User} {at_ : Timestamp} (h : SeenSince cfg period s)
    (havail : (s.store.getOrCreateProfile user).isAvailable = true)
    (hat : (s.store.getOrCreateProfile user).lastHeartbeatAt = some at_) :
    s.lastSweep ≤ at_ + cfg.driverStaleAfterSeconds := by
  cases hrow : s.store.profiles user.id with
  | none =>
      rw [DriverStore.getOrCreateProfile, hrow] at havail
      cases havail
  | some row =>
      rw [DriverStore.getOrCreateProfile, hrow] at havail hat
      exact h.seen hrow havail hat

/-- A driver's operation that is in time. -/
theorem SeenSince.request {user : User} {request : DriverRequest} {st : DriverStore}
    (h : SeenSince cfg period s)
    (hok : togglesInTime cfg s (.request user request) = true) (hrole : user.role = .driver)
    (hrun : request.run s.store user s.clock = .ok st) :
    SeenSince cfg period { s with store := st } := by
  obtain ⟨changed, command, hhandle, hprofiles, _, hsent⟩ := run_ok hrun
  refine h.write hprofiles ?_
  rcases handle_ok hhandle with ⟨payload, _, rfl, _⟩ | ⟨lat, lng, rfl, hlat, hlng, rfl, rfl⟩ |
    ⟨_, rfl, _⟩ | ⟨_, rfl, _⟩
  · rintro at_ _ hat
    cases hat
    exact h.past.trans (Nat.le_add_right _ _)
  · intro at_ _ hat
    have hplaced := hsent _ rfl
    simp only [GeoCommand.run, upsertDriverLocation, Option.ite_none_right_eq_some] at hplaced
    have hplaceable : (s.store.getOrCreateProfile user).placeable = true := by
      simpa [DriverProfile.placeable, hlat, hlng] using hplaced.1
    have hreported : (s.store.getOrCreateProfile user).lastHeartbeatAt = some at_ := hat
    simpa [togglesInTime, hrole, hplaceable, hreported] using hok
  · intro at_ havail _
    cases havail
  · exact fun _ => h.loaded

theorem step_seenSince {a : SweptAction} (h : SeenSince cfg period s)
    (hok : togglesInTime cfg s a = true) (hstep : sweptStep cfg period s a = some t) :
    SeenSince cfg period t := by
  cases a with
  | request user request =>
      simp only [sweptStep, poolStep, Option.map_some, Option.some.injEq] at hstep
      subst hstep
      split
      case isTrue hrole =>
          split
          case h_1 st hrun => exact h.request hok hrole hrun
          case h_2 => exact h
      case isFalse => exact h
  | sweep =>
      simp only [sweptStep, poolStep, Option.map_some, Option.some.injEq] at hstep
      subst hstep
      refine ⟨?_, Nat.le_refl _, Nat.le_add_right _ _⟩
      intro d profile at_ hrow havail hat
      -- whoever is still available was not stale
      simp only [DriverStore.evictStaleDrivers] at hrow
      split at hrow
      case isTrue =>
          obtain ⟨row, _, rfl⟩ := Option.map_eq_some_iff.mp hrow
          cases havail
      case isFalse hfresh =>
          simpa [DriverStore.isStale, hrow, havail, hat] using hfresh
  | advance seconds =>
      simp only [sweptStep, Option.ite_none_right_eq_some, Option.some.injEq] at hstep
      obtain ⟨hdue, rfl⟩ := hstep
      exact ⟨h.seen, h.past.trans (Nat.le_add_right _ _), hdue⟩

/-- A step is an operation of the sequential server, or leaves its stores. -/
theorem step_swept_mirrors {a : SweptAction} (h : Mirrors s.store)
    (hstep : sweptStep cfg period s a = some t) : Mirrors t.store := by
  cases a with
  | request user request =>
      obtain ⟨st, hst, rfl⟩ : ∃ st, poolStep cfg s.store (.request user request s.clock) = some st ∧
          { s with store := st } = t := Option.map_eq_some_iff.mp hstep
      exact step_mirrors h hst
  | sweep =>
      obtain ⟨st, hst, rfl⟩ : ∃ st, poolStep cfg s.store (.evict s.clock) = some st ∧
          ⟨st, s.clock, s.clock⟩ = t := Option.map_eq_some_iff.mp hstep
      exact step_mirrors h hst
  | advance seconds =>
      simp only [sweptStep, Option.ite_none_right_eq_some, Option.some.injEq] at hstep
      obtain ⟨_, rfl⟩ := hstep
      exact h

theorem Mirrors.recent (hmirror : Mirrors s.store) (h : SeenSince cfg period s) {d : UserId}
    (hd : s.store.InPool d) : s.Recent d (cfg.driverStaleAfterSeconds + period) := by
  obtain ⟨⟨e, lng, lat⟩, hm, rfl⟩ := hd
  obtain ⟨profile, hrow, havail, _⟩ := (hmirror.member e lng lat).mp hm
  have hreported := hmirror.reported hrow (hmirror.located hrow havail).1
  obtain ⟨at_, hat⟩ := Option.ne_none_iff_exists'.mp hreported
  refine ⟨profile, at_, hrow, havail, hat, ?_⟩
  calc s.clock
      ≤ s.lastSweep + period := h.due
    _ ≤ at_ + cfg.driverStaleAfterSeconds + period :=
        Nat.add_le_add_right (h.seen hrow havail hat) period
    _ = at_ + (cfg.driverStaleAfterSeconds + period) := Nat.add_assoc ..

end Steps

section Runs

variable {cfg : Settings} {period : Nat} {acts : List SweptAction} {s : SweptStore}

/-- **Matchable drivers have a recent heartbeat.**  In every run with a sweep at
least every `period` seconds in which nobody goes available who has not
reported since the cutoff of the last sweep, whoever is in the pool, and so
whoever is found and reserved, is available and has reported within the allowed
silence and one period. -/
theorem matchable_drivers_recent
    (h : Steps (sweptSystem cfg period) (fun s a => togglesInTime cfg s a) .init acts s) :
    (∀ d, s.store.InPool d → s.Recent d (cfg.driverStaleAfterSeconds + period)) ∧
    ∀ dist keys lat lng ride d keys', findAndReserveDriver cfg dist s.store.pool keys lat lng ride
        s.clock = some (some d, keys') →
      s.Recent d (cfg.driverStaleAfterSeconds + period) := by
  have hmirror : Mirrors s.store :=
    h.invariant (fun s => Mirrors s.store) mirrors_init
      fun _ _ _ hs _ hstep => step_swept_mirrors hs hstep
  have hseen : SeenSince cfg period s :=
    h.invariant (SeenSince cfg period) seenSince_init
      fun _ _ _ hs hok hstep => step_seenSince hs hok hstep
  refine ⟨fun d hd => hmirror.recent hseen hd, ?_⟩
  intro dist keys lat lng ride d keys' hfind
  obtain ⟨found, hfound, hscan⟩ := Option.map_eq_some_iff.mp hfind
  rw [reserveFirst_eq_find] at hscan
  split at hscan
  case h_1 e he =>
      cases hscan
      exact hmirror.recent hseen (found_in_pool hfound (List.mem_of_find?_eq_some he))
  case h_2 => cases hscan

/-- What a request that is late finds: GEOADD takes the coordinates, and the
heartbeat is older than the cutoff. -/
theorem late_toggle {user : User}
    (h : togglesInTime cfg s (.request user (.setAvailability true)) = false) :
    user.role = .driver ∧ ∃ lat lng at_,
      (s.store.getOrCreateProfile user).lastLat = some lat ∧
      (s.store.getOrCreateProfile user).lastLng = some lng ∧ validCoordinates lng lat = true ∧
      (s.store.getOrCreateProfile user).lastHeartbeatAt = some at_ ∧
      at_ + cfg.driverStaleAfterSeconds < s.lastSweep := by
  simp only [togglesInTime, Bool.or_eq_false_iff, Bool.not_eq_false', decide_eq_false_iff_not,
    not_not, Option.all_eq_false] at h
  obtain ⟨⟨hrole, hplaceable⟩, at_, hat, hlate⟩ := h
  refine ⟨hrole, ?_⟩
  simp only [DriverProfile.placeable] at hplaceable
  split at hplaceable
  case h_1 lat lng hlat hlng =>
      exact ⟨lat, lng, at_, hlat, hlng, hplaceable, hat, Nat.lt_of_not_le hlate⟩
  case h_2 => cases hplaceable

/-- Where a driver goes available who has not reported since the cutoff of the
last sweep, the clock can pass the bound before the next sweep. -/
theorem late_toggle_outlives_bound
    (h : Steps (sweptSystem cfg period) (fun s a => togglesInTime cfg s a) .init acts s)
    {user : User} (hlate : togglesInTime cfg s (.request user (.setAvailability true)) = false) :
    ∃ more u, Steps (sweptSystem cfg period) free s more u ∧ u.store.InPool user.id ∧
      ¬ u.Recent user.id (cfg.driverStaleAfterSeconds + period) := by
  have hseen : SeenSince cfg period s :=
    h.invariant (SeenSince cfg period) seenSince_init
      fun _ _ _ hs hok hstep => step_seenSince hs hok hstep
  obtain ⟨hrole, lat, lng, at_, hlat, hlng, hvalid, hat, hold⟩ := late_toggle hlate
  generalize hprofile : s.store.getOrCreateProfile user = profile at hlat hlng hat
  let st : DriverStore :=
    ⟨update s.store.profiles user.id (some { profile with isAvailable := true }),
      ⟨user.id, lng, lat⟩ :: removeDriverFromPool s.store.pool user.id⟩
  have hrun : (DriverRequest.setAvailability true).run s.store user s.clock = .ok st := by
    rw [run_eq_handle, hprofile]
    simp [DriverRequest.handle, hlat, hlng, GeoCommand.run, upsertDriverLocation, hvalid, st]
  have htoggle : sweptStep cfg period s (.request user (.setAvailability true)) =
      some { s with store := st } := by
    simp [sweptStep, poolStep, hrole, hrun]
  have hwait : s.clock + (s.lastSweep + period - s.clock) = s.lastSweep + period :=
    Nat.add_sub_cancel' hseen.due
  have hadvance : sweptStep cfg period { s with store := st }
      (.advance (s.lastSweep + period - s.clock)) =
      some ⟨st, s.lastSweep + period, s.lastSweep⟩ := by
    simp [sweptStep, hwait]
  have hfirst : Steps (sweptSystem cfg period) free s [.request user (.setAvailability true)]
      { s with store := st } := .single trivial htoggle
  have hin : st.InPool user.id := ⟨⟨user.id, lng, lat⟩, List.mem_cons_self .., rfl⟩
  have hsecond : Steps (sweptSystem cfg period) free { s with store := st }
      [.advance (s.lastSweep + period - s.clock)] ⟨st, s.lastSweep + period, s.lastSweep⟩ :=
    .single trivial hadvance
  refine ⟨_, _, hfirst.trans hsecond, hin, ?_⟩
  rintro ⟨row, at', hrow, _, hat', hbound⟩
  obtain rfl : { profile with isAvailable := true } = row :=
    Option.some.inj ((update_self user.id _ s.store.profiles).symm.trans hrow)
  cases hat.symm.trans hat'
  rw [← Nat.add_assoc] at hbound
  exact absurd hbound (Nat.not_le_of_lt (Nat.add_lt_add_right hold period))

end Runs

/-- Driver 2 reports, goes available within the allowed silence and reports
again; a sweep comes every 60 seconds. -/
theorem available_driver_recent : ∃ s acts,
    Steps (sweptSystem {} 60) (fun s a => togglesInTime {} s a) .init acts s ∧
      s.clock = 120 ∧ s.Recent 2 90 := by
  have hreplay : (execWhere (sweptSystem {} 60) (fun s a => togglesInTime {} s a) .init
      [.request (sampleUser 2 .driver) (.heartbeat sampleHeartbeat), .advance 20,
        .request (sampleUser 2 .driver) (.setAvailability true), .advance 20,
        .request (sampleUser 2 .driver) (.heartbeat sampleHeartbeat), .advance 20, .sweep,
        .advance 60]).any (fun s => s.clock = 120 ∧ s.store.InPool 2) = true := by
    decide +kernel
  obtain ⟨s, hrun, hs⟩ := Steps.of_execWhere_any hreplay
  obtain ⟨hclock, hin⟩ := of_decide_eq_true hs
  exact ⟨s, _, hrun, hclock, (matchable_drivers_recent hrun).1 2 hin⟩

/-- **A driver who has been silent is matchable.**  The driver reports once, and
goes available after two sweeps. -/
theorem silent_driver_matchable :
    ¬ ∀ (cfg : Settings) (period : Nat) (acts : List SweptAction) (s : SweptStore),
      Steps (sweptSystem cfg period) free .init acts s →
        ∀ d, s.store.InPool d → s.Recent d (cfg.driverStaleAfterSeconds + period) := by
  intro hclaim
  have hreplay : (exec (sweptSystem {} 60) .init
      [.request (sampleUser 2 .driver) (.heartbeat sampleHeartbeat), .advance 60, .sweep,
        .advance 60, .sweep, .request (sampleUser 2 .driver) (.setAvailability true)]).any
      (fun s => s.clock = 120 ∧ s.store.InPool 2 ∧ (s.store.profiles 2).all fun profile =>
        profile.lastHeartbeatAt = some 0) = true := by decide +kernel
  obtain ⟨s, hrun, hs⟩ := Steps.of_exec_any hreplay
  obtain ⟨hclock, hin, hsilent⟩ := of_decide_eq_true hs
  obtain ⟨profile, at_, hrow, _, hat, hbound⟩ := hclaim {} 60 _ s hrun 2 hin
  rw [hrow] at hsilent
  have hzero : at_ = 0 := Option.some.inj (hat.symm.trans (of_decide_eq_true hsilent))
  rw [hclock, hzero] at hbound
  exact absurd hbound (by decide)

end RideFlow
