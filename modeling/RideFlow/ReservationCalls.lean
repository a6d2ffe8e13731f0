import RideFlow.ReservationKeys
import RideFlow.TransitionRide

/-!
# The requests make these calls

A transition request makes at most one call of `find_and_reserve_driver` and one
of `release_driver_reservation`.  `CallsOf` relates a state of the requests to a
state of the calls, each call under the number of its request, and every run of
the requests is a run of their calls (`requests_make_calls`): what holds of the
keys over all interleavings of the calls holds over those of the requests.
-/

namespace RideFlow

open Function Runs Tables

/-- The two calls of a request, by the stage of the request. -/
inductive CallsAt : Option Stage → Option Scan → Option Release → Prop
  | absent : CallsAt none none none
  | loading : CallsAt (some .loading) none none
  | updating {ride : Ride} : CallsAt (some (.updating ride)) none none
  | search {ride : Ride} {pending : List Applied} :
      CallsAt (some (.holding ride pending .search)) none none
  | reserve {ride : Ride} {pending : List Applied} {candidates tried rest : List UserId} :
      CallsAt (some (.holding ride pending (.reserve rest)))
        (some ⟨ride.id, candidates, .trying tried rest⟩) none
  | resolve {ride : Ride} {pending : List Applied} {candidates : List UserId}
      {driverId : Option UserId} :
      CallsAt (some (.holding ride pending (.resolve driverId)))
        (some ⟨ride.id, candidates, .returned driverId⟩) none
  | getKey {ride : Ride} {pending : List Applied} :
      CallsAt (some (.holding ride pending .getKey)) none none
  | deleteKey {ride : Ride} {pending : List Applied} {d : UserId} (hd : ride.driverId = some d) :
      CallsAt (some (.holding ride pending .deleteKey)) none (some ⟨d, ride.id, .deleting⟩)
  | commit {ride : Ride} {pending : List Applied} {scan : Option Scan}
      {release : Option Release} :
      CallsAt (some (.holding ride pending .commit)) scan release
  | answered {outcome : Outcome} {scan : Option Scan} {release : Option Release} :
      CallsAt (some (.answered outcome)) scan release

/-- A request that has made no call yet. -/
def idle : Option Stage → Bool
  | none => true
  | some .loading => true
  | some (.updating _) => true
  | some (.holding _ _ .search) => true
  | some (.holding _ _ .getKey) => true
  | some _ => false

theorem CallsAt.none_of_idle {stage : Option Stage} {scan : Option Scan}
    {release : Option Release} (h : CallsAt stage scan release) (hidle : idle stage = true) :
    scan = none ∧ release = none := by
  cases h with
  | absent => exact ⟨rfl, rfl⟩
  | loading => exact ⟨rfl, rfl⟩
  | updating => exact ⟨rfl, rfl⟩
  | search => exact ⟨rfl, rfl⟩
  | getKey => exact ⟨rfl, rfl⟩
  | reserve => cases hidle
  | resolve => cases hidle
  | deleteKey => cases hidle
  | commit => cases hidle
  | answered => cases hidle

theorem CallsAt.of_reserve {ride : Ride} {pending : List Applied} {rest : List UserId}
    {scan : Option Scan} {release : Option Release}
    (h : CallsAt (some (.holding ride pending (.reserve rest))) scan release) :
    ∃ candidates tried, scan = some ⟨ride.id, candidates, .trying tried rest⟩ ∧
      release = none := by
  cases h with
  | reserve => exact ⟨_, _, rfl, rfl⟩

theorem CallsAt.of_deleteKey {ride : Ride} {pending : List Applied} {scan : Option Scan}
    {release : Option Release}
    (h : CallsAt (some (.holding ride pending .deleteKey)) scan release) :
    ∃ d, ride.driverId = some d ∧ release = some ⟨d, ride.id, .deleting⟩ := by
  cases h with
  | deleteKey hd => exact ⟨_, hd, rfl⟩

/-- The calls that the requests are making. -/
structure CallsOf (s : RideState) (u : ReservationState) : Prop where
  keys : u.keys = s.reservations
  clock : u.clock = s.clock
  calls : ∀ q, CallsAt ((s.requests q).map Prod.snd) (u.scans q) (u.releases q)

section Match

variable {cfg : Settings} {s t : RideState} {u v : ReservationState} {q : ReqId}
  {call : TransitionCall} {stage : Stage}

theorem CallsOf.at_stage (h : CallsOf s u) (hreq : s.requests q = some (call, stage)) :
    CallsAt (some stage) (u.scans q) (u.releases q) := by
  have hcalls := h.calls q
  rw [hreq] at hcalls
  exact hcalls

/-- A request moves, and its calls with it. -/
theorem CallsOf.move (h : CallsOf s u)
    (hreq : t.requests = update s.requests q (some (call, stage)))
    (hkeys : v.keys = t.reservations) (hclock : v.clock = t.clock)
    (hscans : ∀ p, p ≠ q → v.scans p = u.scans p)
    (hreleases : ∀ p, p ≠ q → v.releases p = u.releases p)
    (hcalls : CallsAt (some stage) (v.scans q) (v.releases q)) : CallsOf t v where
  keys := hkeys
  clock := hclock
  calls := by
    intro p
    by_cases hp : p = q
    · subst hp
      rw [hreq, update_self]
      exact hcalls
    · rw [hreq, update_of_ne hp, hscans p hp, hreleases p hp]
      exact h.calls p

/-- A request moves without a command on the keys. -/
theorem CallsOf.quiet (h : CallsOf s u)
    (hreq : t.requests = update s.requests q (some (call, stage)))
    (hkeys : t.reservations = s.reservations) (hclock : t.clock = s.clock)
    (hcalls : CallsAt (some stage) (u.scans q) (u.releases q)) :
    ∃ seen v, Steps (reservationSystem cfg) free u seen v ∧ CallsOf t v :=
  ⟨[], u, .nil u, h.move hreq (h.keys.trans hkeys.symm) (h.clock.trans hclock.symm)
    (fun _ _ => rfl) (fun _ _ => rfl) hcalls⟩

/-- The calls of a request that has not begun one. -/
theorem callsAt_afterUpdate {payload : RideTransitionRequest} {checked refreshed : Ride}
    {pending : List Applied} :
    CallsAt (some (.holding refreshed pending (afterUpdate payload checked refreshed)))
      none none := by
  unfold afterUpdate
  split
  · exact .search
  · split
    · exact .getKey
    · exact .commit

/-- GEOSEARCH has answered: the scan begins. -/
theorem CallsOf.search (h : CallsOf s u) {candidates : List UserId}
    (hstep : rideStep cfg s (.search q candidates) = some t) :
    ∃ seen v, Steps (reservationSystem cfg) free u seen v ∧ CallsOf t v := by
  obtain ⟨call, ride, pending, hreq, rfl⟩ := step_search hstep
  obtain ⟨hscan, hrelease⟩ := (h.at_stage hreq).none_of_idle rfl
  have hfind : reservationStep cfg u (.find q ride.id candidates) =
      some (u.setScan q ⟨ride.id, candidates, .trying [] candidates⟩) := by
    simp only [reservationStep, hscan]
  refine ⟨[.find q ride.id candidates], _, .single trivial hfind,
    h.move rfl h.keys h.clock (fun p hp => update_of_ne hp _ _) (fun _ _ => rfl) ?_⟩
  change CallsAt _ (update u.scans q _ q) (u.releases q)
  rw [update_self, hrelease]
  exact .reserve

/-- One SET NX, or the end of the candidates. -/
theorem CallsOf.tryReserve (h : CallsOf s u) (hstep : rideStep cfg s (.reserve q) = some t) :
    ∃ seen v, Steps (reservationSystem cfg) free u seen v ∧ CallsOf t v := by
  obtain ⟨call, ride, pending, rest, hreq, hcases⟩ := step_reserve hstep
  obtain ⟨candidates, tried, hscan, hrelease⟩ := (h.at_stage hreq).of_reserve
  rcases hcases with ⟨rfl, rfl⟩ | ⟨d, rest, rfl, htaken, rfl⟩ | ⟨d, rest, rfl, hfree, rfl⟩
  · have htry : reservationStep cfg u (.tryReserve q) =
        some (u.setScan q ⟨ride.id, candidates, .returned none⟩) := by
      simp only [reservationStep, hscan]
    refine ⟨[.tryReserve q], _, .single trivial htry,
      h.move rfl h.keys h.clock (fun p hp => update_of_ne hp _ _) (fun _ _ => rfl) ?_⟩
    change CallsAt _ (update u.scans q _ q) (u.releases q)
    rw [update_self, hrelease]
    exact .resolve
  · have hmiss : tryReserveDriver cfg u.keys d ride.id u.clock = (false, u.keys) :=
      tryReserveDriver_eq.mpr (Or.inl ⟨rfl, h.keys ▸ htaken, rfl⟩)
    have htry : reservationStep cfg u (.tryReserve q) =
        some (u.setScan q ⟨ride.id, candidates, .trying (tried ++ [d]) rest⟩) := by
      simp only [reservationStep, hscan, hmiss]
    refine ⟨[.tryReserve q], _, .single trivial htry,
      h.move rfl h.keys h.clock (fun p hp => update_of_ne hp _ _) (fun _ _ => rfl) ?_⟩
    change CallsAt _ (update u.scans q _ q) (u.releases q)
    rw [update_self, hrelease]
    exact .reserve
  · have hset : tryReserveDriver cfg u.keys d ride.id u.clock = (true, update u.keys d
        (some ⟨ride.id, u.clock + cfg.driverReservationTtlSeconds⟩)) :=
      tryReserveDriver_eq.mpr (Or.inr ⟨rfl, h.keys ▸ hfree, rfl⟩)
    have htry : reservationStep cfg u (.tryReserve q) =
        some { u.setScan q ⟨ride.id, candidates, .returned (some d)⟩ with
          keys := update u.keys d
            (some ⟨ride.id, u.clock + cfg.driverReservationTtlSeconds⟩) } := by
      simp only [reservationStep, hscan, hset]
    refine ⟨[.tryReserve q], _, .single trivial htry,
      h.move rfl ?_ h.clock (fun p hp => update_of_ne hp _ _) (fun _ _ => rfl) ?_⟩
    · rw [h.keys, h.clock]
    · change CallsAt _ (update u.scans q _ q) (u.releases q)
      rw [update_self, hrelease]
      exact .resolve

/-- The call of `release_driver_reservation` and its GET. -/
theorem CallsOf.getKey (h : CallsOf s u) (hstep : rideStep cfg s (.getKey q) = some t) :
    ∃ seen v, Steps (reservationSystem cfg) free u seen v ∧ CallsOf t v := by
  obtain ⟨call, ride, pending, d, hreq, hd, hcases⟩ := step_getKey hstep
  obtain ⟨hscan, hrelease⟩ := (h.at_stage hreq).none_of_idle rfl
  let asked := u.setRelease q ⟨d, ride.id, .asking⟩
  have hcall : reservationStep cfg u (.release q d ride.id) = some asked := by
    simp only [reservationStep, hrelease, asked]
  have hasked : asked.releases q = some ⟨d, ride.id, .asking⟩ := update_self ..
  have hfirst : Steps (reservationSystem cfg) free u [.release q d ride.id] asked :=
    .single trivial hcall
  have hsecond : ∀ {v}, reservationStep cfg asked (.get q) = some v →
      Steps (reservationSystem cfg) free u ([.release q d ride.id] ++ [.get q]) v :=
    fun hget => hfirst.trans (.single trivial hget)
  have hothers : ∀ release : Release, ∀ p, p ≠ q →
      (asked.setRelease q release).releases p = u.releases p := by
    intro release p hp
    exact (update_of_ne hp _ _).trans (update_of_ne hp _ _)
  have hours : ∀ release : Release, (asked.setRelease q release).releases q = some release :=
    fun release => update_self ..
  rcases hcases with ⟨hholds, rfl⟩ | ⟨hholds, rfl⟩
  · have hget : reservationStep cfg asked (.get q) =
        some (asked.setRelease q ⟨d, ride.id, .deleting⟩) := by
      have hkey : holdsReservation asked.keys d ride.id = true := h.keys ▸ hholds
      simp only [reservationStep, hasked, hkey, if_true]
    refine ⟨_, _, hsecond hget, h.move rfl h.keys h.clock (fun _ _ => rfl) (hothers _) ?_⟩
    rw [hours]
    change CallsAt _ (u.scans q) _
    rw [hscan]
    exact .deleteKey hd
  · have hget : reservationStep cfg asked (.get q) =
        some (asked.setRelease q ⟨d, ride.id, .returned false⟩) := by
      have hkey : holdsReservation asked.keys d ride.id = false := h.keys ▸ hholds
      simp only [reservationStep, hasked, hkey, Bool.false_eq_true, if_false]
    exact ⟨_, _, hsecond hget, h.move rfl h.keys h.clock (fun _ _ => rfl) (hothers _) .commit⟩

/-- Its DEL. -/
theorem CallsOf.deleteKey (h : CallsOf s u) (hstep : rideStep cfg s (.deleteKey q) = some t) :
    ∃ seen v, Steps (reservationSystem cfg) free u seen v ∧ CallsOf t v := by
  obtain ⟨call, ride, pending, d, hreq, hd, rfl⟩ := step_deleteKey hstep
  obtain ⟨d', hd', hrelease⟩ := (h.at_stage hreq).of_deleteKey
  obtain rfl : d = d' := Option.some.inj (hd.symm.trans hd')
  have hdelete : reservationStep cfg u (.delete q) =
      some { u.setRelease q ⟨d, ride.id, .returned true⟩ with
        keys := deleteReservation u.keys d } := by
    simp only [reservationStep, hrelease]
  refine ⟨[.delete q], _, .single trivial hdelete,
    h.move rfl ?_ h.clock (fun _ _ => rfl) (fun p hp => update_of_ne hp _ _) .commit⟩
  rw [h.keys]

/-- **A step of the requests is a run of their calls.** -/
theorem step_callsOf (h : CallsOf s u) {a : RideAction} (hstep : rideStep cfg s a = some t) :
    ∃ seen v, Steps (reservationSystem cfg) free u seen v ∧ CallsOf t v := by
  cases a with
  | create _ _ _ _ _ =>
      obtain ⟨_, _, rfl⟩ := step_create hstep
      exact ⟨[], u, .nil u, h.keys, h.clock, h.calls⟩
  | begin q _ _ _ =>
      obtain ⟨hnone, rfl⟩ := step_begin hstep
      have hcalls := h.calls q
      rw [hnone] at hcalls
      obtain ⟨hscan, hrelease⟩ := hcalls.none_of_idle rfl
      refine h.quiet rfl rfl rfl ?_
      rw [hscan, hrelease]
      exact .loading
  | read q =>
      obtain ⟨call, hreq, ⟨_, rfl⟩ | ⟨ride, _, _, rfl⟩⟩ := step_read hstep
      · exact h.quiet rfl rfl rfl .answered
      · obtain ⟨hscan, hrelease⟩ := (h.at_stage hreq).none_of_idle rfl
        refine h.quiet rfl rfl rfl ?_
        rw [hscan, hrelease]
        exact .updating
  | update q =>
      obtain ⟨call, ride, hreq, ⟨_, _, rfl⟩ | ⟨done, _, _, rfl⟩⟩ := step_update hstep
      · exact h.quiet rfl rfl rfl .answered
      · obtain ⟨hscan, hrelease⟩ := (h.at_stage hreq).none_of_idle rfl
        refine h.quiet rfl rfl rfl ?_
        rw [hscan, hrelease]
        exact callsAt_afterUpdate
  | search q candidates => exact h.search hstep
  | reserve q => exact h.tryReserve hstep
  | resolve q =>
      obtain ⟨call, ride, pending, driverId, hreq, ⟨_, _, rfl⟩ | ⟨done, _, rfl⟩⟩ :=
        step_resolve hstep
      · exact h.quiet rfl rfl rfl .answered
      · exact h.quiet rfl rfl rfl .commit
  | getKey q => exact h.getKey hstep
  | deleteKey q => exact h.deleteKey hstep
  | commit q =>
      obtain ⟨call, ride, pending, hreq, rfl⟩ := step_commit hstep
      exact h.quiet rfl rfl rfl .answered
  | abort q =>
      obtain ⟨call, stage, hreq, _, rfl⟩ := step_abort hstep
      exact h.quiet rfl rfl rfl .answered
  | expire d =>
      obtain ⟨key, hkey, hdue, rfl⟩ := step_expire hstep
      have hexpire : reservationStep cfg u (.expire d) =
          some { u with keys := deleteReservation u.keys d } := by
        simp only [reservationStep, h.keys, hkey, h.clock, hdue, if_true]
      refine ⟨[.expire d], _, .single trivial hexpire, ?_, h.clock, h.calls⟩
      rw [h.keys]
  | advance seconds =>
      obtain rfl := step_advance hstep
      refine ⟨[.advance seconds], { u with clock := u.clock + seconds }, .single trivial rfl,
        h.keys, ?_, h.calls⟩
      rw [h.clock]

end Match

/-- **The requests make these calls.**  The keys and the time of every state that
the requests reach are those of a state that their calls reach. -/
theorem requests_make_calls {cfg : Settings} {ok : RideState → RideAction → Prop} {s : RideState}
    {acts : List RideAction} (h : Steps (rideSystem cfg) ok .init acts s) :
    ∃ seen u, Steps (reservationSystem cfg) free (.start (fun _ => none) 0) seen u ∧
      CallsOf s u := by
  have hstart : CallsOf .init (.start (fun _ => none) 0) := ⟨rfl, rfl, fun _ => .absent⟩
  exact h.refine CallsOf hstart fun _ _ _ _ hcalls _ hstep => step_callsOf hcalls hstep

end RideFlow
