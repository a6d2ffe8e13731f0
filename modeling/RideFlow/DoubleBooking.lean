import RideFlow.RoundTrip

/-!
# No driver on two rides

SET NX admits one matcher for a driver at a time, for as long as the key
lives.  The key lives for `driver_reservation_ttl_seconds`, a trip for as long
as it takes, and nothing takes a driver out of the pool when a ride is
accepted.

The system here is the whole server: any requests at once, the sweeps, the clock
and the expiry of keys at any moment, also in the middle of a request.  A
driver is `Engaged` for a ride that is committed and active with this driver,
and for one that a request in flight has reserved the driver for or written the
driver into.  Two commands engage a driver (`gives`, `engaged_step`): a SET NX
that succeeds, and an UPDATE that makes a ride active again which still has its
driver, as one can that names another version than the one read.

* `driver_on_two_rides` -- a key expires during the trip and the driver is
  matched again;
* `no_double_booking` -- as long as neither command is sent for a driver who is
  engaged for another ride, no driver is ever on two rides.
-/

namespace RideFlow

open RowLocks Trails Tables Function Runs

/-- Driver `d` is on the committed ride `r`. -/
def OnRide (s : RideState) (d : UserId) (r : RideId) : Prop :=
  ∃ ride, s.rides r = some ride ∧ ride.status.Active ∧ ride.driverId = some d

/-- A request in flight has reserved driver `d` for ride `r`, or has written `d`
into its uncommitted row. -/
def HeldFor (s : RideState) (d : UserId) (r : RideId) : Prop :=
  ∃ q call ride pending todo, s.requests q = some (call, .holding ride pending todo) ∧
    ride.id = r ∧ (todo = .resolve (some d) ∨ ride.status.Active ∧ ride.driverId = some d)

/-- Driver `d` is on ride `r`, or is about to be. -/
def Engaged (s : RideState) (d : UserId) (r : RideId) : Prop := OnRide s d r ∨ HeldFor s d r

/-- The driver whom the next command engages, and the ride: a SET NX on a free
key does, and an UPDATE that finds its version, has a legal target and makes a
ride active that was not, if this ride has a driver. -/
def gives (s : RideState) : RideAction → Option (UserId × RideId)
  | .reserve q =>
      match s.requests q with
      | some (_, .holding ride _ (.reserve (d :: _))) =>
          if s.reservations d = none then some (d, ride.id) else none
      | _ => none
  | .update q =>
      match s.requests q with
      | some (call, .updating ride) =>
          (s.rides ride.id).bind fun row =>
            if (row.version : Int) = call.payload.expectedVersion ∧
                call.payload.targetStatus ∈ rideTransitions ride.status ∧
                call.payload.targetStatus.Active ∧ ¬ row.status.Active then
              row.driverId.map fun d => (d, ride.id)
            else none
      | _ => none
  | _ => none

/-- The command about to be sent engages no driver who is engaged for another
ride. -/
def keepsOff (s : RideState) (a : RideAction) : Prop :=
  ∀ d r, gives s a = some (d, r) → ∀ r', Engaged s d r' → r' = r

/-- Every driver is engaged for one ride at most. -/
def Booked (s : RideState) : Prop := ∀ d r r', Engaged s d r → Engaged s d r' → r = r'

section OneStep

variable {cfg : Settings} {s t : RideState} {a : RideAction} {d : UserId} {r : RideId}
  {q : ReqId} {call : TransitionCall} {ride : Ride} {pending : List Applied} {todo : Todo}

/-- A SET NX on a free key engages its driver. -/
theorem gives_reserve {rest : List UserId}
    (hreq : s.requests q = some (call, .holding ride pending (.reserve (d :: rest))))
    (hfree : s.reservations d = none) : gives s (.reserve q) = some (d, ride.id) := by
  simp only [gives, hreq]
  exact if_pos hfree

/-- So does an UPDATE that puts a ride with a driver back on the trip. -/
theorem gives_update {row : Ride} (hreq : s.requests q = some (call, .updating ride))
    (hrow : s.rides ride.id = some row)
    (hversion : (row.version : Int) = call.payload.expectedVersion)
    (hlegal : call.payload.targetStatus ∈ rideTransitions ride.status)
    (hactive : call.payload.targetStatus.Active) (hoff : ¬ row.status.Active)
    (hdriver : row.driverId = some d) : gives s (.update q) = some (d, ride.id) := by
  simp only [gives, hreq, hrow, Option.bind_some]
  rw [if_pos ⟨hversion, hlegal, hactive, hoff⟩, hdriver]
  rfl

/-- Only a request that is being served engages a driver. -/
theorem gives_within (h : gives s a = some (d, r)) : a.within = true := by
  cases a with
  | create _ _ _ _ _ => cases h
  | begin _ _ _ _ => cases h
  | advance _ => cases h
  | _ => rfl

/-- A driver on a ride was on it before the step, or the request that has just
committed held it. -/
theorem onRide_origin (hstep : rideStep cfg s a = some t) (h : OnRide t d r) :
    Engaged s d r := by
  obtain ⟨row, hrow, hactive, hdriver⟩ := h
  rcases step_effects hstep with
    ⟨_, hsame, _⟩ | ⟨new, _, _, hborn, rfl⟩ | ⟨q, call, ride, pending, ha, hreq, rfl⟩
  · rw [hsame] at hrow
    exact Or.inl ⟨row, hrow, hactive, hdriver⟩
  · rcases update_some_iff.mp hrow with ⟨_, rfl⟩ | ⟨_, hold⟩
    · simp [hborn.1, RideStatus.Active] at hactive
    · exact Or.inl ⟨row, hold, hactive, hdriver⟩
  · rcases update_some_iff.mp hrow with ⟨hr, rfl⟩ | ⟨_, hold⟩
    · exact Or.inr ⟨q, call, ride, pending, .commit, hreq, hr.symm, Or.inr ⟨hactive, hdriver⟩⟩
    · exact Or.inl ⟨row, hold, hactive, hdriver⟩

/-- The driver of a row that the first UPDATE made active was on that ride
before, or is engaged by this UPDATE. -/
theorem updated_origin (hkeyed : ∀ r ride, s.rides r = some ride → ride.id = r) {e : Applied}
    (hadds : Adds s (.update q) e) (hactive : e.written.status.Active)
    (hdriver : e.written.driverId = some d) :
    OnRide s d e.written.id ∨ gives s (.update q) = some (d, e.written.id) := by
  cases hadds with
  | @first _ call ride _ hreq hrow _ hchecked htarget hexpected hextra =>
      obtain ⟨hlegal, hversion, hwritten, _⟩ := e.spec
      have hid : e.written.id = ride.id := by rw [hwritten, Ride.set_id, hkeyed _ _ hrow]
      rw [hwritten, hextra, Ride.set_driverId_none] at hdriver
      rw [hwritten, Ride.set_status, htarget] at hactive
      rw [hid]
      by_cases hbefore : e.replaced.status.Active
      · exact Or.inl ⟨e.replaced, hrow, hbefore, hdriver⟩
      · rw [hchecked, htarget] at hlegal
        rw [hexpected] at hversion
        exact Or.inr (gives_update hreq hrow hversion hlegal hactive hbefore hdriver)

/-- The driver of a row that the second UPDATE made active is the one whom its
request had reserved. -/
theorem resolved_origin {driverId : Option UserId} {e : Applied}
    (hreq : s.requests q = some (call, .holding ride pending (.resolve driverId)))
    (hadds : Adds s (.resolve q) e) (hactive : e.written.status.Active)
    (hdriver : e.written.driverId = some d) : HeldFor s d e.written.id := by
  cases hadds with
  | second hreq' _ _ hrow htarget hextra =>
      cases hreq.symm.trans hreq'
      obtain ⟨_, _, hwritten, _⟩ := e.spec
      have hid : e.written.id = ride.id := by rw [hwritten, Ride.set_id, hrow]
      cases driverId with
      | none =>
          rw [hwritten, Ride.set_status, htarget] at hactive
          simp [resolution, RideStatus.Active] at hactive
      | some d' =>
          rw [hwritten, hextra] at hdriver
          obtain rfl : d' = d := Option.some.inj hdriver
          exact ⟨q, call, ride, pending, _, hreq, hid.symm, Or.inl rfl⟩

/-- **Two commands engage a driver.**  Whoever is engaged after a step was so
before, or is the one whom the command was sent for. -/
theorem engaged_step (hkeyed : ∀ r ride, s.rides r = some ride → ride.id = r)
    (hstep : rideStep cfg s a = some t) (h : Engaged t d r) :
    Engaged s d r ∨ gives s a = some (d, r) := by
  rcases h with honRide | ⟨q, call, ride, pending, todo, hreq, rfl, hfor⟩
  · exact Or.inl (onRide_origin hstep honRide)
  · rcases stage_origin hreq hstep with hold | ⟨before, hbefore, hadvances⟩
    · exact Or.inl (Or.inr ⟨q, call, ride, pending, todo, hold, rfl, hfor⟩)
    · cases hadvances with
      | update hadds htodo =>
          rcases hfor with hresolve | ⟨hactive, hdriver⟩
          · exact absurd hresolve (htodo _)
          · rcases updated_origin hkeyed hadds hactive hdriver with honRide | hgives
            · exact Or.inl (Or.inl honRide)
            · exact Or.inr hgives
      | @work _ _ _ todoBefore _ _ hchosen =>
          rcases hfor with hresolve | hwritten
          · obtain ⟨rfl, hfree, rest, rfl⟩ := hchosen d hresolve
            exact Or.inr (gives_reserve hbefore hfree)
          · exact Or.inl (Or.inr ⟨q, call, ride, pending, todoBefore, hbefore, rfl,
              Or.inr hwritten⟩)
      | resolve hadds =>
          rcases hfor with hresolve | ⟨hactive, hdriver⟩
          · cases hresolve
          · exact Or.inl (Or.inr (resolved_origin hbefore hadds hactive hdriver))

end OneStep

section Server

variable {cfg : Settings} {fns : ServerFunctions} {users : List User} {s t : ServerState}
  {a : ServerAction} {acts : List ServerAction} {d : UserId} {r : RideId}

/-- The next step engages no driver who is engaged for another ride. -/
def keepsDriversOff (s : ServerState) (a : ServerAction) : Prop :=
  ∀ b, a = .ride b → keepsOff s.rides b

/-- A ride that a creation has INSERTed is nobody's yet. -/
theorem engaged_insert {rides : RideState} {new : Ride} (hnew : ¬ new.status.Active)
    (h : Engaged (rides.insert (some new)) d r) : Engaged rides d r := by
  rcases h with ⟨row, hrow, hactive, hdriver⟩ | hheld
  · rcases update_some_iff.mp hrow with ⟨_, rfl⟩ | ⟨_, hold⟩
    · exact absurd hactive hnew
    · exact Or.inl ⟨row, hold, hactive, hdriver⟩
  · exact Or.inr hheld

/-- What the server adds to the transitions engages nobody: arrivals, the COMMITs
of creations, the clock. -/
theorem server_engaged
    (hbefore : Steps (serverSystem cfg fns) free (.init users) acts s)
    (hstep : serverStep cfg fns s a = some t) (h : Engaged t.rides d r) :
    Engaged s.rides d r ∨ ∃ b, a = .ride b ∧ gives s.rides b = some (d, r) := by
  have hall : AllRides UnassignedAtFirst s.rides :=
    rides_carry unassigned_inherited (fun _ _ _ _ _ => trivial) hbefore
  rcases server_rides hstep with
    hsame | ⟨b, _, hown, _, hride⟩ | ⟨q, call, ride, hreq, hinsert⟩
  · exact Or.inl (hsame ▸ h)
  · rcases engaged_step hall.keyed hride h with hold | hgives
    · exact Or.inl hold
    · exact Or.inr ⟨b, hown (gives_within hgives), hgives⟩
  · obtain ⟨_, hcreates⟩ := creates_run hbefore
    obtain ⟨id, rfl⟩ := (create_books_kept hcreates).fine q call _ hreq
    have hrequested : ¬ RideStatus.requested.Active := by decide
    rw [hinsert] at h
    exact Or.inl (engaged_insert hrequested h)

/-- **No double booking.**  In every run of the server in which no SET NX that
succeeds, and no UPDATE that puts a ride back on its trip, is for a driver who is
on, reserved for or written into another ride, no driver is on two rides. -/
theorem no_double_booking
    (h : Steps (serverSystem cfg fns) keepsDriversOff (.init users) acts s) :
    ∀ d r r', OnRide s.rides d r → OnRide s.rides d r' → r = r' := by
  have hbooked : Booked s.rides := by
    refine h.history (fun _ s => Booked s.rides) ?_ ?_
    · rintro d r r' (⟨_, hrow, _⟩ | ⟨_, _, _, _, _, hreq, _⟩)
      · cases hrow
      · cases hreq
    · intro front u a v hbefore hbooked hok hstep
      have hfree := hbefore.mono fun _ _ _ => trivial
      intro d r r' hr hr'
      rcases server_engaged hfree hstep hr with hold | ⟨b, rfl, hgives⟩
      · rcases server_engaged hfree hstep hr' with hold' | ⟨b, rfl, hgives⟩
        · exact hbooked d r r' hold hold'
        · exact hok b rfl d r' hgives r hold
      · rcases server_engaged hfree hstep hr' with hold' | ⟨c, hsame, hgives'⟩
        · exact (hok b rfl d r hgives r' hold').symm
        · cases hsame
          cases hgives.symm.trans hgives'
          rfl
  intro d r r' hr hr'
  exact hbooked d r r' (Or.inl hr) (Or.inl hr')

/-- Commands engage a driver for one ride only. -/
def givesOnly (rideOf : UserId → RideId) (s : ServerState) : ServerAction → Bool
  | .ride b => (gives s.rides b).all fun given => rideOf given.1 = given.2
  | _ => true

/-- A run that never engages a driver for a second ride keeps its drivers off. -/
theorem keepsDriversOff_of_givesOnly {rideOf : UserId → RideId}
    (h : Steps (serverSystem cfg fns) (fun s a => givesOnly rideOf s a) (.init users) acts s) :
    Steps (serverSystem cfg fns) keepsDriversOff (.init users) acts s := by
  have hone : ∀ {s a b d r}, givesOnly rideOf s a = true → a = .ride b →
      gives s.rides b = some (d, r) → rideOf d = r := by
    rintro s _ b d r hok rfl hgives
    simpa [givesOnly, hgives] using hok
  refine h.strengthen (fun s => (∃ acts, Steps (serverSystem cfg fns) free (.init users) acts s) ∧
    ∀ d r, Engaged s.rides d r → rideOf d = r) ⟨⟨[], .nil _⟩, ?_⟩ ?_ ?_
  · rintro d r (⟨_, hrow, _⟩ | ⟨_, _, _, _, _, hreq, _⟩)
    · cases hrow
    · cases hreq
  · rintro s a t ⟨⟨acts, hbefore⟩, hengaged⟩ hok hstep
    refine ⟨⟨acts ++ [a], hbefore.snoc trivial hstep⟩, fun d r hr => ?_⟩
    rcases server_engaged hbefore hstep hr with hold | ⟨b, hb, hgives⟩
    · exact hengaged d r hold
    · exact hone hok hb hgives
  · rintro s a ⟨_, hengaged⟩ hok b hb d r hgives r' hr'
    rw [← hone hok hb hgives, hengaged d r' hr']

end Server

/-- The passenger asks for a driver; the search finds driver 1. -/
def startMatching (q : ReqId) (r : RideId) : List ServerAction :=
  [.arrive (.transitionRide q r ⟨.matching, 1⟩) otherAccessToken,
    .ride (.read q), .ride (.update q), .ride (.search q [1])]

/-- Two requests match two rides at once, and both try the one driver. -/
def twoRidesOneDriver : List ServerAction :=
  driverAppears 0 1 driverAccessToken ++ requestRide 0 ++ requestRide 1 ++
    startMatching 0 0 ++ startMatching 1 1 ++
    [.ride (.reserve 0), .ride (.reserve 1), .ride (.resolve 0), .ride (.reserve 1),
      .ride (.resolve 1), .ride (.commit 1), .ride (.commit 0)]

/-- Is the ride accepted by driver 1? -/
def acceptedByFirst (s : ServerState) (r : RideId) : Bool :=
  (s.rides.rides r).any fun ride => ride.status = .accepted ∧ ride.driverId = some 1

theorem onRide_of_accepted {s : ServerState} {r : RideId} (h : acceptedByFirst s r = true) :
    OnRide s.rides 1 r := by
  obtain ⟨ride, hride, hbooked⟩ := (Option.any_eq_true _ _).mp h
  obtain ⟨haccepted, hdriver⟩ := of_decide_eq_true hbooked
  exact ⟨ride, hride, Or.inl haccepted, hdriver⟩

/-- The second of the two requests finds nobody. -/
theorem one_driver_one_ride : ∃ s,
    Steps (serverSystem {} sampleTown) keepsDriversOff (.init townUsers) twoRidesOneDriver s ∧
    OnRide s.rides 1 0 ∧ ∀ d r r', OnRide s.rides d r → OnRide s.rides d r' → r = r' := by
  have hreplay : (execWhere (serverSystem {} sampleTown) (fun s a => givesOnly (fun _ => 0) s a)
      (.init townUsers) twoRidesOneDriver).any (fun s => acceptedByFirst s 0) = true := by
    decide +kernel
  obtain ⟨s, hrun, hs⟩ := Steps.of_execWhere_any hreplay
  have hoff := keepsDriversOff_of_givesOnly hrun
  exact ⟨s, hoff, onRide_of_accepted hs, no_double_booking hoff⟩

/-- **A driver is on two rides.**  The key of the first reservation expires
after 15 seconds, while the first ride is still active. -/
theorem driver_on_two_rides :
    ¬ ∀ (cfg : Settings) (fns : ServerFunctions) (users : List User) (acts : List ServerAction)
        (s : ServerState),
      Steps (serverSystem cfg fns) free (.init users) acts s →
        ∀ d r r', OnRide s.rides d r → OnRide s.rides d r' → r = r' := by
  intro hclaim
  have hreplay : (exec (serverSystem {} sampleTown) (.init townUsers)
      (driverAppears 0 1 driverAccessToken ++ requestRide 0 ++ startMatching 0 0 ++
        [.ride (.reserve 0), .ride (.resolve 0), .ride (.commit 0), .advance 15,
          .ride (.expire 1)] ++
        requestRide 1 ++ startMatching 1 1 ++
        [.ride (.reserve 1), .ride (.resolve 1), .ride (.commit 1)])).any
      (fun s => acceptedByFirst s 0 ∧ acceptedByFirst s 1) = true := by decide +kernel
  obtain ⟨s, hrun, hs⟩ := Steps.of_exec_any hreplay
  obtain ⟨hfirst, hsecond⟩ := of_decide_eq_true hs
  have hsame := hclaim {} sampleTown townUsers _ s hrun 1 0 1 (onRide_of_accepted hfirst)
    (onRide_of_accepted hsecond)
  cases hsame

end RideFlow
