import RideFlow.Gateway
import RideFlow.References
import RideFlow.RoundTrip

/-!
# The history of a ride on the server

The store of locked rows behind the ride requests is kept sound by the whole server,
which also inserts rides (`run_chronicles`).  So what two clients read of a ride, one
after the other, are two states of one history: the later one is the earlier one after
some status changes, each of which added one to the version and wrote one event into
the outbox, and nothing but the status, the version, the driver and the time of the
update has changed (`reads_tell_one_history`).  Clients can take the version for the
ride: where it is the same, so is all that was read.
-/

namespace RideFlow

open Function RowLocks Runs Trails

/-- The ride store of a server is in order, and so are the books that are kept of it. -/
structure ServerState.Chronicles (fns : ServerFunctions) (s : ServerState) : Prop where
  refers : s.Refers
  creates : CreateBooks fns.body s.creates
  sound : Sound rideSchema Born anyUpdate s.rides.store
  ordered : Ordered rideSchema s.rides.store
  distinct : Distinct rideSchema s.rides.store
  books : Books s.rides

section Server

variable {cfg : Settings} {fns : ServerFunctions} {users : List User} {s t : ServerState}
  {a : ServerAction} {acts more : List ServerAction}

/-- A ride that is about to be committed is new. -/
theorem storing_fresh (h : s.Refers) {q : CreateId} {call : CreateCall} {ride : Ride}
    (hreq : s.creates.requests q = some (call, .storing ride)) :
    s.rides.rides ride.id = none := by
  by_contra hrow
  obtain ⟨old, hmem, hid⟩ := h.created ride.id hrow
  exact (h.creates.storing q call ride hreq).2.2.2 old hmem hid

/-- The ride that a creation is about to commit is a new one. -/
theorem storing_born {creates : CreateState} (h : CreateBooks fns.body creates) {q : CreateId}
    {call : CreateCall} {ride : Ride}
    (hreq : creates.requests q = some (call, .storing ride)) : Born ride := by
  obtain ⟨id, rfl⟩ : ∃ id, ride = insertedRide fns.body call id := h.fine q call _ hreq
  exact ⟨rfl, rfl, rfl⟩

/-- **Every step of the server is a move of the ride store.** -/
theorem server_move (h : s.Chronicles fns) (hstep : serverStep cfg fns s a = some t) :
    Move rideSchema Born anyUpdate s.rides.store t.rides.store ∧ Books t.rides := by
  rcases server_rides hstep with hsame | ⟨b, _, _, _, hride⟩ | ⟨q, call, ride, hreq, hinsert⟩
  · rw [hsame]
    exact ⟨.silent, h.books⟩
  · exact ⟨step_move h.sound (fun _ _ => trivial) hride, step_books h.sound h.books hride⟩
  · rw [hinsert]
    exact ⟨.insert (storing_born h.creates hreq) (storing_fresh h.refers hreq),
      h.books.same rfl rfl rfl⟩

/-- One step of the server keeps the books of the creations. -/
theorem server_createBooks (h : CreateBooks fns.body s.creates)
    (hstep : serverStep cfg fns s a = some t) : CreateBooks fns.body t.creates := by
  rcases server_creates hstep with hsame | ⟨b, _, hcreate⟩
  · exact hsame ▸ h
  · exact step_createBooks h hcreate

/-- One step of the server keeps the chronicles. -/
theorem server_chronicles (h : s.Chronicles fns) (hstep : serverStep cfg fns s a = some t) :
    t.Chronicles fns := by
  obtain ⟨hmove, hbooks⟩ := server_move h hstep
  exact ⟨server_refers h.refers hstep, server_createBooks h.creates hstep,
    hmove.sound h.sound, hmove.ordered h.sound h.ordered, hmove.distinct h.ordered h.distinct,
    hbooks⟩

/-- There is nothing to tell at first. -/
theorem chronicles_init (users : List User) : (ServerState.init users).Chronicles fns where
  refers := refers_init users
  creates := create_books_kept (.nil _ : Steps (createSystem fns.body) free .init [] .init)
  sound := sound_init
  ordered := ordered_init
  distinct := by
    constructor <;> intros <;>
      simp_all [ServerState.init, RideState.init, RideState.store, RideState.opened]
  books := by constructor <;> intros <;> simp_all [ServerState.init, RideState.init]

/-- The chronicles are kept by every run. -/
theorem run_chronicles (h : Steps (serverSystem cfg fns) free (.init users) acts s) :
    s.Chronicles fns :=
  h.invariant (ServerState.Chronicles fns) (chronicles_init users)
    fun _ _ _ hs _ hstep => server_chronicles hs hstep

/-- From one moment to a later one, rides move along the changes that the log gains. -/
theorem server_extends (h : s.Chronicles fns)
    (hmore : Steps (serverSystem cfg fns) free s more t) :
    Extends rideSchema s.rides.store t.rides.store := by
  refine hmore.along (fun u v => Extends rideSchema u.rides.store v.rides.store)
    (fun _ => .refl _) (fun _ _ _ => .trans) (ServerState.Chronicles fns) h
    (fun _ _ _ hu _ hstep => server_chronicles hu hstep) ?_
  intro u b v hu _ hstep
  exact (server_move hu hstep).1.extends hu.sound

/-- What `get_ride` returns is the committed row. -/
theorem getRide_endpoint {r : RideId} {token : String} {ride : Ride}
    (h : s.getRide fns r token = .ok ride) :
    ∃ user, getCurrentUser fns.decodeToken s.accounts.auth.users s.now token = .ok user ∧
      s.data.rides r = some ride := by
  unfold ServerState.getRide at h
  split at h
  case h_1 => cases h
  case h_2 user huser => exact ⟨user, huser, (getRide_ok.mp h).1⟩

/-- The row is the ride with another status, version, driver and time of its update at
most. -/
def Ride.IsStateOf (row ride : Ride) : Prop :=
  row = { ride with
    status := row.status
    version := row.version
    driverId := row.driverId
    updatedAt := row.updatedAt }

/-- A transition leaves a ride the ride it is. -/
theorem Applied.keeps_ride (e : Applied) {ride : Ride} (h : e.replaced.IsStateOf ride) :
    e.written.IsStateOf ride := by
  have hwritten := e.spec.2.2.1
  unfold Ride.IsStateOf at h ⊢
  rw [hwritten, h]
  rfl

/-- A later state of a ride, with the changes in between. -/
structure Later (ride : Ride) (changes : List Applied) (ride' : Ride) : Prop where
  trail : IsTrail Applied.replaced Applied.written ride changes ride'
  version : ride'.version = ride.version + changes.length
  rest : ride'.IsStateOf ride

/-- What a trail of changes leads to is later. -/
theorem later_of_trail {ride ride' : Ride} {changes : List Applied}
    (h : IsTrail Applied.replaced Applied.written ride changes ride') :
    Later ride changes ride' where
  trail := h
  version := h.rank_end Ride.version fun e _ => version_climbs e
  rest := h.vertex_inv (P := fun row => row.IsStateOf ride) rfl fun e _ => e.keeps_ride

/-- The same version is the same ride. -/
theorem Later.same {ride ride' : Ride} {changes : List Applied} (h : Later ride changes ride')
    (hversion : ride'.version = ride.version) : ride' = ride := by
  have hnone : changes = [] := by
    have hlength := h.version
    rw [hversion] at hlength
    exact List.eq_nil_of_length_eq_zero (by omega)
  have htrail := h.trail
  rw [hnone] at htrail
  exact htrail.symm

/-- A ride that was there is there, later, and the outbox has told of every change. -/
theorem rides_go_on (h : s.Chronicles fns) (hmore : Steps (serverSystem cfg fns) free s more t)
    {r : RideId} {ride : Ride} (hride : s.data.rides r = some ride) :
    ∃ ride' changes, t.data.rides r = some ride' ∧ Later ride changes ride' ∧
      t.rides.committed r = s.rides.committed r ++ changes ∧
      t.rides.events r = s.rides.events r ++ changes.map Applied.event := by
  obtain ⟨ride', changes, hride', hlog, htrail⟩ := server_extends h hmore r ride hride
  have hlater : t.Chronicles fns := hmore.invariant (ServerState.Chronicles fns) h
    fun _ _ _ hu _ hstep => server_chronicles hu hstep
  have hcommitted : t.rides.committed r = s.rides.committed r ++ changes := hlog
  refine ⟨ride', changes, hride', later_of_trail htrail, hcommitted, ?_⟩
  rw [events_eq hlater.books.outbox, events_eq h.books.outbox, hcommitted, List.map_append]

/-- **Reads tell one history.**  Where two clients read a ride one after the other, the
second one reads what the first one read after some changes of its status, driver and
version, of each of which the outbox tells, in order; nothing else about the ride has
changed, and nothing at all where the version is the same. -/
theorem reads_tell_one_history (h : Steps (serverSystem cfg fns) free (.init users) acts s)
    (hmore : Steps (serverSystem cfg fns) free s more t) {r : RideId} {token token' : String}
    {ride ride' : Ride} (hread : s.getRide fns r token = .ok ride)
    (hread' : t.getRide fns r token' = .ok ride') :
    (∃ changes, Later ride changes ride' ∧
      t.rides.events r = s.rides.events r ++ changes.map Applied.event) ∧
    (ride'.version = ride.version → ride' = ride) := by
  obtain ⟨_, _, hride⟩ := getRide_endpoint hread
  obtain ⟨_, _, hride'⟩ := getRide_endpoint hread'
  obtain ⟨last, changes, hlast, hlater, _, hevents⟩ := rides_go_on (run_chronicles h) hmore hride
  obtain rfl : last = ride' := Option.some.inj (hlast.symm.trans hride')
  exact ⟨⟨changes, hlater, hevents⟩, hlater.same⟩

end Server

/-- The passenger reads the ride before and after a driver is found: two changes. -/
theorem driver_found_between_reads : ∃ s t ride ride' changes,
    Steps (serverSystem {} sampleTown) free (.init townUsers) rideRequested s ∧
    Steps (serverSystem {} sampleTown) free s servedWhileWaiting t ∧
    s.getRide sampleTown 0 otherAccessToken = .ok ride ∧
    t.getRide sampleTown 0 otherAccessToken = .ok ride' ∧
    Later ride changes ride' ∧ changes.length = 2 := by
  have hfirst : (exec (serverSystem {} sampleTown) (.init townUsers) rideRequested).any (fun s =>
      (s.getRide sampleTown 0 otherAccessToken).toOption.map Ride.version = some 1) = true := by
    decide +kernel
  have hboth : (exec (serverSystem {} sampleTown) (.init townUsers)
      (rideRequested ++ servedWhileWaiting)).any (fun t =>
      (t.getRide sampleTown 0 otherAccessToken).toOption.map Ride.version = some 3) = true := by
    decide +kernel
  obtain ⟨s, hbefore, hs⟩ := Steps.of_exec_any hfirst
  obtain ⟨t, hrun, ht⟩ := Steps.of_exec_any hboth
  obtain ⟨s', hbefore', hafter⟩ := hrun.split
  obtain rfl := hbefore'.unique hbefore
  have hread : ∀ {u : ServerState} {version : Nat},
      (u.getRide sampleTown 0 otherAccessToken).toOption.map Ride.version = some version →
      ∃ ride, u.getRide sampleTown 0 otherAccessToken = .ok ride ∧ ride.version = version := by
    intro u version hversion
    cases hanswer : u.getRide sampleTown 0 otherAccessToken with
    | error _ => simp [hanswer, Except.toOption] at hversion
    | ok ride => exact ⟨ride, rfl, by simpa [hanswer, Except.toOption] using hversion⟩
  obtain ⟨ride, hride, hone⟩ := hread (of_decide_eq_true hs)
  obtain ⟨ride', hride', hthree⟩ := hread (of_decide_eq_true ht)
  obtain ⟨⟨changes, hlater, _⟩, _⟩ := reads_tell_one_history hbefore hafter hride hride'
  refine ⟨s', t, ride, ride', changes, hbefore, hafter, hride, hride', hlater, ?_⟩
  have hversion := hlater.version
  omega

end RideFlow
