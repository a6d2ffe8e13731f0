import RideFlow.OneAtATime

/-!
# An accepted ride has its driver

A ride becomes ACCEPTED in two places.  The matching branch passes the driver
it reserved to `apply_transition`; the generic branch passes nothing, also
when a driver accepts an unassigned ride, which `transition_ride` authorises.
A ride that went through NO_DRIVERS_FOUND and back to MATCHING waits there for
exactly such a request.

* `accepted_without_driver` -- a driver accepts the ride and is not recorded;
* `accepted_rides_have_drivers` -- as long as no authorised request asks for
  ACCEPTED on a ride in MATCHING at its version, every accepted, driven or
  completed ride has a driver.
-/

namespace RideFlow

open RowLocks Runs

/-- Every ride from ACCEPTED to COMPLETED has a driver, and a driver's own
request with target ACCEPTED that updated an unassigned ride and was answered
200 recorded that driver. -/
def DriversRecorded (s : RideState) : Prop :=
  (∀ r ride, s.rides r = some ride → ride.status.Active ∨ ride.status = .completed →
    ride.driverId.isSome) ∧
  ∀ e ∈ s.log, ∀ call ride, s.requests e.request = some (call, .answered (.ok ride)) →
    call.user.role = .driver → call.payload.targetStatus = .accepted →
    e.replaced.driverId = none → e.written.driverId = some call.user.id

/-- The request, already authorised, does not accept a ride in MATCHING. -/
def acceptsNoMatchingRide (s : Serial) : RideAction → Bool
  | .update q =>
      match s.base.requests q with
      | some (call, .updating ride) =>
          !(call.payload.targetStatus = .accepted ∧ ride.status = .matching ∧
            (ride.version : Int) = call.payload.expectedVersion)
      | _ => true
  | _ => true

/-- Only a ride in MATCHING can become ACCEPTED. -/
theorem accepted_from_matching {status : RideStatus}
    (h : .accepted ∈ rideTransitions status) : status = .matching := by
  cases status <;> simp_all [rideTransitions]

/-- A driven or completed ride was accepted before, or is being accepted. -/
theorem driven_from {status target : RideStatus} (h : target ∈ rideTransitions status)
    (hdriven : target.Active ∨ target = .completed) :
    target = .accepted ∨ status.Active := by
  cases status <;> cases target <;> simp_all [rideTransitions, RideStatus.Active]

/-- An applied transition of the checked status that records a driver when it
accepts. -/
structure RecordsDriver (e : Applied) : Prop where
  checked : CheckedStatus e
  accepted : e.target = .accepted → e.extra.isSome

/-- Such transitions keep the drivers of driven rides. -/
theorem RecordsDriver.keeps {e : Applied} (h : RecordsDriver e)
    (hsrc : e.replaced.status.Active ∨ e.replaced.status = .completed →
      e.replaced.driverId.isSome)
    (hdriven : e.written.status.Active ∨ e.written.status = .completed) :
    e.written.driverId.isSome := by
  have hlegal := h.checked.legal
  obtain ⟨_, _, hwritten, _⟩ := e.spec
  have htarget : e.written.status = e.target := by rw [hwritten, Ride.set_status]
  rw [hwritten]
  cases hextra : e.extra with
  | some fields => rfl
  | none =>
      rw [Ride.set_driverId_none]
      rcases driven_from hlegal hdriven with haccepted | hactive
      · have hsome := h.accepted (htarget ▸ haccepted)
        rw [hextra] at hsome
        cases hsome
      · exact hsrc (Or.inl hactive)

section Runs

variable {cfg : Settings} {s : Serial} {a : RideAction} {acts : List RideAction}

/-- Without hand-made acceptances every update records its driver. -/
theorem adds_recordsDriver {e : Applied} (hok : acceptsNoMatchingRide s a = true)
    (hadds : Adds s.base a e) (hread : Rereads e) : RecordsDriver e where
  checked := congrArg Ride.status hread
  accepted := by
    intro htarget
    obtain ⟨hlegal, hversion, _, _⟩ := e.spec
    rw [htarget] at hlegal
    have hmatching : e.checked.status = .matching := accepted_from_matching hlegal
    cases hadds with
    | @first q call ride _ hreq _ _ hchecked hcall hexpected _ =>
        have hsame : e.checked = e.replaced := hread
        rw [← hsame, hchecked, hexpected] at hversion
        rw [hchecked] at hmatching
        rw [htarget] at hcall
        simp [acceptsNoMatchingRide, hreq, ← hcall, hmatching, hversion] at hok
    | @second _ _ _ _ driverId _ _ _ _ _ hresolved hextra =>
        cases driverId with
        | none =>
            rw [htarget] at hresolved
            cases hresolved
        | some d => rw [hextra]; rfl

/-- **Accepted rides have drivers**, and a driver's acceptance records that
driver, in every run of requests one at a time in which no authorised request
asks for ACCEPTED on a ride in MATCHING at the version it carries. -/
theorem accepted_rides_have_drivers
    (h : Steps (serialSystem cfg) (fun s a => acceptsNoMatchingRide s a) .init acts s) :
    DriversRecorded s.base := by
  have hsound : Sound rideSchema Born RecordsDriver s.base.store :=
    (serial_settled (fun _ _ _ hok hadds hread => adds_recordsDriver hok hadds hread) h).sound
  have hbooks := books_kept (serial_run h)
  constructor
  · intro r ride hride
    exact hsound.row_inv
      (P := fun ride => ride.status.Active ∨ ride.status = .completed → ride.driverId.isSome)
      (fun row hborn hdriven => by simp [hborn.1, RideStatus.Active] at hdriven)
      (fun e he hsrc => he.keeps hsrc) hride
  · intro e _ call ride hans _ haccepted _
    obtain ⟨f, hf, _, _, _, htarget, hextra⟩ := hbooks.fine _ call _ hans
    have hsome := (hsound.log_good f hf).accepted (htarget.trans haccepted)
    rw [hextra] at hsome
    cases hsome

end Runs

/-- A trip that the matching branch accepted. -/
theorem matched_trip_has_driver : ∃ s,
    Steps (serialSystem {}) (fun s a => acceptsNoMatchingRide s a) .init
      (.create 0 (sampleUser 1 .passenger) sampleBody sampleFare none :: driveToCompletion) s ∧
    (s.base.rides 0).any (fun ride => ride.status = .completed) ∧
    DriversRecorded s.base := by
  have hreplay : (execWhere (serialSystem {}) (fun s a => acceptsNoMatchingRide s a) .init
      (.create 0 (sampleUser 1 .passenger) sampleBody sampleFare none :: driveToCompletion)).any
      (fun s => (s.base.rides 0).any fun ride => ride.status = .completed) = true := by decide
  obtain ⟨s, hrun, hend⟩ := Steps.of_execWhere_any hreplay
  exact ⟨s, hrun, hend, accepted_rides_have_drivers hrun⟩

/-- No driver is found, the passenger tries again, and driver 2 accepts. -/
def acceptByHand : List RideAction :=
  [.create 0 (sampleUser 1 .passenger) sampleBody sampleFare none,
    .begin 0 (sampleUser 1 .passenger) 0 ⟨.matching, 1⟩,
    .read 0, .update 0, .search 0 [], .reserve 0, .resolve 0, .commit 0,
    .begin 1 (sampleUser 1 .passenger) 0 ⟨.matching, 3⟩, .read 1, .update 1, .commit 1,
    .begin 2 (sampleUser 2 .driver) 0 ⟨.accepted, 4⟩, .read 2, .update 2, .commit 2]

/-- **The ride is accepted without a driver.** -/
theorem accepted_without_driver :
    ¬ ∀ (cfg : Settings) (acts : List RideAction) (s : Serial),
      Steps (serialSystem cfg) free .init acts s → DriversRecorded s.base := by
  intro hclaim
  have hreplay : (exec (serialSystem {}) .init acceptByHand).any
      (fun s => (s.base.rides 0).any fun ride =>
        ride.status = .accepted ∧ ride.driverId = none) = true := by decide
  obtain ⟨s, hrun, hs⟩ := Steps.of_exec_any hreplay
  obtain ⟨ride, hride, hlost⟩ := (Option.any_eq_true _ _).mp hs
  obtain ⟨haccepted, hnone⟩ := of_decide_eq_true hlost
  have hsome := (hclaim {} _ s hrun).1 0 ride hride (Or.inl (Or.inl haccepted))
  rw [hnone] at hsome
  cases hsome

end RideFlow
