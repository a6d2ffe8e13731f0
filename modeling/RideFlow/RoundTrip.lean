import RideFlow.Rejections
import RideFlow.ServerRows

/-!
# The matching round trip

One `transition_ride` with target MATCHING on a ride in REQUESTED, from its
arrival to its COMMIT, while no other request changes anything that is stored:
others may arrive, read, wait for the row lock or fail.  `Progress` says for
each stage of the request what it has done to the stores so far; the last stage
is the whole effect (`matching_round_trip`).
-/

namespace RideFlow

open Function Runs Tables

/-- The first candidate without a reservation. -/
def firstFree (keys : Reservations) (candidates : List UserId) : Option UserId :=
  candidates.find? fun d => (keys d).isNone

section FirstFree

variable {keys : Reservations} {tried rest : List UserId} {d : UserId}

/-- All candidates are reserved. -/
theorem firstFree_append_nil (htried : ∀ d ∈ tried, (keys d).isSome) :
    firstFree keys (tried ++ []) = none := by
  simpa [firstFree, List.find?_eq_none, Option.isSome_iff_ne_none] using htried

/-- Those before a free one are. -/
theorem firstFree_append_cons (htried : ∀ d ∈ tried, (keys d).isSome) (hfree : keys d = none) :
    firstFree keys (tried ++ d :: rest) = some d := by
  have hnone : tried.find? (fun d => (keys d).isNone) = none := by
    simpa [List.find?_eq_none, Option.isSome_iff_ne_none] using htried
  simp [firstFree, List.find?_append, hnone, hfree]

end FirstFree

/-- The keys with one more, if a driver was found. -/
def Reservations.withKey (keys : Reservations) (rideId : RideId) (expiresAt : Timestamp) :
    Option UserId → Reservations
  | none => keys
  | some d => update keys d (some ⟨rideId, expiresAt⟩)

namespace Ride

variable (ride : Ride) (driverId : Option UserId) (now : Timestamp)

/-- The row after the first `apply_transition` of the round trip. -/
def searching : Ride := ride.set .matching none now

/-- The row after the second one. -/
def resolved : Ride :=
  (ride.searching now).set (resolution driverId).1 (resolution driverId).2 now

/-- A ride without a driver gets the one that was found. -/
theorem resolved_driverId (hunassigned : ride.driverId = none) :
    (ride.resolved driverId now).driverId = driverId := by
  cases driverId with
  | none => exact hunassigned
  | some d => rfl

/-- The events of the two. -/
def searchEvent (id : Nat) : OutboxEvent :=
  statusChanged id (ride.searching now) .requested .matching now

def resolveEvent (id : Nat) : OutboxEvent :=
  statusChanged id (ride.resolved driverId now) .matching (resolution driverId).1 now

end Ride

/-- What the transitions write to. -/
structure RideStores where
  rides : RideId → Option Ride
  outbox : List OutboxEvent
  reservations : Reservations

def RideState.stores (s : RideState) : RideStores := ⟨s.rides, s.outbox, s.reservations⟩

/-- What a request of the round trip has done by the time it is in a stage:
`base` are the stores that it found, `row` the ride, and `Found` the lists that
a search can return. -/
inductive Progress (Found : List UserId → Prop) (base : RideStores) (row : Ride)
    (call : TransitionCall) (stores : RideStores) : Stage → Prop
  | loading (hstores : stores = base) : Progress Found base row call stores .loading
  | updating (hstores : stores = base) : Progress Found base row call stores (.updating row)
  | searching {first : Applied} (hstores : stores = base)
      (hfirst : first.event = row.searchEvent call.startedAt first.effectAt) :
      Progress Found base row call stores
        (.holding (row.searching call.startedAt) [first] .search)
  | reserving {first : Applied} (tried rest : List UserId) (hstores : stores = base)
      (hfirst : first.event = row.searchEvent call.startedAt first.effectAt)
      (hfound : Found (tried ++ rest)) (htried : ∀ d ∈ tried, (base.reservations d).isSome) :
      Progress Found base row call stores
        (.holding (row.searching call.startedAt) [first] (.reserve rest))
  | resolving {first : Applied} {candidates : List UserId} {driverId : Option UserId}
      (expiresAt : Timestamp) (hfound : Found candidates)
      (hdriver : driverId = firstFree base.reservations candidates)
      (hstores : stores =
        { base with reservations := base.reservations.withKey row.id expiresAt driverId })
      (hfirst : first.event = row.searchEvent call.startedAt first.effectAt) :
      Progress Found base row call stores
        (.holding (row.searching call.startedAt) [first] (.resolve driverId))
  | committing {first second : Applied} {candidates : List UserId} {driverId : Option UserId}
      (expiresAt : Timestamp) (hfound : Found candidates)
      (hdriver : driverId = firstFree base.reservations candidates)
      (hstores : stores =
        { base with reservations := base.reservations.withKey row.id expiresAt driverId })
      (hfirst : first.event = row.searchEvent call.startedAt first.effectAt)
      (hsecond : second.event = row.resolveEvent driverId call.startedAt second.effectAt) :
      Progress Found base row call stores
        (.holding (row.resolved driverId call.startedAt) [first, second] .commit)
  | committed {candidates : List UserId} {driverId : Option UserId} (expiresAt : Timestamp)
      (m n : Nat) (hfound : Found candidates)
      (hdriver : driverId = firstFree base.reservations candidates)
      (hstores : stores =
        { rides := update base.rides row.id (some (row.resolved driverId call.startedAt))
          outbox := base.outbox ++
            [row.searchEvent call.startedAt m, row.resolveEvent driverId call.startedAt n]
          reservations := base.reservations.withKey row.id expiresAt driverId }) :
      Progress Found base row call stores
        (.answered (.ok (row.resolved driverId call.startedAt)))
  | failed {outcome : Outcome} (hrides : stores.rides = base.rides)
      (houtcome : ∀ ride, outcome ≠ .ok ride) :
      Progress Found base row call stores (.answered outcome)

section Steps

variable {cfg : Settings} {Found : List UserId → Prop} {base : RideStores} {row : Ride}
  {call : TransitionCall} {s t : RideState} {q : ReqId} {stage : Stage}

/-- Unless it was answered, it has written no row. -/
theorem Progress.rides (h : Progress Found base row call s.stores stage)
    (hopen : ∀ outcome, stage ≠ .answered outcome) : s.rides = base.rides := by
  have hstores : s.stores.rides = base.rides := by
    cases h with
    | loading hstores => rw [hstores]
    | updating hstores => rw [hstores]
    | searching hstores _ => rw [hstores]
    | reserving _ _ hstores _ _ _ => rw [hstores]
    | resolving _ _ _ hstores _ => rw [hstores]
    | committing _ _ _ hstores _ _ => rw [hstores]
    | committed _ _ _ _ _ _ => exact absurd rfl (hopen _)
    | failed hrides _ => exact hrides
  exact hstores

/-- The request goes on to a stage, with these stores. -/
def Reaches (Found : List UserId → Prop) (base : RideStores) (row : Ride)
    (call : TransitionCall) (q : ReqId) (t : RideState) : Prop :=
  ∃ stage, t.requests q = some (call, stage) ∧ Progress Found base row call t.stores stage

theorem Reaches.rollback {outcome : Outcome} (hrides : s.rides = base.rides)
    (houtcome : ∀ ride, outcome ≠ .ok ride) :
    Reaches Found base row call q (s.rollback q call outcome) :=
  ⟨_, update_self .., .failed hrides houtcome⟩

/-- The SELECT finds the row of the ride. -/
theorem Reaches.read (hrow : base.rides row.id = some row) (hid : call.rideId = row.id)
    (hreq : s.requests q = some (call, stage))
    (h : Progress Found base row call s.stores stage) (hstep : rideStep cfg s (.read q) = some t) :
    Reaches Found base row call q t := by
  obtain ⟨call', hreq', ⟨error, rfl⟩ | ⟨ride, hride, _, rfl⟩⟩ := step_read hstep
  · cases hreq.symm.trans hreq'
    exact .rollback (h.rides (by simp)) (by simp)
  · cases hreq.symm.trans hreq'
    rw [h.rides (by simp), hid, hrow] at hride
    obtain rfl := Option.some.inj hride
    cases h with
    | loading hstores => exact ⟨_, update_self .., .updating hstores⟩

/-- The first UPDATE finds the row at its version, and the request searches. -/
theorem Reaches.update (hrow : base.rides row.id = some row)
    (hrequested : row.status = .requested) (hpayload : call.payload = ⟨.matching, row.version⟩)
    (hreq : s.requests q = some (call, stage))
    (h : Progress Found base row call s.stores stage)
    (hstep : rideStep cfg s (.update q) = some t) : Reaches Found base row call q t := by
  obtain ⟨call', ride, hreq', ⟨e, _, rfl⟩ | ⟨done, hdone, _, rfl⟩⟩ := step_update hstep
  · cases hreq.symm.trans hreq'
    exact .rollback (h.rides (by simp)) (by simp)
  · cases hreq.symm.trans hreq'
    have hrides := h.rides (by simp)
    cases h with
    | updating hstores =>
        obtain ⟨hstored, _, _, hchecked, htarget, _, hextra, hat⟩ := attemptTransition_ok hdone
        rw [hrides, hrow] at hstored
        obtain rfl := Option.some.inj hstored
        obtain ⟨_, _, hwritten, hevent⟩ := done.spec
        rw [hpayload] at htarget
        have hsearching : done.written = done.replaced.searching call.startedAt := by
          rw [hwritten, htarget, hextra, hat, Ride.searching]
        have hannounced : done.event =
            done.replaced.searchEvent call.startedAt done.effectAt := by
          rw [hevent, hsearching, hchecked, hrequested, htarget, hat, Ride.searchEvent]
        have htodo : afterUpdate call.payload done.replaced done.written = .search := by
          simp [afterUpdate, takesMatching, hpayload, hrequested]
        refine ⟨_, update_self .., ?_⟩
        rw [htodo, hsearching, List.nil_append]
        exact .searching hstores hannounced

/-- The search is answered. -/
theorem Reaches.search {candidates : List UserId} (hreq : s.requests q = some (call, stage))
    (h : Progress Found base row call s.stores stage)
    (hfound : ∀ ride pending, s.requests q = some (call, .holding ride pending .search) →
      ride = row.searching call.startedAt → Found candidates)
    (hstep : rideStep cfg s (.search q candidates) = some t) :
    Reaches Found base row call q t := by
  obtain ⟨call', ride, pending, hreq', rfl⟩ := step_search hstep
  cases hreq.symm.trans hreq'
  cases h with
  | searching hstores hfirst =>
      have hcandidates : Found ([] ++ candidates) := hfound _ _ hreq rfl
      exact ⟨_, update_self .., .reserving [] candidates hstores hfirst hcandidates (by simp)⟩

/-- One SET NX: the first candidate without a reservation gets one, for this
ride. -/
theorem Reaches.reserve (hreq : s.requests q = some (call, stage))
    (h : Progress Found base row call s.stores stage)
    (hstep : rideStep cfg s (.reserve q) = some t) : Reaches Found base row call q t := by
  obtain ⟨call', ride, pending, candidates, hreq', hcases⟩ := step_reserve hstep
  cases hreq.symm.trans hreq'
  cases h with
  | @reserving first tried rest hstores hfirst hfound htried =>
      have hkeys : s.reservations = base.reservations := congrArg RideStores.reservations hstores
      rcases hcases with ⟨rfl, rfl⟩ | ⟨d, rest, rfl, htaken, rfl⟩ | ⟨d, rest, rfl, hfree, rfl⟩
      · have hnone : none = firstFree base.reservations (tried ++ []) :=
          (firstFree_append_nil htried).symm
        exact ⟨_, update_self .., .resolving s.clock hfound hnone hstores hfirst⟩
      · rw [hkeys] at htaken
        refine ⟨_, update_self .., .reserving (tried ++ [d]) rest hstores hfirst ?_ ?_⟩
        · simpa using hfound
        · simpa [or_imp, forall_and] using And.intro htried htaken
      · rw [hkeys] at hfree
        have hdriver : some d = firstFree base.reservations (tried ++ d :: rest) :=
          (firstFree_append_cons htried hfree).symm
        refine ⟨_, update_self .., .resolving (s.clock + cfg.driverReservationTtlSeconds) hfound
          hdriver ?_ hfirst⟩
        rw [← hstores]
        rfl

/-- The second UPDATE is on the row that the request wrote, and never fails. -/
theorem Reaches.resolve (hreq : s.requests q = some (call, stage))
    (h : Progress Found base row call s.stores stage)
    (hstep : rideStep cfg s (.resolve q) = some t) : Reaches Found base row call q t := by
  obtain ⟨call', ride, pending, driverId, hreq', hcases⟩ := step_resolve hstep
  cases hreq.symm.trans hreq'
  cases h with
  | @resolving first candidates _ expiresAt hfound hdriver hstores hfirst =>
      rcases hcases with ⟨e, herror, _⟩ | ⟨done, hdone, rfl⟩
      · exact absurd herror (second_never_raises rfl driverId _ _ e)
      · obtain ⟨hstored, _, _, hchecked, htarget, _, hextra, hat⟩ := attemptTransition_ok hdone
        have hreplaced : row.searching call.startedAt = done.replaced := Option.some.inj hstored
        obtain ⟨_, _, hwritten, hevent⟩ := done.spec
        have hresolved : done.written = row.resolved driverId call.startedAt := by
          rw [hwritten, ← hreplaced, htarget, hextra, hat, Ride.resolved]
        have hannounced : done.event =
            row.resolveEvent driverId call.startedAt done.effectAt := by
          rw [hevent, hresolved, hchecked, htarget, hat, Ride.resolveEvent]
          rfl
        refine ⟨_, update_self .., ?_⟩
        rw [hresolved]
        exact .committing expiresAt hfound hdriver hstores hfirst hannounced

/-- The COMMIT makes all of it visible. -/
theorem Reaches.commit (hreq : s.requests q = some (call, stage))
    (h : Progress Found base row call s.stores stage)
    (hstep : rideStep cfg s (.commit q) = some t) : Reaches Found base row call q t := by
  obtain ⟨call', ride, pending, hreq', rfl⟩ := step_commit hstep
  cases hreq.symm.trans hreq'
  cases h with
  | @committing first second candidates driverId expiresAt hfound hdriver hstores hfirst
      hsecond =>
      refine ⟨_, update_self .., .committed expiresAt first.effectAt second.effectAt hfound
        hdriver ?_⟩
      have hrides : s.rides = base.rides := congrArg RideStores.rides hstores
      have houtbox : s.outbox = base.outbox := congrArg RideStores.outbox hstores
      have hkeys : s.reservations = base.reservations.withKey row.id expiresAt driverId :=
        congrArg RideStores.reservations hstores
      simp [RideState.stores, RideState.commit, hrides, houtbox, hkeys, hfirst, hsecond,
        Ride.resolved, Ride.searching]

/-- **One step of the request.** -/
theorem Reaches.own (hrow : base.rides row.id = some row) (hid : call.rideId = row.id)
    (hrequested : row.status = .requested) (hpayload : call.payload = ⟨.matching, row.version⟩)
    (hreq : s.requests q = some (call, stage))
    (h : Progress Found base row call s.stores stage) {a : RideAction}
    (hmine : a.request = some q)
    (hfound : ∀ candidates ride pending, a = .search q candidates →
      s.requests q = some (call, .holding ride pending .search) →
      ride = row.searching call.startedAt → Found candidates)
    (hstep : rideStep cfg s a = some t) : Reaches Found base row call q t := by
  cases a with
  | create _ _ _ _ _ => cases hmine
  | begin p user rideId payload =>
      obtain rfl := Option.some.inj hmine
      obtain ⟨hnone, _⟩ := step_begin hstep
      cases hnone.symm.trans hreq
  | read p =>
      obtain rfl := Option.some.inj hmine
      exact .read hrow hid hreq h hstep
  | update p =>
      obtain rfl := Option.some.inj hmine
      exact .update hrow hrequested hpayload hreq h hstep
  | search p candidates =>
      obtain rfl := Option.some.inj hmine
      exact .search hreq h (fun ride pending => hfound candidates ride pending rfl) hstep
  | reserve p =>
      obtain rfl := Option.some.inj hmine
      exact .reserve hreq h hstep
  | resolve p =>
      obtain rfl := Option.some.inj hmine
      exact .resolve hreq h hstep
  | getKey p =>
      obtain rfl := Option.some.inj hmine
      obtain ⟨_, _, _, _, hreq', _⟩ := step_getKey hstep
      cases hreq.symm.trans hreq'
      cases h
  | deleteKey p =>
      obtain rfl := Option.some.inj hmine
      obtain ⟨_, _, _, _, hreq', _⟩ := step_deleteKey hstep
      cases hreq.symm.trans hreq'
      cases h
  | commit p =>
      obtain rfl := Option.some.inj hmine
      exact .commit hreq h hstep
  | abort p =>
      obtain rfl := Option.some.inj hmine
      obtain ⟨_, _, hreq', hopen, rfl⟩ := step_abort hstep
      cases hreq.symm.trans hreq'
      exact .rollback (h.rides hopen) (by simp)
  | expire _ => cases hmine
  | advance _ => cases hmine

/-- The ride itself is never in MATCHING. -/
theorem Progress.rests (hrow : base.rides row.id = some row) (hrequested : row.status = .requested)
    (h : Progress Found base row call s.stores stage) {ride : Ride}
    (hride : s.rides row.id = some ride) : ride.status ≠ .matching := by
  have hbase : s.rides = base.rides → ride.status ≠ .matching := by
    intro hsame
    rw [hsame, hrow] at hride
    obtain rfl := Option.some.inj hride
    rw [hrequested]
    decide
  cases stage with
  | answered outcome =>
      cases h with
      | @committed _ driverId _ _ _ _ _ hstores =>
          have hrides : s.rides =
              update base.rides row.id (some (row.resolved driverId call.startedAt)) :=
            congrArg RideStores.rides hstores
          rw [hrides, update_self] at hride
          obtain rfl := Option.some.inj hride
          cases driverId <;> simp [Ride.resolved, resolution]
      | failed hrides _ => exact hbase hrides
  | _ => exact hbase (h.rides (by simp))

end Steps

/-- The data with other stores for the transitions. -/
def StoredData.withStores (data : StoredData) (stores : RideStores) : StoredData :=
  { data with
    rides := stores.rides
    outbox := stores.outbox
    reservations := stores.reservations }

/-- The server with other reservation keys. -/
def ServerState.withKeys (s : ServerState) (keys : Reservations) : ServerState :=
  { s with rides := { s.rides with reservations := keys } }

/-- An action of the request `q`, or one that changes nothing that is stored. -/
def onlyServes (cfg : Settings) (fns : ServerFunctions) (q : ReqId) (s : ServerState)
    (a : ServerAction) : Prop :=
  (∃ b, a = .ride b ∧ b.request = some q) ∨
    ∀ t, serverStep cfg fns s a = some t → t.data = s.data

/-- A ride in REQUESTED has no driver. -/
def UnassignedAtFirst (ride : Ride) : Prop := ride.status = .requested → ride.driverId = none

theorem unassigned_inherited : Inherited (fun _ => True) UnassignedAtFirst where
  born := fun _ _ _ _ _ _ _ _ => rfl
  kept := by
    intro row status target extra now _ hlegal hrequested
    have htarget : target = .requested := hrequested
    rw [htarget] at hlegal
    cases status <;> simp [rideTransitions] at hlegal

/-- What the round trip of a ride comes to, when it finds this driver. -/
structure RoundTrip (ride final : Ride) (driverId : Option UserId) : Prop where
  status : final.status = (resolution driverId).1
  driver : final.driverId = driverId
  version : final.version = ride.version + 2

/-- The data after it. -/
def StoredData.matched (data : StoredData) (ride : Ride) (driverId : Option UserId)
    (now expiresAt : Timestamp) (m n : Nat) : StoredData :=
  { data with
    rides := update data.rides ride.id (some (ride.resolved driverId now))
    outbox := data.outbox ++ [ride.searchEvent now m, ride.resolveEvent driverId now n]
    reservations := data.reservations.withKey ride.id expiresAt driverId }

section Main

variable {cfg : Settings} {fns : ServerFunctions} {start s t : ServerState} {q : ReqId}
  {call : TransitionCall} {row : Ride} {acts : List ServerAction}

/-- The lists that a search around the pickup of the ride can return. -/
def ServerState.FindsNear (cfg : Settings) (fns : ServerFunctions) (s : ServerState)
    (ride : Ride) (candidates : List UserId) : Prop :=
  findNearbyDrivers cfg fns.dist s.drivers.store.pool ride.pickupLat ride.pickupLng =
    some candidates

/-- The request is on its way, and nothing else has changed. -/
structure OnItsWay (cfg : Settings) (fns : ServerFunctions) (start : ServerState) (row : Ride)
    (call : TransitionCall) (q : ReqId) (s : ServerState) : Prop where
  reaches : Reaches (start.FindsNear cfg fns row) start.rides.stores row call q s.rides
  rest : s.data = start.data.withStores s.rides.stores

/-- A step of the transitions, whether it is one of this request or not. -/
theorem OnItsWay.ride (hrow : start.rides.rides row.id = some row) (hid : call.rideId = row.id)
    (hrequested : row.status = .requested) (hpayload : call.payload = ⟨.matching, row.version⟩)
    (h : OnItsWay cfg fns start row call q s) {b : RideAction} {rides : RideState}
    (hfinds : s.finds cfg fns b = true) (hstep : rideStep cfg s.rides b = some rides)
    (hkept : b.request ≠ some q → rides.stores = s.rides.stores) :
    Reaches (start.FindsNear cfg fns row) start.rides.stores row call q rides := by
  obtain ⟨stage, hreq, hprogress⟩ := h.reaches
  by_cases hmine : b.request = some q
  · refine .own hrow hid hrequested hpayload hreq hprogress hmine ?_ hstep
    rintro candidates ride pending rfl hsearch rfl
    have hpool : s.drivers.store.pool = start.drivers.store.pool :=
      congrArg StoredData.geoPool h.rest
    simp only [ServerState.finds, hsearch, decide_eq_true_eq] at hfinds
    rw [hpool] at hfinds
    exact hfinds
  · have hsame : rides.requests q = s.rides.requests q := by
      rcases step_advances hstep with ⟨_, hsame⟩ | ⟨p, call', before, after, _, hmoved, hadv⟩
      · rw [hsame]
      · rw [hmoved, update_of_ne]
        rintro rfl
        exact hmine hadv.served
    exact ⟨stage, hsame.trans hreq, hkept hmine ▸ hprogress⟩

theorem OnItsWay.step (hrow : start.rides.rides row.id = some row) (hid : call.rideId = row.id)
    (hrequested : row.status = .requested) (hpayload : call.payload = ⟨.matching, row.version⟩)
    (h : OnItsWay cfg fns start row call q s) {a : ServerAction}
    (hok : onlyServes cfg fns q s a) (hstep : serverStep cfg fns s a = some t) :
    OnItsWay cfg fns start row call q t := by
  rcases hok with ⟨b, rfl, hmine⟩ | hquiet
  · obtain ⟨_, hfinds, rides, hrides, rfl⟩ := server_ride (server_cases hstep).2
    refine ⟨h.ride hrow hid hrequested hpayload hfinds hrides (absurd hmine), ?_⟩
    have hrest : s.data.withStores rides.stores = start.data.withStores rides.stores := by
      rw [h.rest]
      rfl
    exact hrest
  · have hdata := hquiet t hstep
    have hstores : t.rides.stores = s.rides.stores :=
      congrArg (fun data => RideStores.mk data.rides data.outbox data.reservations) hdata
    refine ⟨?_, by rw [hdata, hstores, h.rest]⟩
    rcases server_rides hstep with hsame | ⟨b, _, _, hfinds, hride⟩ | ⟨_, _, ride, _, hinsert⟩
    · rw [hsame]
      exact h.reaches
    · exact h.ride hrow hid hrequested hpayload hfinds hride fun _ => hstores
    · obtain ⟨stage, hreq, hprogress⟩ := h.reaches
      refine ⟨stage, ?_, hstores ▸ hprogress⟩
      rw [hinsert]
      exact hreq

/-- **The matching round trip.**  From every reachable state, with any
reservation keys, a request with target MATCHING at the version of a ride in
REQUESTED, while nobody else changes what is stored:

* if it is answered 200, the ride has the first free candidate of the search
  and is ACCEPTED, or it has no driver and is in NO_DRIVERS_FOUND; its version
  has grown by two, there are two events more, the key of that driver holds the
  ride, and nothing else has changed;
* at no moment of the run is the ride in MATCHING. -/
theorem matching_round_trip {users : List User} {before : List ServerAction}
    {reached : ServerState} {keys : Reservations} {ride final : Ride}
    (hreached : Steps (serverSystem cfg fns) free (.init users) before reached)
    (hbegun : reached.rides.requests q = some (call, .loading))
    (hride : reached.rides.rides call.rideId = some ride) (hrequested : ride.status = .requested)
    (hpayload : call.payload = ⟨.matching, ride.version⟩)
    (h : Steps (serverSystem cfg fns) (onlyServes cfg fns q) (reached.withKeys keys) acts t)
    (hdone : t.rides.requests q = some (call, .answered (.ok final))) :
    (∃ candidates expiresAt m n, reached.FindsNear cfg fns ride candidates ∧
      RoundTrip ride final (firstFree keys candidates) ∧
      t.data = (reached.withKeys keys).data.matched ride (firstFree keys candidates)
        call.startedAt expiresAt m n) ∧
    ∀ front back mid, acts = front ++ back →
      Steps (serverSystem cfg fns) (onlyServes cfg fns q) (reached.withKeys keys) front mid →
      ∀ row, mid.rides.rides call.rideId = some row → row.status ≠ .matching := by
  have hall : AllRides UnassignedAtFirst reached.rides :=
    rides_carry unassigned_inherited (fun _ _ _ _ _ => trivial) hreached
  have hid : call.rideId = ride.id := (hall.keyed _ _ hride).symm
  rw [hid] at hride
  have honway : ∀ {acts s},
      Steps (serverSystem cfg fns) (onlyServes cfg fns q) (reached.withKeys keys) acts s →
      OnItsWay cfg fns (reached.withKeys keys) ride call q s := by
    intro acts s hrun
    refine hrun.invariant (OnItsWay cfg fns (reached.withKeys keys) ride call q)
      ⟨⟨_, hbegun, .loading rfl⟩, rfl⟩ ?_
    intro s a t hs hok hstep
    exact hs.step hride hid hrequested hpayload hok hstep
  constructor
  · obtain ⟨⟨stage, hreq, hprogress⟩, hrest⟩ := honway h
    cases hdone.symm.trans hreq
    cases hprogress with
    | @committed candidates _ expiresAt m n hfound hdriver hstores =>
        have hunassigned : ride.driverId = none := hall.committed _ _ hride hrequested
        have hkeys : (reached.withKeys keys).rides.stores.reservations = keys := rfl
        rw [hkeys] at hdriver
        rw [hstores, hdriver] at hrest
        refine ⟨candidates, expiresAt, m, n, hfound, ?_, hrest⟩
        rw [← hdriver]
        exact ⟨rfl, ride.resolved_driverId _ _ hunassigned, rfl⟩
    | failed _ houtcome => exact absurd rfl (houtcome _)
  · intro front back mid _ hfront row hrow
    obtain ⟨⟨stage, _, hprogress⟩, _⟩ := honway hfront
    exact hprogress.rests hride hrequested (hid ▸ hrow)

end Main

/-- A read changes nothing that is stored. -/
theorem server_read_data {cfg : Settings} {fns : ServerFunctions} {s t : ServerState} {p : ReqId}
    (hstep : serverStep cfg fns s (.ride (.read p)) = some t) : t.data = s.data := by
  obtain ⟨_, _, rides, hrides, rfl⟩ := server_ride (server_cases hstep).2
  obtain ⟨_, _, ⟨_, rfl⟩ | ⟨_, _, _, rfl⟩⟩ := step_read hrides
  · rfl
  · rfl

/-- An action of the request, or another one's read. -/
def servesOrReads (q : ReqId) : ServerAction → Bool
  | .ride (.read _) => true
  | .ride b => b.request = some q
  | _ => false

theorem servesOrReads_only {cfg : Settings} {fns : ServerFunctions} {s : ServerState} {q : ReqId}
    {a : ServerAction} (h : servesOrReads q a = true) : onlyServes cfg fns q s a := by
  unfold servesOrReads at h
  split at h
  case h_1 => exact Or.inr fun _ hstep => server_read_data hstep
  case h_2 b _ => exact Or.inl ⟨b, rfl, of_decide_eq_true h⟩
  case h_3 => cases h

/-- Driver 1 and passenger 2, whose tokens `otherAccessToken` and
`driverAccessToken` are. -/
def sampleTown : ServerFunctions :=
  { sampleServer with
    decodeToken := fun now token =>
      if token = driverAccessToken ∧ now < 900 then some ⟨some "access", some 1⟩
      else if token = otherAccessToken ∧ now < 900 then some ⟨some "access", some 2⟩
      else none }

def townUsers : List User :=
  [sampleUser 1 .driver, { sampleUser 2 .passenger with email := "b@example.com" }]

/-- A driver appears at the pickup point of `sampleBody` and goes available. -/
def driverAppears (q q' : DriverReqId) (token : String) : List ServerAction :=
  [.arrive (.driver q (.heartbeat sampleHeartbeat)) token,
    .driver (.read q), .driver (.insert q), .driver (.handle q), .driver (.commit q),
    .arrive (.driver q' (.setAvailability true)) token,
    .driver (.read q'), .driver (.handle q'), .driver (.redis q'), .driver (.commit q')]

/-- The passenger requests a ride. -/
def requestRide (r : RideId) : List ServerAction :=
  [.arrive (.createRide ⟨2, r⟩ sampleBody none) otherAccessToken,
    .create (.lookup ⟨2, r⟩), .create (.insert ⟨2, r⟩ r), .create (.commit ⟨2, r⟩)]

/-- The passenger asks for a driver for ride 0 and, in a second request, for a
cancellation. -/
def matchAndCancel : List ServerAction :=
  [.arrive (.transitionRide 0 0 ⟨.matching, 1⟩) otherAccessToken,
    .arrive (.transitionRide 1 0 ⟨.cancelled, 1⟩) otherAccessToken]

/-- Driver 1 waits at the pickup of a new ride when both requests arrive. -/
def rideRequested : List ServerAction :=
  driverAppears 0 1 driverAccessToken ++ requestRide 0 ++ matchAndCancel

/-- The cancellation waits for the row while the first request is served. -/
def servedWhileWaiting : List ServerAction :=
  [.ride (.read 0), .ride (.update 0), .ride (.read 1), .ride (.search 0 [1]),
    .ride (.reserve 0), .ride (.resolve 0), .ride (.commit 0)]

/-- The access token of driver 3 at time 0. -/
def secondDriverToken : String :=
  "eyJhbGciOiJIUzI1NiIsInR5cCI6IkpXVCJ9." ++
  "eyJzdWIiOiIzIiwicm9sZSI6ImRyaXZlciIsInR5cGUiOiJhY2Nlc3MiLCJleHAiOjkwMH0." ++
  "jkzoY6YjX5HgQjHrH6Std4pVkqtS7q6FsczwvbI7d1k"

/-- The same town with a second driver. -/
def twoDriverTown : ServerFunctions :=
  { sampleTown with
    decodeToken := fun now token =>
      if token = secondDriverToken ∧ now < 900 then some ⟨some "access", some 3⟩
      else sampleTown.decodeToken now token }

def twoDriverUsers : List User :=
  townUsers ++ [{ sampleUser 3 .driver with email := "c@example.com" }]

/-- Both drivers wait at the pickup when the requests arrive. -/
def bothDriversWait : List ServerAction :=
  driverAppears 0 1 driverAccessToken ++ driverAppears 2 3 secondDriverToken ++ requestRide 0 ++
    matchAndCancel

/-- The search finds driver 3 first, who is reserved, and driver 1 next. -/
def secondIsFree : List ServerAction :=
  [.ride (.read 0), .ride (.update 0), .ride (.read 1), .ride (.search 0 [3, 1]),
    .ride (.reserve 0), .ride (.reserve 0), .ride (.resolve 0), .ride (.commit 0)]

/-- Driver 3 is reserved for some other ride. -/
def oneKey : Reservations := update (fun _ => none) 3 (some ⟨5, 10⟩)

/-- The ride that the passenger asks for, and the request. -/
def townRide : Ride := newRide 0 (sampleUser 2 .passenger) sampleBody sampleFare none 0

def townCall : TransitionCall :=
  ⟨{ sampleUser 2 .passenger with email := "b@example.com" }, 0, ⟨.matching, 1⟩, 0⟩

/-- Is the request about to read its ride? -/
def RideState.begunWith (s : RideState) (q : ReqId) (call : TransitionCall) : Bool :=
  match s.requests q with
  | some (begun, .loading) => begun = call
  | _ => false

/-- Was it answered with this ride? -/
def RideState.answeredWith (s : RideState) (q : ReqId) (call : TransitionCall) (ride : Ride) :
    Bool :=
  match s.requests q with
  | some (begun, .answered (.ok final)) => begun = call ∧ final = ride
  | _ => false

theorem begunWith_eq {s : RideState} {q : ReqId} {call : TransitionCall}
    (h : s.begunWith q call = true) : s.requests q = some (call, .loading) := by
  unfold RideState.begunWith at h
  split at h
  case h_1 begun hreq =>
      obtain rfl := of_decide_eq_true h
      exact hreq
  case h_2 => cases h

theorem answeredWith_eq {s : RideState} {q : ReqId} {call : TransitionCall} {ride : Ride}
    (h : s.answeredWith q call ride = true) :
    s.requests q = some (call, .answered (.ok ride)) := by
  unfold RideState.answeredWith at h
  split at h
  case h_1 begun final hreq =>
      obtain ⟨rfl, rfl⟩ := of_decide_eq_true h
      exact hreq
  case h_2 => cases h

/-- The passenger gets the driver who is free. -/
theorem passenger_gets_the_driver : ∃ reached t,
    Steps (serverSystem {} twoDriverTown) free (.init twoDriverUsers) bothDriversWait reached ∧
    Steps (serverSystem {} twoDriverTown) (onlyServes {} twoDriverTown 0) (reached.withKeys oneKey)
      secondIsFree t ∧
    (∃ candidates expiresAt m n, reached.FindsNear {} twoDriverTown townRide candidates ∧
      RoundTrip townRide (townRide.resolved (some 1) 0) (firstFree oneKey candidates) ∧
      t.data = (reached.withKeys oneKey).data.matched townRide (firstFree oneKey candidates)
        0 expiresAt m n) ∧
    ∀ front back mid, secondIsFree = front ++ back →
      Steps (serverSystem {} twoDriverTown) (onlyServes {} twoDriverTown 0) (reached.withKeys oneKey)
        front mid →
      ∀ row, mid.rides.rides 0 = some row → row.status ≠ .matching := by
  have hbefore : (exec (serverSystem {} twoDriverTown) (.init twoDriverUsers) bothDriversWait).any
      (fun s => s.rides.begunWith 0 townCall ∧ s.rides.rides 0 = some townRide ∧
        (execWhere (serverSystem {} twoDriverTown) (fun _ a => servesOrReads 0 a = true)
          (s.withKeys oneKey) secondIsFree).any fun t =>
            t.rides.answeredWith 0 townCall (townRide.resolved (some 1) 0)) = true := by
    decide +kernel
  obtain ⟨reached, hreached, hs⟩ := Steps.of_exec_any hbefore
  obtain ⟨hbegun, hride, hafter⟩ := of_decide_eq_true hs
  obtain ⟨t, hrun, ht⟩ := Steps.of_execWhere_any hafter
  have honly : Steps (serverSystem {} twoDriverTown) (onlyServes {} twoDriverTown 0)
      (reached.withKeys oneKey) secondIsFree t :=
    hrun.mono fun _ _ hok => servesOrReads_only hok
  exact ⟨reached, t, hreached, honly,
    matching_round_trip hreached (begunWith_eq hbegun) hride rfl rfl honly (answeredWith_eq ht)⟩

end RideFlow
