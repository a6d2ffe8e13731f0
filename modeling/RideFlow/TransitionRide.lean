import RideFlow.Library.Runs
import RideFlow.Matching
import RideFlow.RideStateMachine

/-!
# Concurrent ride requests

`transition_ride` of `routers/rides.py` as the steps of many requests running
at once against one database and one Redis.  A request is cut where another
one can act in between: the SELECT of its ride, each UPDATE, the GEOSEARCH,
each SET NX, the GET and the DEL of a release, and the COMMIT.  What happens
in memory between two of these (authorisation, the legality check, choosing
the branch) belongs to the step it follows.

PostgreSQL at READ COMMITTED: a SELECT and the WHERE of an UPDATE see the
latest committed row, an UPDATE that matches locks the row until its
transaction ends, so a second one waits (its step is disabled), and an UPDATE
that does not match changes nothing and waits for nobody.  The uncommitted row
and the events added to the session live in the request until the COMMIT
(`get_db`); any exception rolls back.  A request may fail at any moment
(`abort`): a lost connection, a crash, a COMMIT that fails.

The candidates that GEOSEARCH returns are part of the action, so that nothing
below depends on the pool.  `create` is the commit of a `create_ride` request,
`expire` the disappearance of a reservation key at some moment after its time
to live, `advance` the clock.
-/

namespace RideFlow

open Function

abbrev ReqId := Nat

/-- The `except` clauses of `transition_ride`. -/
def TransitionError.rejection (e : TransitionError) : Rejection :=
  match e with
  | .invalidTransition _ _ => ⟨422, e.message⟩
  | .staleVersion _ _ => ⟨409, e.message⟩

/-- How a request ended: answered 200 after its commit, rejected with an HTTP
error after a rollback, or failed and rolled back. -/
inductive Outcome
  | ok (ride : Ride)
  | rejected (error : Rejection)
  | failed
  deriving DecidableEq

/-- The inputs of one `transition_ride` request: the authenticated user, the
path and body, and the time at which its transaction started. -/
structure TransitionCall where
  user : User
  rideId : RideId
  payload : RideTransitionRequest
  startedAt : Timestamp
  deriving DecidableEq

/-- One successful `apply_transition`: the arguments it was given, the stored
row that its UPDATE matched and what it returned.  `effectAt` numbers the
UPDATEs in the order in which they took effect and serves as the fresh id of
the event. -/
structure Applied where
  request : ReqId
  effectAt : Nat
  checked : Ride
  target : RideStatus
  expected : Int
  extra : Option ExtraFields
  startedAt : Timestamp
  replaced : Ride
  result : TransitionResult
  genuine : applyTransition (some replaced) checked target expected extra startedAt effectAt =
    .ok result

/-- The row that the UPDATE wrote. -/
def Applied.written (a : Applied) : Ride := a.result.ride

/-- The event that was added to the session. -/
def Applied.event (a : Applied) : OutboxEvent := a.result.event

/-- Call `apply_transition` and keep what it did. -/
def attemptTransition (q : ReqId) (effectAt : Nat) (stored : Option Ride) (ride : Ride)
    (target : RideStatus) (expected : Int) (extra : Option ExtraFields)
    (startedAt : Timestamp) : Except TransitionError Applied :=
  match stored with
  | none =>
      match applyTransition none ride target expected extra startedAt effectAt with
      | .error e => .error e
      | .ok _ => .error (.staleVersion ride.id expected)
  | some row =>
      match h : applyTransition (some row) ride target expected extra startedAt effectAt with
      | .error e => .error e
      | .ok result =>
          .ok ⟨q, effectAt, ride, target, expected, extra, startedAt, row, result, h⟩

/-- What a request that has updated its ride does next. -/
inductive Todo
  | search
  | reserve (candidates : List UserId)
  | resolve (driverId : Option UserId)
  | getKey
  | deleteKey
  | commit
  deriving DecidableEq

/-- Where a request stands.  In `holding` its transaction has updated the
ride: `ride` is the refreshed row, `pending` what `apply_transition` did and
added to the session so far. -/
inductive Stage
  | loading
  | updating (ride : Ride)
  | holding (ride : Ride) (pending : List Applied) (todo : Todo)
  | answered (outcome : Outcome)

/-- The database, the reservation keys and the requests.  `log` is not stored
anywhere: it remembers which `apply_transition` wrote each outbox row. -/
structure RideState where
  rides : RideId → Option Ride
  locks : RideId → Option ReqId
  outbox : List OutboxEvent
  reservations : Reservations
  requests : ReqId → Option (TransitionCall × Stage)
  clock : Timestamp
  effects : Nat
  log : List Applied

/-- No rides, no keys, no requests. -/
def RideState.init : RideState where
  rides := fun _ => none
  locks := fun _ => none
  outbox := []
  reservations := fun _ => none
  requests := fun _ => none
  clock := 0
  effects := 0
  log := []

/-- The steps of the requests; rides are created, keys expire, and time passes. -/
inductive RideAction
  | create (id : RideId) (user : User) (payload : RideCreateRequest) (fare : ℚ)
      (idempotencyKey : Option String)
  | begin (q : ReqId) (user : User) (rideId : RideId) (payload : RideTransitionRequest)
  | read (q : ReqId)
  | update (q : ReqId)
  | search (q : ReqId) (candidates : List UserId)
  | reserve (q : ReqId)
  | resolve (q : ReqId)
  | getKey (q : ReqId)
  | deleteKey (q : ReqId)
  | commit (q : ReqId)
  | abort (q : ReqId)
  | expire (driverId : UserId)
  | advance (seconds : Nat)

/-- The request that an action serves. -/
def RideAction.request : RideAction → Option ReqId
  | .create _ _ _ _ _ => none
  | .begin q _ _ _ => some q
  | .read q => some q
  | .update q => some q
  | .search q _ => some q
  | .reserve q => some q
  | .resolve q => some q
  | .getKey q => some q
  | .deleteKey q => some q
  | .commit q => some q
  | .abort q => some q
  | .expire _ => none
  | .advance _ => none

/-- The authorisation check of `transition_ride`. -/
def authorized (user : User) (ride : Ride) (target : RideStatus) : Bool :=
  let isOwnerPassenger := user.role = .passenger ∧ ride.passengerId = user.id
  let isOwnerDriver := user.role = .driver ∧ ride.driverId = some user.id
  let isAdmin := user.role = .admin
  let isUnassignedDriverMatching :=
    user.role = .driver ∧ ride.driverId = none ∧ target = .accepted
  isOwnerPassenger ∨ isOwnerDriver ∨ isAdmin ∨ isUnassignedDriverMatching

/-- The condition of the branch that searches for a driver. -/
def takesMatching (payload : RideTransitionRequest) (ride : Ride) : Bool :=
  payload.targetStatus = .matching ∧ ride.status = .requested

namespace RideState

variable (s : RideState)

/-- Put a request into a stage. -/
def at_ (q : ReqId) (call : TransitionCall) (stage : Stage) : RideState :=
  { s with requests := update s.requests q (some (call, stage)) }

/-- End a transaction without a commit: its locks are released, its row and
its events are gone. -/
def rollback (q : ReqId) (call : TransitionCall) (outcome : Outcome) : RideState :=
  { s with
    requests := update s.requests q (some (call, .answered outcome))
    locks := fun r => if s.locks r = some q then none else s.locks r }

/-- The transaction of `q` has updated its ride. -/
def hold (q : ReqId) (call : TransitionCall) (done : Applied) (pending : List Applied)
    (todo : Todo) : RideState :=
  { s with
    requests := update s.requests q
      (some (call, .holding done.written (pending ++ [done]) todo))
    locks := update s.locks done.written.id (some q)
    effects := s.effects + 1 }

/-- COMMIT: the row and the session's events become visible together. -/
def commit (q : ReqId) (call : TransitionCall) (ride : Ride) (pending : List Applied) :
    RideState :=
  { s with
    rides := update s.rides ride.id (some ride)
    locks := fun r => if s.locks r = some q then none else s.locks r
    outbox := s.outbox ++ pending.map Applied.event
    requests := update s.requests q (some (call, .answered (.ok ride)))
    log := s.log ++ pending }

end RideState

/-- After the first `apply_transition`: search for a driver, release the
driver of a cancelled ride, or return. -/
def afterUpdate (payload : RideTransitionRequest) (checked refreshed : Ride) : Todo :=
  if takesMatching payload checked then .search
  else if payload.targetStatus = .cancelled ∧ refreshed.driverId.isSome then .getKey
  else .commit

/-- One step of the system; `none` when the action is not enabled. -/
def rideStep (cfg : Settings) (s : RideState) : RideAction → Option RideState
  | .create id user payload fare key =>
      if user.role = .passenger ∧ s.rides id = none then
        let ride := newRide id user payload fare key s.clock
        some { s with rides := update s.rides id (some ride) }
      else none
  | .begin q user rideId payload =>
      match s.requests q with
      | some _ => none
      | none => some (s.at_ q ⟨user, rideId, payload, s.clock⟩ .loading)
  | .read q =>
      match s.requests q with
      | some (call, .loading) =>
          match s.rides call.rideId with
          | none => some (s.rollback q call (.rejected ⟨404, "Ride not found"⟩))
          | some ride =>
              if authorized call.user ride call.payload.targetStatus then
                some (s.at_ q call (.updating ride))
              else some (s.rollback q call
                (.rejected ⟨403, "Not authorized to modify this ride"⟩))
      | _ => none
  | .update q =>
      match s.requests q with
      | some (call, .updating ride) =>
          match attemptTransition q s.effects (s.rides ride.id) ride call.payload.targetStatus
              call.payload.expectedVersion none call.startedAt with
          | .error e => some (s.rollback q call (.rejected e.rejection))
          | .ok done =>
              -- a matching UPDATE waits for the row lock
              if s.locks ride.id = none then
                some (s.hold q call done [] (afterUpdate call.payload ride done.written))
              else none
      | _ => none
  | .search q candidates =>
      match s.requests q with
      | some (call, .holding ride pending .search) =>
          some (s.at_ q call (.holding ride pending (.reserve candidates)))
      | _ => none
  | .reserve q =>
      match s.requests q with
      | some (call, .holding ride pending (.reserve [])) =>
          some (s.at_ q call (.holding ride pending (.resolve none)))
      | some (call, .holding ride pending (.reserve (driverId :: rest))) =>
          match tryReserveDriver cfg s.reservations driverId ride.id s.clock with
          | (true, keys) => some { s.at_ q call
              (.holding ride pending (.resolve (some driverId))) with reservations := keys }
          | (false, _) => some (s.at_ q call (.holding ride pending (.reserve rest)))
      | _ => none
  | .resolve q =>
      match s.requests q with
      | some (call, .holding ride pending (.resolve driverId)) =>
          -- the second apply_transition, on the row that this transaction wrote
          let attempt := match driverId with
            | none => attemptTransition q s.effects (some ride) ride .noDriversFound
                ride.version none call.startedAt
            | some d => attemptTransition q s.effects (some ride) ride .accepted
                ride.version (some ⟨d⟩) call.startedAt
          match attempt with
          | .error e => some (s.rollback q call (.rejected e.rejection))
          | .ok done => some (s.hold q call done pending .commit)
      | _ => none
  | .getKey q =>
      match s.requests q with
      | some (call, .holding ride pending .getKey) =>
          match ride.driverId with
          | none => none
          | some d =>
              if holdsReservation s.reservations d ride.id then
                some (s.at_ q call (.holding ride pending .deleteKey))
              else some (s.at_ q call (.holding ride pending .commit))
      | _ => none
  | .deleteKey q =>
      match s.requests q with
      | some (call, .holding ride pending .deleteKey) =>
          match ride.driverId with
          | none => none
          | some d => some { s.at_ q call (.holding ride pending .commit) with
              reservations := deleteReservation s.reservations d }
      | _ => none
  | .commit q =>
      match s.requests q with
      | some (call, .holding ride pending .commit) => some (s.commit q call ride pending)
      | _ => none
  | .abort q =>
      match s.requests q with
      | some (_, .answered _) => none
      | some (call, _) => some (s.rollback q call .failed)
      | none => none
  | .expire driverId =>
      match s.reservations driverId with
      | some key =>
          if key.expiresAt ≤ s.clock then
            some { s with reservations := deleteReservation s.reservations driverId }
          else none
      | none => none
  | .advance seconds => some { s with clock := s.clock + seconds }

/-- The system of concurrent ride requests. -/
def rideSystem (cfg : Settings) : Runs.System RideState RideAction := ⟨rideStep cfg⟩

/-! ### What each step did

One inversion lemma for each action; no later proof unfolds `rideStep`. -/

section Inversion

variable {cfg : Settings} {s t : RideState} {q : ReqId}

/-- The recorded call is the one that was made. -/
theorem attemptTransition_ok {n : Nat} {stored : Option Ride} {ride : Ride}
    {target : RideStatus} {expected : Int} {extra : Option ExtraFields} {now : Timestamp}
    {a : Applied} (h : attemptTransition q n stored ride target expected extra now = .ok a) :
    stored = some a.replaced ∧ a.request = q ∧ a.effectAt = n ∧ a.checked = ride ∧
      a.target = target ∧ a.expected = expected ∧ a.extra = extra ∧ a.startedAt = now := by
  unfold attemptTransition at h
  split at h
  case h_1 => split at h <;> cases h
  case h_2 row =>
      split at h
      case h_1 => cases h
      case h_2 result hresult =>
          cases h
          exact ⟨rfl, rfl, rfl, rfl, rfl, rfl, rfl, rfl⟩

/-- A failed call failed with the error of `apply_transition`. -/
theorem attemptTransition_error {n : Nat} {stored : Option Ride} {ride : Ride}
    {target : RideStatus} {expected : Int} {extra : Option ExtraFields} {now : Timestamp}
    {e : TransitionError}
    (h : attemptTransition q n stored ride target expected extra now = .error e) :
    applyTransition stored ride target expected extra now n = .error e := by
  unfold attemptTransition at h
  split at h
  case h_1 =>
      split at h
      case h_1 e' he =>
          cases h
          exact he
      case h_2 result hresult =>
          obtain ⟨_, row, hrow, _⟩ := applyTransition_ok.mp hresult
          cases hrow
  case h_2 row =>
      split at h
      case h_1 e' he =>
          cases h
          exact he
      case h_2 => cases h

/-- **What an applied transition is.**  Its target is legal after the checked
status, its row was at the expected version, and what it wrote and announced
is built from that row. -/
theorem Applied.spec (a : Applied) :
    a.target ∈ rideTransitions a.checked.status ∧ (a.replaced.version : Int) = a.expected ∧
      a.written = a.replaced.set a.target a.extra a.startedAt ∧
      a.event = statusChanged a.effectAt a.written a.checked.status a.target a.startedAt := by
  obtain ⟨hlegal, row, hrow, hversion, hresult⟩ := applyTransition_ok.mp a.genuine
  obtain rfl : a.replaced = row := Option.some.inj hrow
  refine ⟨hlegal, hversion, ?_, ?_⟩
  · rw [Applied.written, hresult]
  · rw [Applied.event, Applied.written, hresult]

/-- A ride is created under a new id. -/
theorem step_create {id : RideId} {user : User} {payload : RideCreateRequest} {fare : ℚ}
    {key : Option String} (h : rideStep cfg s (.create id user payload fare key) = some t) :
    user.role = .passenger ∧ s.rides id = none ∧
      t = { s with
        rides := update s.rides id (some (newRide id user payload fare key s.clock)) } := by
  dsimp only [rideStep] at h
  split at h
  case isTrue hguard => exact ⟨hguard.1, hguard.2, (Option.some.inj h).symm⟩
  case isFalse => cases h

/-- A request arrives under a new name. -/
theorem step_begin {user : User} {rideId : RideId} {payload : RideTransitionRequest}
    (h : rideStep cfg s (.begin q user rideId payload) = some t) :
    s.requests q = none ∧ t = s.at_ q ⟨user, rideId, payload, s.clock⟩ .loading := by
  dsimp only [rideStep] at h
  split at h
  case h_1 => cases h
  case h_2 hnone => exact ⟨hnone, (Option.some.inj h).symm⟩

/-- The SELECT of a request finds a ride that its user may change, or the request is
rejected. -/
theorem step_read (h : rideStep cfg s (.read q) = some t) :
    ∃ call, s.requests q = some (call, .loading) ∧
      ((∃ error, t = s.rollback q call (.rejected error)) ∨
        ∃ ride, s.rides call.rideId = some ride ∧
          authorized call.user ride call.payload.targetStatus = true ∧
          t = s.at_ q call (.updating ride)) := by
  dsimp only [rideStep] at h
  split at h
  case h_1 call hreq =>
      refine ⟨call, hreq, ?_⟩
      split at h
      case h_1 => exact Or.inl ⟨_, (Option.some.inj h).symm⟩
      case h_2 ride hride =>
          split at h
          case isTrue hauth => exact Or.inr ⟨ride, hride, hauth, (Option.some.inj h).symm⟩
          case isFalse => exact Or.inl ⟨_, (Option.some.inj h).symm⟩
  case h_2 => cases h

/-- A rejected SELECT found no ride, or one that is not the user's. -/
theorem step_read_rejected {call : TransitionCall} {error : Rejection}
    (h : rideStep cfg s (.read q) = some t)
    (ht : t.requests q = some (call, .answered (.rejected error))) :
    error = ⟨404, "Ride not found"⟩ ∨ error = ⟨403, "Not authorized to modify this ride"⟩ := by
  have hrolled : ∀ call' e,
      (s.rollback q call' (.rejected e)).requests q = some (call, .answered (.rejected error)) →
      error = e := by
    intro call' e hreq
    have hself : (s.rollback q call' (.rejected e)).requests q =
        some (call', .answered (.rejected e)) := update_self ..
    cases hself.symm.trans hreq
    rfl
  dsimp only [rideStep] at h
  split at h
  case h_1 call' hreq =>
      split at h
      case h_1 =>
          obtain rfl := Option.some.inj h
          exact Or.inl (hrolled _ _ ht)
      case h_2 ride hride =>
          split at h
          case isTrue =>
              obtain rfl := Option.some.inj h
              have hself : (s.at_ q call' (.updating ride)).requests q =
                  some (call', .updating ride) := update_self ..
              cases hself.symm.trans ht
          case isFalse =>
              obtain rfl := Option.some.inj h
              exact Or.inr (hrolled _ _ ht)
  case h_2 => cases h

/-- The first `apply_transition` raises, or its UPDATE holds the row. -/
theorem step_update (h : rideStep cfg s (.update q) = some t) :
    ∃ call ride, s.requests q = some (call, .updating ride) ∧
      ((∃ e, applyTransition (s.rides ride.id) ride call.payload.targetStatus
            call.payload.expectedVersion none call.startedAt s.effects = .error e ∧
          t = s.rollback q call (.rejected e.rejection)) ∨
        ∃ done, attemptTransition q s.effects (s.rides ride.id) ride
            call.payload.targetStatus call.payload.expectedVersion none call.startedAt =
              .ok done ∧
          s.locks ride.id = none ∧
          t = s.hold q call done [] (afterUpdate call.payload ride done.written)) := by
  dsimp only [rideStep] at h
  split at h
  case h_1 call ride hreq =>
      refine ⟨call, ride, hreq, ?_⟩
      split at h
      case h_1 e he =>
          exact Or.inl ⟨e, attemptTransition_error he, (Option.some.inj h).symm⟩
      case h_2 done hdone =>
          split at h
          case isTrue hfree => exact Or.inr ⟨done, hdone, hfree, (Option.some.inj h).symm⟩
          case isFalse => cases h
  case h_2 => cases h

/-- GEOSEARCH returns its candidates. -/
theorem step_search {candidates : List UserId}
    (h : rideStep cfg s (.search q candidates) = some t) :
    ∃ call ride pending, s.requests q = some (call, .holding ride pending .search) ∧
      t = s.at_ q call (.holding ride pending (.reserve candidates)) := by
  dsimp only [rideStep] at h
  split at h
  case h_1 call ride pending hreq => exact ⟨call, ride, pending, hreq, (Option.some.inj h).symm⟩
  case h_2 => cases h

/-- SET NX takes the next candidate, passes over one that is reserved, or there is none
left. -/
theorem step_reserve (h : rideStep cfg s (.reserve q) = some t) :
    ∃ call ride pending candidates,
      s.requests q = some (call, .holding ride pending (.reserve candidates)) ∧
      ((candidates = [] ∧ t = s.at_ q call (.holding ride pending (.resolve none))) ∨
        (∃ d rest, candidates = d :: rest ∧ (s.reservations d).isSome ∧
          t = s.at_ q call (.holding ride pending (.reserve rest))) ∨
        ∃ d rest, candidates = d :: rest ∧ s.reservations d = none ∧
          t = { s.at_ q call (.holding ride pending (.resolve (some d))) with
            reservations := update s.reservations d
              (some ⟨ride.id, s.clock + cfg.driverReservationTtlSeconds⟩) }) := by
  dsimp only [rideStep] at h
  split at h
  case h_1 call ride pending hreq =>
      exact ⟨call, ride, pending, [], hreq, Or.inl ⟨rfl, (Option.some.inj h).symm⟩⟩
  case h_2 call ride pending d rest hreq =>
      refine ⟨call, ride, pending, d :: rest, hreq, Or.inr ?_⟩
      split at h
      case h_1 keys hkeys =>
          rcases tryReserveDriver_eq.mp hkeys with ⟨hfalse, _⟩ | ⟨_, hnone, rfl⟩
          · cases hfalse
          · exact Or.inr ⟨d, rest, rfl, hnone, (Option.some.inj h).symm⟩
      case h_2 keys hkeys =>
          rcases tryReserveDriver_eq.mp hkeys with ⟨_, hsome, _⟩ | ⟨htrue, _⟩
          · exact Or.inl ⟨d, rest, rfl, hsome, (Option.some.inj h).symm⟩
          · cases htrue
  case h_3 => cases h

/-- The target and the extra fields of the second `apply_transition`. -/
def resolution : Option UserId → RideStatus × Option ExtraFields
  | none => (.noDriversFound, none)
  | some d => (.accepted, some ⟨d⟩)

/-- The second `apply_transition` raises, or updates the row once more. -/
theorem step_resolve (h : rideStep cfg s (.resolve q) = some t) :
    ∃ call ride pending driverId,
      s.requests q = some (call, .holding ride pending (.resolve driverId)) ∧
      ((∃ e, applyTransition (some ride) ride (resolution driverId).1 ride.version
            (resolution driverId).2 call.startedAt s.effects = .error e ∧
          t = s.rollback q call (.rejected e.rejection)) ∨
        ∃ done, attemptTransition q s.effects (some ride) ride (resolution driverId).1
            ride.version (resolution driverId).2 call.startedAt = .ok done ∧
          t = s.hold q call done pending .commit) := by
  dsimp only [rideStep] at h
  split at h
  case h_1 call ride pending driverId hreq =>
      refine ⟨call, ride, pending, driverId, hreq, ?_⟩
      cases driverId with
      | none =>
          dsimp only at h
          split at h
          case h_1 e he =>
              exact Or.inl ⟨e, attemptTransition_error he, (Option.some.inj h).symm⟩
          case h_2 done hdone => exact Or.inr ⟨done, hdone, (Option.some.inj h).symm⟩
      | some d =>
          dsimp only at h
          split at h
          case h_1 e he =>
              exact Or.inl ⟨e, attemptTransition_error he, (Option.some.inj h).symm⟩
          case h_2 done hdone => exact Or.inr ⟨done, hdone, (Option.some.inj h).symm⟩
  case h_2 => cases h

/-- GET finds the key of the ride, or the request goes on to its COMMIT. -/
theorem step_getKey (h : rideStep cfg s (.getKey q) = some t) :
    ∃ call ride pending d, s.requests q = some (call, .holding ride pending .getKey) ∧
      ride.driverId = some d ∧
      ((holdsReservation s.reservations d ride.id = true ∧
          t = s.at_ q call (.holding ride pending .deleteKey)) ∨
        (holdsReservation s.reservations d ride.id = false ∧
          t = s.at_ q call (.holding ride pending .commit))) := by
  dsimp only [rideStep] at h
  split at h
  case h_1 call ride pending hreq =>
      split at h
      case h_1 => cases h
      case h_2 d hd =>
          refine ⟨call, ride, pending, d, hreq, hd, ?_⟩
          split at h
          case isTrue hkey => exact Or.inl ⟨hkey, (Option.some.inj h).symm⟩
          case isFalse hkey =>
              exact Or.inr ⟨Bool.eq_false_iff.mpr hkey, (Option.some.inj h).symm⟩
  case h_2 => cases h

/-- DEL removes the key. -/
theorem step_deleteKey (h : rideStep cfg s (.deleteKey q) = some t) :
    ∃ call ride pending d, s.requests q = some (call, .holding ride pending .deleteKey) ∧
      ride.driverId = some d ∧
      t = { s.at_ q call (.holding ride pending .commit) with
        reservations := deleteReservation s.reservations d } := by
  dsimp only [rideStep] at h
  split at h
  case h_1 call ride pending hreq =>
      split at h
      case h_1 => cases h
      case h_2 d hd => exact ⟨call, ride, pending, d, hreq, hd, (Option.some.inj h).symm⟩
  case h_2 => cases h

/-- The COMMIT stores the ride and its events. -/
theorem step_commit (h : rideStep cfg s (.commit q) = some t) :
    ∃ call ride pending, s.requests q = some (call, .holding ride pending .commit) ∧
      t = s.commit q call ride pending := by
  dsimp only [rideStep] at h
  split at h
  case h_1 call ride pending hreq => exact ⟨call, ride, pending, hreq, (Option.some.inj h).symm⟩
  case h_2 => cases h

/-- A request that is not answered can fail. -/
theorem step_abort (h : rideStep cfg s (.abort q) = some t) :
    ∃ call stage, s.requests q = some (call, stage) ∧
      (∀ outcome, stage ≠ .answered outcome) ∧ t = s.rollback q call .failed := by
  dsimp only [rideStep] at h
  split at h
  case h_1 => cases h
  case h_2 call stage hne hreq =>
      exact ⟨call, stage, hreq, hne, (Option.some.inj h).symm⟩
  case h_3 => cases h

/-- A key expires when its time has come. -/
theorem step_expire {d : UserId} (h : rideStep cfg s (.expire d) = some t) :
    ∃ key, s.reservations d = some key ∧ key.expiresAt ≤ s.clock ∧
      t = { s with reservations := deleteReservation s.reservations d } := by
  dsimp only [rideStep] at h
  split at h
  case h_1 key hkey =>
      split at h
      case isTrue hdue => exact ⟨key, hkey, hdue, (Option.some.inj h).symm⟩
      case isFalse => cases h
  case h_2 => cases h

/-- Time passes. -/
theorem step_advance {seconds : Nat} (h : rideStep cfg s (.advance seconds) = some t) :
    t = { s with clock := s.clock + seconds } :=
  (Option.some.inj h).symm

end Inversion

end RideFlow
