import RideFlow.Library.Runs
import RideFlow.Library.Tables
import RideFlow.Models

/-!
# Concurrent ride creation

`create_ride` of `routers/rides.py` with the records of
`services/idempotency.py`, next to `cleanup_idempotency_records`, as the steps
of many requests and cleanups running at once.

A request is cut at its SELECT of the record (`lookup`), at the flush that
INSERTs the ride (`insert`) and at its COMMIT.  `store_response` only adds the
record to the session, so its INSERT is sent at the beginning of the COMMIT:
the unique constraint on (key, scope) is checked there, against the committed
records, and a conflict rolls the whole transaction back.  While a cleanup has
deleted the conflicting record and not committed yet, the INSERT waits.

The fingerprint (SHA-256 of the body's canonical JSON) and the fare estimate
are functions of the body and stay parameters.  A request is named by its
authenticated passenger and a number.
-/

namespace RideFlow

open Function

/-- `RideOut`: the fields of a ride that a response carries. -/
structure RideOut where
  id : RideId
  passengerId : UserId
  driverId : Option UserId
  status : RideStatus
  version : Nat
  pickupLat : Degrees
  pickupLng : Degrees
  dropoffLat : Degrees
  dropoffLng : Degrees
  fareEstimate : Option ℚ
  createdAt : Timestamp
  updatedAt : Timestamp
  deriving DecidableEq, Repr

/-- `RideOut.model_validate(ride)`. -/
def rideOut (ride : Ride) : RideOut where
  id := ride.id
  passengerId := ride.passengerId
  driverId := ride.driverId
  status := ride.status
  version := ride.version
  pickupLat := ride.pickupLat
  pickupLng := ride.pickupLng
  dropoffLat := ride.dropoffLat
  dropoffLng := ride.dropoffLng
  fareEstimate := ride.fareEstimate
  createdAt := ride.createdAt
  updatedAt := ride.updatedAt

abbrev CleanupId := Nat

/-- A row of `idempotency_records`, with the transaction that has deleted it
and not committed yet. -/
structure IdempotencyRecord where
  key : String
  scope : String
  requestFingerprint : String
  responseBody : RideOut
  statusCode : Nat
  createdAt : Timestamp
  deletedBy : Option CleanupId := none
  deriving DecidableEq

/-- `IDEMPOTENCY_SCOPE_CREATE`. -/
def idempotencyScopeCreate : String := "create_ride"

/-- The record of a key and scope; the constraint allows one. -/
def getCachedResponse (records : List IdempotencyRecord) (key scope : String) :
    Option IdempotencyRecord :=
  records.find? fun record => record.key = key ∧ record.scope = scope

/-- The functions of the body that the handler computes. -/
structure BodyFunctions where
  fingerprint : RideCreateRequest → String
  estimateFare : RideCreateRequest → ℚ

/-- The record that `store_response` adds to the session. -/
def storeResponse (fns : BodyFunctions) (key scope : String) (payload : RideCreateRequest)
    (statusCode : Nat) (responseBody : RideOut) (now : Timestamp) : IdempotencyRecord where
  key := key
  scope := scope
  requestFingerprint := fns.fingerprint payload
  responseBody := responseBody
  statusCode := statusCode
  createdAt := now

/-- The name of a request: its passenger and a number. -/
structure CreateId where
  passenger : UserId
  number : Nat
  deriving DecidableEq, Repr

/-- A call of `create_ride`: the user, the body, the key, and when it started. -/
structure CreateCall where
  user : User
  payload : RideCreateRequest
  idempotencyKey : Option String
  startedAt : Timestamp
  deriving DecidableEq

/-- `if idempotency_key:` holds of a header that is present and not empty. -/
def CreateCall.key? (call : CreateCall) : Option String :=
  call.idempotencyKey.filter fun key => key ≠ ""

/-- `rides.idempotency_key` and `idempotency_records.key` hold 255 characters. -/
def CreateCall.keyTooLong (call : CreateCall) : Bool :=
  call.idempotencyKey.any fun key => 255 < key.length

/-- How a creation is answered. -/
inductive CreateOutcome
  | created (response : RideOut)
  | rejected (error : Rejection)
  | failed
  deriving DecidableEq

/-- Where a `create_ride` request stands.  In `storing` it has flushed its
ride; in `replaying` it returns a cached response and has nothing to write. -/
inductive CreateStage
  | starting
  | inserting
  | storing (ride : Ride)
  | replaying (response : RideOut)
  | answered (outcome : CreateOutcome)
  deriving DecidableEq

/-- Where a cleanup stands: it has computed its cutoff, or sent its DELETE. -/
inductive CleanupStage
  | started (now : Timestamp)
  | deleting
  | finished
  deriving DecidableEq

/-- The two tables, the requests and the cleanups.  `deleted` remembers the
records whose deletion was committed and `drawn` the UUIDs drawn so far. -/
structure CreateState where
  rides : List Ride
  records : List IdempotencyRecord
  deleted : List IdempotencyRecord
  drawn : List RideId
  requests : CreateId → Option (CreateCall × CreateStage)
  cleanups : CleanupId → Option CleanupStage
  clock : Timestamp

/-- No ride and no record. -/
def CreateState.init : CreateState where
  rides := []
  records := []
  deleted := []
  drawn := []
  requests := fun _ => none
  cleanups := fun _ => none
  clock := 0

/-- The steps of the creations and of the cleanups; time passes. -/
inductive CreateAction
  | begin (q : CreateId) (user : User) (payload : RideCreateRequest)
      (idempotencyKey : Option String)
  | lookup (q : CreateId)
  | insert (q : CreateId) (id : RideId)
  | commit (q : CreateId)
  | abort (q : CreateId)
  | beginCleanup (c : CleanupId)
  | deleteRecords (c : CleanupId)
  | commitCleanup (c : CleanupId)
  | abortCleanup (c : CleanupId)
  | advance (seconds : Nat)

/-- The request that an action serves. -/
def CreateAction.request : CreateAction → Option CreateId
  | .begin q _ _ _ => some q
  | .lookup q => some q
  | .insert q _ => some q
  | .commit q => some q
  | .abort q => some q
  | _ => none

/-- The 409 of a key that was used with another body. -/
def keyReused : Rejection :=
  ⟨409, "Idempotency-Key was already used with a different request body"⟩

/-- Seven days, in seconds. -/
def recordLifetime : Nat := 7 * 24 * 60 * 60

/-- The WHERE of the cleanup that started at `now`. -/
def IdempotencyRecord.expired (record : IdempotencyRecord) (now : Timestamp) : Bool :=
  record.createdAt + recordLifetime < now

namespace CreateState

variable (s : CreateState)

/-- Put a request into a stage. -/
def at_ (q : CreateId) (call : CreateCall) (stage : CreateStage) : CreateState :=
  { s with requests := update s.requests q (some (call, stage)) }

/-- Put a cleanup into a stage. -/
def setCleanup (c : CleanupId) (stage : CleanupStage) : CreateState :=
  { s with cleanups := update s.cleanups c (some stage) }

/-- COMMIT of a request: its ride and its records, if any, become visible
together. -/
def publish (q : CreateId) (call : CreateCall) (ride : Ride)
    (records : List IdempotencyRecord) : CreateState :=
  { s with
    rides := s.rides ++ [ride]
    records := s.records ++ records
    requests := update s.requests q (some (call, .answered (.created (rideOut ride)))) }

end CreateState

/-- The row that the flush of a request INSERTs. -/
def insertedRide (fns : BodyFunctions) (call : CreateCall) (id : RideId) : Ride :=
  newRide id call.user call.payload (fns.estimateFare call.payload) call.idempotencyKey
    call.startedAt

/-- What the SELECT of a request finds: the record under its key, if it carries
one. -/
def CreateState.cached (s : CreateState) (call : CreateCall) : Option IdempotencyRecord :=
  call.key?.bind fun key => getCachedResponse s.records key idempotencyScopeCreate

/-- Where a request goes after its SELECT. -/
def afterLookup (fns : BodyFunctions) (call : CreateCall) :
    Option IdempotencyRecord → CreateStage
  | none => .inserting
  | some cached =>
      if cached.requestFingerprint ≠ fns.fingerprint call.payload then
        .answered (.rejected keyReused)
      else .replaying cached.responseBody

/-- The records in the session of a request that has stored its response. -/
def pendingRecords (fns : BodyFunctions) (call : CreateCall) (ride : Ride) :
    List IdempotencyRecord :=
  match call.key? with
  | none => []
  | some key => [storeResponse fns key idempotencyScopeCreate call.payload 201 (rideOut ride)
      call.startedAt]

/-- What an action makes of the state; `none` where it cannot be taken. -/
def createStep (fns : BodyFunctions) (s : CreateState) : CreateAction → Option CreateState
  | .begin q user payload key =>
      if s.requests q = none ∧ user.id = q.passenger ∧ user.role = .passenger then
        some (s.at_ q ⟨user, payload, key, s.clock⟩ .starting)
      else none
  | .lookup q =>
      match s.requests q with
      | some (call, .starting) =>
          some (s.at_ q call (afterLookup fns call (s.cached call)))
      | _ => none
  | .insert q id =>
      match s.requests q with
      | some (call, .inserting) =>
          if id ∈ s.drawn then none
          else if call.keyTooLong then some (s.at_ q call (.answered .failed))
          else some { s.at_ q call (.storing (insertedRide fns call id)) with
            drawn := id :: s.drawn }
      | _ => none
  | .commit q =>
      match s.requests q with
      | some (call, .storing ride) =>
          match s.cached call with
          | none => some (s.publish q call ride (pendingRecords fns call ride))
          | some conflicting =>
              if conflicting.deletedBy = none then some (s.at_ q call (.answered .failed))
              else none
      | some (call, .replaying response) =>
          some (s.at_ q call (.answered (.created response)))
      | _ => none
  | .abort q =>
      match s.requests q with
      | some (_, .answered _) => none
      | some (call, _) => some (s.at_ q call (.answered .failed))
      | none => none
  | .beginCleanup c =>
      if s.cleanups c = none then some (s.setCleanup c (.started s.clock)) else none
  | .deleteRecords c =>
      match s.cleanups c with
      | some (.started now) =>
          -- a row that another cleanup has deleted makes the DELETE wait
          if s.records.all fun record => record.expired now → record.deletedBy = none then
            some { s.setCleanup c .deleting with
              records := s.records.map fun record =>
                if record.expired now then { record with deletedBy := some c } else record }
          else none
      | _ => none
  | .commitCleanup c =>
      match s.cleanups c with
      | some .deleting =>
          some { s.setCleanup c .finished with
            records := s.records.filter fun record => record.deletedBy ≠ some c
            deleted := s.deleted ++ s.records.filter fun record => record.deletedBy = some c }
      | _ => none
  | .abortCleanup c =>
      match s.cleanups c with
      | some .finished => none
      | some _ =>
          some { s.setCleanup c .finished with
            records := s.records.map fun record =>
              if record.deletedBy = some c then { record with deletedBy := none } else record }
      | none => none
  | .advance seconds => some { s with clock := s.clock + seconds }

/-- The system of concurrent ride creation and cleanup. -/
def createSystem (fns : BodyFunctions) : Runs.System CreateState CreateAction :=
  ⟨createStep fns⟩

/-! ### What each step did -/

section Inversion

variable {fns : BodyFunctions} {s t : CreateState} {q : CreateId} {c : CleanupId}

/-- A request of a passenger arrives under a new name. -/
theorem create_begin {user : User} {payload : RideCreateRequest} {key : Option String}
    (h : createStep fns s (.begin q user payload key) = some t) :
    s.requests q = none ∧ user.id = q.passenger ∧ user.role = .passenger ∧
      t = s.at_ q ⟨user, payload, key, s.clock⟩ .starting := by
  dsimp only [createStep] at h
  split at h
  case isTrue hguard => exact ⟨hguard.1, hguard.2.1, hguard.2.2, (Option.some.inj h).symm⟩
  case isFalse => cases h

/-- The SELECT of a request finds the record of its key, or none. -/
theorem create_lookup (h : createStep fns s (.lookup q) = some t) :
    ∃ call, s.requests q = some (call, .starting) ∧
      t = s.at_ q call (afterLookup fns call (s.cached call)) := by
  dsimp only [createStep] at h
  split at h
  case h_1 call hreq => exact ⟨call, hreq, (Option.some.inj h).symm⟩
  case h_2 => cases h

/-- The INSERT of a ride with a new id stands uncommitted, or fails on a key that is too
long. -/
theorem create_insert {id : RideId} (h : createStep fns s (.insert q id) = some t) :
    ∃ call, s.requests q = some (call, .inserting) ∧ id ∉ s.drawn ∧
      (call.keyTooLong = true ∧ t = s.at_ q call (.answered .failed) ∨
        call.keyTooLong = false ∧ t = { s.at_ q call (.storing (insertedRide fns call id)) with
          drawn := id :: s.drawn }) := by
  dsimp only [createStep] at h
  split at h
  case h_1 call hreq =>
      refine ⟨call, hreq, ?_⟩
      split at h
      case isTrue => cases h
      case isFalse hfresh =>
          refine ⟨hfresh, ?_⟩
          split at h
          case isTrue hlong => exact Or.inl ⟨hlong, (Option.some.inj h).symm⟩
          case isFalse hshort =>
              exact Or.inr ⟨Bool.eq_false_iff.mpr hshort, (Option.some.inj h).symm⟩
  case h_2 => cases h

/-- A COMMIT publishes the ride with its record, or fails on the constraint; or
it ends a replay. -/
theorem create_commit (h : createStep fns s (.commit q) = some t) :
    ∃ call,
      (∃ ride, s.requests q = some (call, .storing ride) ∧
        (s.cached call = none ∧ t = s.publish q call ride (pendingRecords fns call ride) ∨
        ∃ conflicting, s.cached call = some conflicting ∧
          t = s.at_ q call (.answered .failed))) ∨
      ∃ response, s.requests q = some (call, .replaying response) ∧
        t = s.at_ q call (.answered (.created response)) := by
  dsimp only [createStep] at h
  split at h
  case h_1 call ride hreq =>
      refine ⟨call, Or.inl ⟨ride, hreq, ?_⟩⟩
      split at h
      case h_1 hnone => exact Or.inl ⟨hnone, (Option.some.inj h).symm⟩
      case h_2 conflicting hsome =>
          split at h
          case isTrue => exact Or.inr ⟨conflicting, hsome, (Option.some.inj h).symm⟩
          case isFalse => cases h
  case h_2 call response hreq =>
      exact ⟨call, Or.inr ⟨response, hreq, (Option.some.inj h).symm⟩⟩
  case h_3 => cases h

/-- A creation that is not answered can fail. -/
theorem create_abort (h : createStep fns s (.abort q) = some t) :
    ∃ call stage, s.requests q = some (call, stage) ∧
      (∀ outcome, stage ≠ .answered outcome) ∧ t = s.at_ q call (.answered .failed) := by
  dsimp only [createStep] at h
  split at h
  case h_1 => cases h
  case h_2 call stage hne hreq => exact ⟨call, stage, hreq, hne, (Option.some.inj h).symm⟩
  case h_3 => cases h

/-- A cleanup starts, and looks at the clock. -/
theorem create_beginCleanup (h : createStep fns s (.beginCleanup c) = some t) :
    s.cleanups c = none ∧ t = s.setCleanup c (.started s.clock) := by
  dsimp only [createStep] at h
  split at h
  case isTrue hnone => exact ⟨hnone, (Option.some.inj h).symm⟩
  case isFalse => cases h

/-- The DELETE of a cleanup holds the records that are a week old, if nobody else does. -/
theorem create_deleteRecords (h : createStep fns s (.deleteRecords c) = some t) :
    ∃ now, s.cleanups c = some (.started now) ∧
      (∀ record ∈ s.records, record.expired now → record.deletedBy = none) ∧
      t = { s.setCleanup c .deleting with
        records := s.records.map fun record =>
          if record.expired now then { record with deletedBy := some c } else record } := by
  dsimp only [createStep] at h
  split at h
  case h_1 now hc =>
      split at h
      case isTrue hfree =>
          refine ⟨now, hc, ?_, (Option.some.inj h).symm⟩
          intro record hmem
          exact of_decide_eq_true (List.all_eq_true.mp hfree record hmem)
      case isFalse => cases h
  case h_2 => cases h

/-- The COMMIT of a cleanup removes the records that it holds. -/
theorem create_commitCleanup (h : createStep fns s (.commitCleanup c) = some t) :
    s.cleanups c = some .deleting ∧ t = { s.setCleanup c .finished with
      records := s.records.filter fun record => record.deletedBy ≠ some c
      deleted := s.deleted ++ s.records.filter fun record => record.deletedBy = some c } := by
  dsimp only [createStep] at h
  split at h
  case h_1 hc => exact ⟨hc, (Option.some.inj h).symm⟩
  case h_2 => cases h

/-- A cleanup that fails gives them back. -/
theorem create_abortCleanup (h : createStep fns s (.abortCleanup c) = some t) :
    ∃ stage, s.cleanups c = some stage ∧ t = { s.setCleanup c .finished with
      records := s.records.map fun record =>
        if record.deletedBy = some c then { record with deletedBy := none } else record } := by
  dsimp only [createStep] at h
  split at h
  case h_1 => cases h
  case h_2 stage _ hc => exact ⟨stage, hc, (Option.some.inj h).symm⟩
  case h_3 => cases h

/-- Time passes. -/
theorem create_advance {seconds : Nat} (h : createStep fns s (.advance seconds) = some t) :
    t = { s with clock := s.clock + seconds } :=
  (Option.some.inj h).symm

/-- The call of a request is the one that it began with. -/
theorem create_call_origin {a : CreateAction} (h : createStep fns s a = some t)
    {call : CreateCall} {stage : CreateStage} (hreq : t.requests q = some (call, stage)) :
    (∃ old, s.requests q = some (call, old)) ∨
      ∃ user payload key, a = .begin q user payload key ∧ call.payload = payload := by
  cases a with
  | begin p user payload key =>
      obtain ⟨_, _, _, rfl⟩ := create_begin h
      rcases Tables.update_some_iff.mp hreq with ⟨rfl, hnew⟩ | ⟨_, hold⟩
      · cases hnew
        exact Or.inr ⟨user, payload, key, rfl, rfl⟩
      · exact Or.inl ⟨stage, hold⟩
  | lookup p =>
      obtain ⟨_, hp, rfl⟩ := create_lookup h
      exact Or.inl (Tables.first_of_update hp hreq)
  | insert p id =>
      obtain ⟨_, hp, _, ⟨_, rfl⟩ | ⟨_, rfl⟩⟩ := create_insert h
      · exact Or.inl (Tables.first_of_update hp hreq)
      · exact Or.inl (Tables.first_of_update hp hreq)
  | commit p =>
      obtain ⟨_, ⟨_, hp, ⟨_, rfl⟩ | ⟨_, _, rfl⟩⟩ | ⟨_, hp, rfl⟩⟩ := create_commit h
      · exact Or.inl (Tables.first_of_update hp hreq)
      · exact Or.inl (Tables.first_of_update hp hreq)
      · exact Or.inl (Tables.first_of_update hp hreq)
  | abort p =>
      obtain ⟨_, _, hp, _, rfl⟩ := create_abort h
      exact Or.inl (Tables.first_of_update hp hreq)
  | beginCleanup c =>
      obtain ⟨_, rfl⟩ := create_beginCleanup h
      exact Or.inl ⟨stage, hreq⟩
  | deleteRecords c =>
      obtain ⟨_, _, _, rfl⟩ := create_deleteRecords h
      exact Or.inl ⟨stage, hreq⟩
  | commitCleanup c =>
      obtain ⟨_, rfl⟩ := create_commitCleanup h
      exact Or.inl ⟨stage, hreq⟩
  | abortCleanup c =>
      obtain ⟨_, _, rfl⟩ := create_abortCleanup h
      exact Or.inl ⟨stage, hreq⟩
  | advance seconds =>
      obtain rfl := create_advance h
      exact Or.inl ⟨stage, hreq⟩

end Inversion

end RideFlow
