import RideFlow.InitialSchema
import RideFlow.Server

/-!
# Requests through the ORM

`register`, `create_ride` and `transition_ride` once more, one request after
the other, with every row they read or write taken through the ORM to a
database with a schema: SELECTs read rows back into objects, INSERTs and
UPDATEs are statements on the tables.  A row that cannot be read, and a statement
that the schema refuses or that names a table which is not there, is an
exception that no handler catches.  An exception rolls the tables back; the
reservation keys in Redis stay as they are by then.  An object needs a value in
every column that `models.py` declares NOT NULL, which every row that a handler
stores has.

What the world adds to a request is drawn with it: the time, the UUIDs, the
salt and the drivers that GEOSEARCH returns.
-/

namespace RideFlow

open Schemas

/-- What a handler raises: an `HTTPException`, or anything else. -/
inductive Raised
  | http (error : Rejection)
  | other
  deriving DecidableEq

/-- What the world adds to a request. -/
structure Draws where
  now : Timestamp
  id : Nat
  recordId : Nat
  firstEventId : Nat
  secondEventId : Nat
  salt : String
  candidates : List UserId

/-! ### Rows and objects -/

/-- A row of a table. -/
abbrev SqlRow := Row SqlValue

/-- The columns that a statement gives. -/
abbrev SqlFields := Assignment SqlValue

/-- The rows of all tables. -/
abbrev SqlDatabase := Database SqlValue

/-- Read a UUID. -/
def uuidAt (row : SqlRow) (name : String) : Option Nat :=
  match row name with
  | some (.uuid id) => some id
  | _ => none

/-- Read a text. -/
def textAt (row : SqlRow) (name : String) : Option String :=
  match row name with
  | some (.text s) => some s
  | _ => none

/-- Read a truth value. -/
def boolAt (row : SqlRow) (name : String) : Option Bool :=
  match row name with
  | some (.bool b) => some b
  | _ => none

/-- Read an integer that is not negative. -/
def naturalAt (row : SqlRow) (name : String) : Option Nat :=
  match row name with
  | some (.integer (.ofNat n)) => some n
  | _ => none

/-- Read a float. -/
def floatAt (row : SqlRow) (name : String) : Option ℚ :=
  match row name with
  | some (.float x) => some x
  | _ => none

/-- Read a time. -/
def timeAt (row : SqlRow) (name : String) : Option Timestamp :=
  match row name with
  | some (.time t) => some t
  | _ => none

/-- Read a column that may be NULL. -/
def nullableAt {α : Type} (read : SqlRow → String → Option α) (row : SqlRow) (name : String) :
    Option (Option α) :=
  if row name = none then some none else (read row name).map some

namespace EnumNaming

variable (naming : EnumNaming)

/-- The member with this text; `none` is a LookupError. -/
def readRole (s : String) : Option UserRole :=
  [.passenger, .driver, .admin].find? fun role => naming.role role = s

/-- The member of `RideStatus` with this text. -/
def readStatus (s : String) : Option RideStatus :=
  [.requested, .matching, .accepted, .driverArriving, .inProgress, .completed, .cancelled,
    .noDriversFound].find? fun status => naming.status status = s

/-- The object of a row of `users`. -/
def readUser (row : SqlRow) : Option User := do
  let id ← uuidAt row "id"
  let email ← textAt row "email"
  let hashedPassword ← textAt row "hashed_password"
  let fullName ← textAt row "full_name"
  let role ← (textAt row "role").bind naming.readRole
  let isActive ← boolAt row "is_active"
  return ⟨id, email, hashedPassword, fullName, role, isActive⟩

/-- The INSERT of a user; `created_at` is left to the database. -/
def userFields (user : User) : SqlFields :=
  [("id", some (.uuid user.id)), ("email", some (.text user.email)),
    ("hashed_password", some (.text user.hashedPassword)),
    ("full_name", some (.text user.fullName)), ("role", some (.text (naming.role user.role))),
    ("is_active", some (.bool user.isActive))]

/-- The object of a row of `rides`. -/
def readRide (row : SqlRow) : Option Ride := do
  let id ← uuidAt row "id"
  let passengerId ← uuidAt row "passenger_id"
  let driverId ← nullableAt uuidAt row "driver_id"
  let status ← (textAt row "status").bind naming.readStatus
  let version ← naturalAt row "version"
  let pickupLat ← floatAt row "pickup_lat"
  let pickupLng ← floatAt row "pickup_lng"
  let dropoffLat ← floatAt row "dropoff_lat"
  let dropoffLng ← floatAt row "dropoff_lng"
  let fareEstimate ← nullableAt floatAt row "fare_estimate"
  let idempotencyKey ← nullableAt textAt row "idempotency_key"
  let createdAt ← timeAt row "created_at"
  let updatedAt ← timeAt row "updated_at"
  return ⟨id, passengerId, driverId, status, version, pickupLat, pickupLng, dropoffLat,
    dropoffLng, fareEstimate, idempotencyKey, createdAt, updatedAt⟩

/-- The INSERT of a ride; the times are left to the database. -/
def rideFields (ride : Ride) : SqlFields :=
  [("id", some (.uuid ride.id)), ("passenger_id", some (.uuid ride.passengerId)),
    ("driver_id", ride.driverId.map .uuid), ("status", some (.text (naming.status ride.status))),
    ("version", some (.integer ride.version)), ("pickup_lat", some (.float ride.pickupLat)),
    ("pickup_lng", some (.float ride.pickupLng)),
    ("dropoff_lat", some (.float ride.dropoffLat)),
    ("dropoff_lng", some (.float ride.dropoffLng)),
    ("fare_estimate", ride.fareEstimate.map .float),
    ("idempotency_key", ride.idempotencyKey.map .text)]

/-- The SET of `apply_transition`, with the `onupdate` of `updated_at`. -/
def transitionFields (target : RideStatus) (extra : Option ExtraFields) (now : Timestamp)
    (row : SqlRow) : SqlFields :=
  [("status", some (.text (naming.status target))),
    ("version", (naturalAt row "version").map fun (version : Nat) => .integer (version + 1)),
    ("updated_at", some (.time now))] ++
    extra.toList.map fun fields => ("driver_id", some (.uuid fields.driverId))

end EnumNaming

/-- The INSERT of an event; `created_at` is left to the database. -/
def eventFields (event : OutboxEvent) : SqlFields :=
  [("id", some (.uuid event.id)), ("aggregate_type", some (.text event.aggregateType)),
    ("aggregate_id", some (.uuid event.aggregateId)),
    ("event_type", some (.text event.eventType)),
    ("payload", some (.json (.statusChange event.payload))),
    ("published", some (.bool event.published)), ("published_at", event.publishedAt.map .time)]

/-- The object of a row of `idempotency_records`. -/
def readRecord (row : SqlRow) : Option IdempotencyRecord := do
  let key ← textAt row "key"
  let scope ← textAt row "scope"
  let requestFingerprint ← textAt row "request_fingerprint"
  let responseBody ← match row "response_body" with
    | some (.json (.rideOut response)) => some response
    | _ => none
  let statusCode ← naturalAt row "status_code"
  let createdAt ← timeAt row "created_at"
  return { key, scope, requestFingerprint, responseBody, statusCode, createdAt }

/-- The INSERT of a record; `created_at` is left to the database. -/
def recordFields (id : Nat) (record : IdempotencyRecord) : SqlFields :=
  [("id", some (.uuid id)), ("key", some (.text record.key)), ("scope", some (.text record.scope)),
    ("request_fingerprint", some (.text record.requestFingerprint)),
    ("response_body", some (.json (.rideOut record.responseBody))),
    ("status_code", some (.integer record.statusCode))]

/-! ### Statements -/

namespace Orm

/-- The rows that a WHERE picks, read into objects. -/
def readRows {α : Type} (read : SqlRow → Option α) (db : SqlDatabase) (table : String)
    (picks : SqlRow → Bool) : Except Raised (List α) :=
  match ((db table).filter picks).mapM read with
  | some found => .ok found
  | none => .error .other

/-- `scalar_one_or_none`. -/
def scalarOneOrNone {α : Type} : List α → Except Raised (Option α)
  | [] => .ok none
  | [found] => .ok (some found)
  | _ => .error .other

/-- `WHERE column = value`. -/
def isAt (name : String) (value : SqlValue) (row : SqlRow) : Bool := row name = some value

/-- `WHERE Ride.id = .. AND Ride.version = ..`. -/
def atVersion (rideId : RideId) (expected : Int) (row : SqlRow) : Bool :=
  isAt "id" (.uuid rideId) row && isAt "version" (.integer expected) row

/-- The session of a request: the schema of its database, and the texts of the
enumerations. -/
structure Session where
  schema : SqlSchema
  naming : EnumNaming

/-- What `apply_transition` leaves: the refreshed ride, the event in the session
and the tables. -/
structure Transitioned where
  ride : Ride
  event : OutboxEvent
  db : SqlDatabase

namespace Session

variable (o : Session)

/-- SELECT .. WHERE; a table that is not there is an error. -/
def select {α : Type} (read : SqlRow → Option α) (db : SqlDatabase) (table : String)
    (picks : SqlRow → Bool) : Except Raised (List α) :=
  if (o.schema.table? table).isSome then readRows read db table picks else .error .other

/-- The INSERT of an object. -/
def insert (db : SqlDatabase) (table : String) (fields : SqlFields) (now : Timestamp) :
    Except Raised SqlDatabase :=
  match o.schema.insert postgres db table fields now with
  | some db' => .ok db'
  | none => .error .other

/-- The UPDATE of a row, with the row after it if there is one. -/
def modify (db : SqlDatabase) (table : String) (picks : SqlRow → Bool)
    (fields : SqlRow → SqlFields) : Except Raised (SqlDatabase × Option SqlRow) :=
  match o.schema.modify postgres db table picks fields with
  | some result => .ok result
  | none => .error .other

/-- `db.get(Ride, ride_id)`, and `db.refresh`. -/
def getRide (db : SqlDatabase) (rideId : RideId) : Except Raised (Option Ride) := do
  scalarOneOrNone (← o.select o.naming.readRide db "rides" (isAt "id" (.uuid rideId)))

/-! ### Handlers -/

/-- `get_current_user`. -/
def currentUser (fns : ServerFunctions) (db : SqlDatabase) (now : Timestamp) (token : String) :
    Except Raised User :=
  match fns.decodeToken now token with
  | none => .error (.http couldNotValidate)
  | some claims =>
      if claims.type ≠ some "access" then .error (.http couldNotValidate)
      else
        match claims.sub with
        | none => .error (.http couldNotValidate)
        | some userId => do
            let found ← o.select o.naming.readUser db "users" (isAt "id" (.uuid userId))
            match ← scalarOneOrNone found with
            | none => .error (.http userInactive)
            | some user =>
                if user.isActive = false then .error (.http userInactive) else return user

/-- `register`. -/
def register (fns : ServerFunctions) (db : SqlDatabase) (payload : RegisterRequest)
    (draws : Draws) : Except Raised (User × SqlDatabase) := do
  let existing ← o.select o.naming.readUser db "users" (isAt "email" (.text payload.email))
  match ← scalarOneOrNone existing with
  | some _ => .error (.http emailRegistered)
  | none =>
      let user := payload.user fns.toAccountFunctions draws.id draws.salt
      let db ← o.insert db "users" (o.naming.userFields user) draws.now
      return (user, db)

/-- `get_cached_response`, under a key that is present and not empty. -/
def cachedResponse (db : SqlDatabase) : Option String → Except Raised (Option IdempotencyRecord)
  | none => .ok none
  | some key => do
      scalarOneOrNone (← o.select readRecord db "idempotency_records" fun row =>
        isAt "key" (.text key) row && isAt "scope" (.text idempotencyScopeCreate) row)

/-- `store_response`, as the COMMIT sends it. -/
def storeRecord (db : SqlDatabase) (draws : Draws) : Option IdempotencyRecord →
    Except Raised SqlDatabase
  | none => .ok db
  | some record =>
      o.insert db "idempotency_records" (recordFields draws.recordId record) draws.now

/-- `create_ride`. -/
def createRide (fns : ServerFunctions) (db : SqlDatabase) (token : String)
    (payload : RideCreateRequest) (idempotencyKey : Option String) (draws : Draws) :
    Except Raised (RideOut × SqlDatabase) := do
  let user ← o.currentUser fns db draws.now token
  let user ← (requireRoles [.passenger] user).mapError .http
  let key? := idempotencyKey.filter fun key => key ≠ ""
  match ← o.cachedResponse db key? with
  | some cached =>
      if cached.requestFingerprint ≠ fns.body.fingerprint payload then .error (.http keyReused)
      else return (cached.responseBody, db)
  | none =>
      let ride := newRide draws.id user payload (fns.body.estimateFare payload) idempotencyKey
        draws.now
      let db ← o.insert db "rides" (o.naming.rideFields ride) draws.now
      match ← o.getRide db ride.id with
      | none => .error .other
      | some ride =>
          let record? := key?.map fun key => storeResponse fns.body key idempotencyScopeCreate
            payload 201 (rideOut ride) draws.now
          let db ← o.storeRecord db draws record?
          return (rideOut ride, db)

/-- `apply_transition`. -/
def applyTransition (db : SqlDatabase) (ride : Ride) (target : RideStatus) (expected : Int)
    (extra : Option ExtraFields) (now : Timestamp) (eventId : Nat) :
    Except Raised Transitioned := do
  (assertValidTransition ride.status target).mapError fun e => .http e.rejection
  let (db, row) ← o.modify db "rides" (atVersion ride.id expected)
    (o.naming.transitionFields target extra now)
  match row with
  | none => .error (.http (TransitionError.staleVersion ride.id expected).rejection)
  | some _ =>
      match ← o.getRide db ride.id with
      | none => .error .other
      | some refreshed =>
          return ⟨refreshed, statusChanged eventId refreshed ride.status target now, db⟩

/-- The INSERTs of the events that the COMMIT sends. -/
def flushEvents (db : SqlDatabase) (now : Timestamp) :
    List OutboxEvent → Except Raised SqlDatabase
  | [] => .ok db
  | event :: rest => do
      let db ← o.insert db "outbox_events" (eventFields event) now
      flushEvents db now rest

/-- `transition_ride` up to its first `apply_transition`; also the ride as it
was read. -/
def startTransition (fns : ServerFunctions) (db : SqlDatabase) (token : String)
    (rideId : RideId) (payload : RideTransitionRequest) (draws : Draws) :
    Except Raised (Ride × Transitioned) := do
  let user ← o.currentUser fns db draws.now token
  match ← o.getRide db rideId with
  | none => .error (.http ⟨404, "Ride not found"⟩)
  | some ride =>
      if authorized user ride payload.targetStatus then
        let first ← o.applyTransition db ride payload.targetStatus payload.expectedVersion none
          draws.now draws.firstEventId
        return (ride, first)
      else .error (.http ⟨403, "Not authorized to modify this ride"⟩)

/-- The second `apply_transition` of the branch that searches for a driver. -/
def resolveTransition (first : Transitioned) (driverId : Option UserId) (draws : Draws) :
    Except Raised (Ride × SqlDatabase) := do
  let final ← match driverId with
    | none =>
        o.applyTransition first.db first.ride .noDriversFound first.ride.version none draws.now
          draws.secondEventId
    | some d =>
        o.applyTransition first.db first.ride .accepted first.ride.version (some ⟨d⟩) draws.now
          draws.secondEventId
  let db ← o.flushEvents final.db draws.now [first.event, final.event]
  return (final.ride, db)

/-- `release_driver_reservation` of a cancelled ride that has a driver. -/
def releaseDriver (keys : Reservations) (payload : RideTransitionRequest) (ride : Ride) :
    Reservations :=
  match ride.driverId with
  | some d =>
      if payload.targetStatus = .cancelled ∧ holdsReservation keys d ride.id then
        deleteReservation keys d
      else keys
  | none => keys

/-- `transition_ride`, with the reservation keys after it. -/
def transitionRide (cfg : Settings) (fns : ServerFunctions) (db : SqlDatabase)
    (keys : Reservations) (token : String) (rideId : RideId) (payload : RideTransitionRequest)
    (draws : Draws) : Except Raised (Ride × SqlDatabase) × Reservations :=
  match o.startTransition fns db token rideId payload draws with
  | .error e => (.error e, keys)
  | .ok (ride, first) =>
      if takesMatching payload ride then
        let (driverId, keys) := reserveFirst cfg first.ride.id draws.now keys draws.candidates
        (o.resolveTransition first driverId draws, keys)
      else
        (do
          let db ← o.flushEvents first.db draws.now [first.event]
          return (first.ride, db), releaseDriver keys payload first.ride)

end Session

end Orm

/-! ### Sequences of requests -/

/-- The requests of a sequence. -/
inductive ApiRequest
  | register (payload : RegisterRequest)
  | createRide (token : String) (payload : RideCreateRequest) (idempotencyKey : Option String)
  | transitionRide (token : String) (rideId : RideId) (payload : RideTransitionRequest)

/-- The answers; `serverError` is the 500 of an exception that no handler
catches. -/
inductive ApiResponse
  | registered (user : User)
  | created (response : RideOut)
  | transitioned (ride : Ride)
  | rejected (error : Rejection)
  | serverError
  deriving DecidableEq

/-- The tables and the reservation keys. -/
structure Site where
  db : SqlDatabase
  keys : Reservations

/-- An empty database with its schema, and no keys. -/
def Site.init : Site := ⟨fun _ => [], fun _ => none⟩

/-- The answer to what a handler raises. -/
def Raised.response : Raised → ApiResponse
  | .http error => .rejected error
  | .other => .serverError

/-- The end of a request: COMMIT, or rollback and the answer of the exception. -/
def Site.finish {α : Type} (s : Site) (answer : α → ApiResponse) (keys : Reservations) :
    Except Raised (α × SqlDatabase) → ApiResponse × Site
  | .ok (result, db) => (answer result, ⟨db, keys⟩)
  | .error e => (e.response, { s with keys := keys })

/-- One request, from its arrival to its COMMIT or rollback. -/
def serve (cfg : Settings) (fns : ServerFunctions) (o : Orm.Session) (s : Site)
    (request : ApiRequest) (draws : Draws) : ApiResponse × Site :=
  match request with
  | .register payload => s.finish .registered s.keys (o.register fns s.db payload draws)
  | .createRide token payload key =>
      s.finish .created s.keys (o.createRide fns s.db token payload key draws)
  | .transitionRide token rideId payload =>
      let (result, keys) := o.transitionRide cfg fns s.db s.keys token rideId payload draws
      s.finish .transitioned keys result

/-- The answers to a sequence of requests, and what they leave. -/
def serveAll (cfg : Settings) (fns : ServerFunctions) (o : Orm.Session) :
    Site → List (ApiRequest × Draws) → List ApiResponse × Site
  | s, [] => ([], s)
  | s, (request, draws) :: rest =>
      let (response, s') := serve cfg fns o s request draws
      let (responses, final) := serveAll cfg fns o s' rest
      (response :: responses, final)

end RideFlow
