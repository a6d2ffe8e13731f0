import RideFlow.SchemaRequests

/-!
# Enumerations by value

What the two schemas would do if the ORM wrote the values of the enumerations
(`values_callable`) and the migration completed (`migratedTables true`).  The
labels are the only thing that `models.py` and the migration disagree about on
rows that the handlers write: every sequence of registrations, ride requests and
transitions is answered alike and leaves the same rows (`serveAll_alike`).

The columns that only the migration lets be NULL are never left empty: an
INSERT of a handler gives every required column or leaves it to its default,
and an UPDATE of a ride changes a row that `db.get` has read before, which it
could not if one of them were NULL.
-/

namespace RideFlow

open Schemas Orm

/-- The members' values in place of their names. -/
def memberValues : EnumNaming := ⟨UserRole.value, RideStatus.value⟩

/-- The application over the derived schema, writing values. -/
def derivedByValue : Session := ⟨modelsSchema memberValues, memberValues⟩

/-- The application over the schema of a migration that completes, writing values. -/
def migratedByValue : Session := ⟨migratedTables true, memberValues⟩

section Tables

/-- Written by value, the tables of users differ only in defaults and in what may be
NULL. -/
theorem users_mirrored : (ModelTables.users memberValues).Mirrors MigrationTables.users :=
  ⟨by decide, by decide, by decide, by decide⟩

/-- So do the tables of rides. -/
theorem rides_mirrored : (ModelTables.rides memberValues).Mirrors MigrationTables.rides :=
  ⟨by decide, by decide, by decide, by decide⟩

/-- So do the tables of events. -/
theorem outboxEvents_mirrored : ModelTables.outboxEvents.Mirrors MigrationTables.outboxEvents :=
  ⟨outboxEvents_relaxed, by decide, by decide, by decide⟩

/-- So do the tables of idempotency records. -/
theorem idempotencyRecords_mirrored :
    ModelTables.idempotencyRecords.Mirrors MigrationTables.idempotencyRecords :=
  ⟨idempotencyRecords_relaxed, by decide, by decide, by decide⟩

end Tables

section Statements

variable {db : SqlDatabase} {now : Timestamp}

/-- An INSERT that leaves no required column empty does the same on mirrored tables. -/
theorem insert_alike {table : String} {fields : SqlFields} {t t' : SqlTable}
    (ht : derivedByValue.schema.table? table = some t)
    (ht' : migratedByValue.schema.table? table = some t') (h : t.Mirrors t')
    (hgives : t.gives fields = true) :
    migratedByValue.insert db table fields now = derivedByValue.insert db table fields now := by
  unfold Session.insert
  rw [insert_mirrored ht ht' h hgives]

/-- The INSERT of a user does the same over both schemas. -/
theorem insert_user_alike (user : User) :
    migratedByValue.insert db "users" (memberValues.userFields user) now =
      derivedByValue.insert db "users" (memberValues.userFields user) now :=
  insert_alike rfl rfl users_mirrored rfl

/-- So does that of a ride. -/
theorem insert_ride_alike (ride : Ride) :
    migratedByValue.insert db "rides" (memberValues.rideFields ride) now =
      derivedByValue.insert db "rides" (memberValues.rideFields ride) now :=
  insert_alike rfl rfl rides_mirrored rfl

/-- So does that of an event. -/
theorem insert_event_alike (event : OutboxEvent) :
    migratedByValue.insert db "outbox_events" (eventFields event) now =
      derivedByValue.insert db "outbox_events" (eventFields event) now :=
  insert_alike rfl rfl outboxEvents_mirrored rfl

/-- So does that of an idempotency record. -/
theorem insert_record_alike (id : Nat) (record : IdempotencyRecord) :
    migratedByValue.insert db "idempotency_records" (recordFields id record) now =
      derivedByValue.insert db "idempotency_records" (recordFields id record) now :=
  insert_alike rfl rfl idempotencyRecords_mirrored rfl

end Statements

section Reading

variable {naming : EnumNaming} {row : SqlRow} {name : String}

/-- A reader that finds something does not find NULL. -/
theorem isSome_of_read {α : Type} {read : SqlRow → String → Option α} {v : α}
    (hnull : row name = none → read row name = none) (h : read row name = some v) :
    (row name).isSome = true := by
  cases hrow : row name with
  | none =>
      rw [hnull hrow] at h
      cases h
  | some _ => rfl

/-- A UUID that was read is not NULL. -/
theorem uuidAt_isSome {id : Nat} (h : uuidAt row name = some id) : (row name).isSome = true :=
  isSome_of_read (fun hrow => by simp [uuidAt, hrow]) h

/-- Nor is a float. -/
theorem floatAt_isSome {x : ℚ} (h : floatAt row name = some x) : (row name).isSome = true :=
  isSome_of_read (fun hrow => by simp [floatAt, hrow]) h

/-- Nor is a time. -/
theorem timeAt_isSome {t : Timestamp} (h : timeAt row name = some t) : (row name).isSome = true :=
  isSome_of_read (fun hrow => by simp [timeAt, hrow]) h

/-- The required columns of a row that can be read. -/
theorem readRide_columns {ride : Ride} (h : naming.readRide row = some ride) :
    uuidAt row "id" = some ride.id ∧ uuidAt row "passenger_id" = some ride.passengerId ∧
      naturalAt row "version" = some ride.version ∧
      floatAt row "pickup_lat" = some ride.pickupLat ∧
      floatAt row "pickup_lng" = some ride.pickupLng ∧
      floatAt row "dropoff_lat" = some ride.dropoffLat ∧
      floatAt row "dropoff_lng" = some ride.dropoffLng ∧
      timeAt row "created_at" = some ride.createdAt := by
  obtain ⟨id, hid, h⟩ := Option.bind_eq_some_iff.mp h
  obtain ⟨passengerId, hpassenger, h⟩ := Option.bind_eq_some_iff.mp h
  obtain ⟨driverId, _, h⟩ := Option.bind_eq_some_iff.mp h
  obtain ⟨status, _, h⟩ := Option.bind_eq_some_iff.mp h
  obtain ⟨version, hversion, h⟩ := Option.bind_eq_some_iff.mp h
  obtain ⟨pickupLat, hpickupLat, h⟩ := Option.bind_eq_some_iff.mp h
  obtain ⟨pickupLng, hpickupLng, h⟩ := Option.bind_eq_some_iff.mp h
  obtain ⟨dropoffLat, hdropoffLat, h⟩ := Option.bind_eq_some_iff.mp h
  obtain ⟨dropoffLng, hdropoffLng, h⟩ := Option.bind_eq_some_iff.mp h
  obtain ⟨fareEstimate, _, h⟩ := Option.bind_eq_some_iff.mp h
  obtain ⟨key, _, h⟩ := Option.bind_eq_some_iff.mp h
  obtain ⟨createdAt, hcreated, h⟩ := Option.bind_eq_some_iff.mp h
  obtain ⟨updatedAt, _, h⟩ := Option.bind_eq_some_iff.mp h
  cases h
  exact ⟨hid, hpassenger, hversion, hpickupLat, hpickupLng, hdropoffLat, hdropoffLng, hcreated⟩

/-- A transition leaves no required column empty in a row that can be read. -/
theorem readRide_complete {ride : Ride} (h : naming.readRide row = some ride)
    (target : RideStatus) (extra : Option ExtraFields) (now : Timestamp) :
    (ModelTables.rides memberValues).complete
      (row.assign (naming.transitionFields target extra now row)) = true := by
  obtain ⟨hid, hpassenger, hversion, hpickupLat, hpickupLng, hdropoffLat, hdropoffLng,
    hcreated⟩ := readRide_columns h
  calc
    _ = ((row "id").isSome && ((row "passenger_id").isSome &&
        (((naturalAt row "version").map fun (version : Nat) =>
            SqlValue.integer (version + 1)).isSome &&
          ((row "pickup_lat").isSome && ((row "pickup_lng").isSome &&
            ((row "dropoff_lat").isSome && ((row "dropoff_lng").isSome &&
              ((row "created_at").isSome && true)))))))) := by
      cases extra <;> rfl
    _ = true := by
      simp only [uuidAt_isSome hid, uuidAt_isSome hpassenger, hversion, Option.map_some,
        Option.isSome_some, floatAt_isSome hpickupLat, floatAt_isSome hpickupLng,
        floatAt_isSome hdropoffLat, floatAt_isSome hdropoffLng, timeAt_isSome hcreated,
        Bool.and_self]

/-- The row of a ride carries its id. -/
theorem readRide_id {ride : Ride} (h : naming.readRide row = some ride) :
    row "id" = some (.uuid ride.id) := by
  have hid := (readRide_columns h).1
  unfold uuidAt at hid
  split at hid
  case h_1 hrow =>
      cases hid
      exact hrow
  case h_2 => cases hid

/-- Rows are read one by one. -/
theorem mapM_reads {α : Type} {read : SqlRow → Option α} {rows : List SqlRow} {found : List α}
    (h : rows.mapM read = some found) :
    List.Forall₂ (fun row a => read row = some a) rows found := by
  induction rows generalizing found with
  | nil =>
      cases h
      exact .nil
  | cons row rest ih =>
      rw [List.mapM_cons] at h
      obtain ⟨a, ha, h⟩ := Option.bind_eq_some_iff.mp h
      obtain ⟨others, hothers, h⟩ := Option.bind_eq_some_iff.mp h
      cases h
      exact .cons ha (ih hothers)

/-- The SELECT of a session reads its rows one by one, whatever its schema. -/
theorem select_reads {o : Session} {α : Type} {read : SqlRow → Option α} {db : SqlDatabase}
    {table : String} {picks : SqlRow → Bool} {found : List α}
    (h : o.select read db table picks = .ok found) :
    List.Forall₂ (fun row a => read row = some a) ((db table).filter picks) found := by
  unfold Session.select at h
  split at h
  case isFalse => cases h
  case isTrue =>
      unfold readRows at h
      split at h
      case h_1 others hread =>
          cases h
          exact mapM_reads hread
      case h_2 => cases h

/-- One object comes of a list of one. -/
theorem scalarOneOrNone_some {α : Type} {found : List α} {a : α}
    (h : scalarOneOrNone found = .ok (some a)) : found = [a] := by
  unfold scalarOneOrNone at h
  split at h
  case h_1 => cases h
  case h_2 =>
      cases h
      rfl
  case h_3 => cases h

/-- What `db.get` has found: the rows under the id can be read, and the ride
carries the id. -/
theorem getRide_found {o : Session} {db : SqlDatabase} {rideId : RideId} {ride : Ride}
    (h : o.getRide db rideId = .ok (some ride)) :
    ride.id = rideId ∧ ∀ row ∈ db "rides", isAt "id" (.uuid rideId) row = true →
      ∃ found, o.naming.readRide row = some found := by
  unfold Session.getRide at h
  cases hselect : o.select o.naming.readRide db "rides" (isAt "id" (.uuid rideId)) with
  | error e =>
      rw [hselect] at h
      cases h
  | ok found =>
      rw [hselect] at h
      obtain rfl := scalarOneOrNone_some h
      have hrows := select_reads hselect
      constructor
      · obtain ⟨row, hrow, hride⟩ := exists_left_of_mem hrows (List.mem_singleton_self _)
        have hid : row "id" = some (.uuid rideId) :=
          of_decide_eq_true (List.mem_filter.mp hrow).2
        rw [readRide_id hride] at hid
        simpa using hid
      · intro row hrow hpicked
        obtain ⟨a, _, ha⟩ := exists_right_of_mem hrows (List.mem_filter.mpr ⟨hrow, hpicked⟩)
        exact ⟨a, ha⟩

end Reading

section Handlers

variable {cfg : Settings} {fns : ServerFunctions} {db : SqlDatabase} {draws : Draws}

/-- Both sessions write values. -/
theorem derivedByValue_naming : derivedByValue.naming = memberValues := rfl

theorem migratedByValue_naming : migratedByValue.naming = memberValues := rfl

/-- What is only read does not depend on the schema. -/
theorem getRide_alike (rideId : RideId) :
    migratedByValue.getRide db rideId = derivedByValue.getRide db rideId := rfl

/-- Neither does a SELECT of users. -/
theorem selectUser_alike (picks : SqlRow → Bool) :
    migratedByValue.select memberValues.readUser db "users" picks =
      derivedByValue.select memberValues.readUser db "users" picks := rfl

/-- Nor the look for a cached response. -/
theorem cachedResponse_alike (key : Option String) :
    migratedByValue.cachedResponse db key = derivedByValue.cachedResponse db key := by
  cases key <;> rfl

/-- Nor the authentication of a request. -/
theorem currentUser_alike (now : Timestamp) (token : String) :
    migratedByValue.currentUser fns db now token = derivedByValue.currentUser fns db now token :=
  rfl

/-- A registration is answered alike. -/
theorem register_alike (payload : RegisterRequest) :
    migratedByValue.register fns db payload draws =
      derivedByValue.register fns db payload draws := by
  simp only [Session.register, derivedByValue_naming, migratedByValue_naming, selectUser_alike,
    insert_user_alike]

/-- The creation of a ride is answered alike. -/
theorem createRide_alike (token : String) (payload : RideCreateRequest) (key : Option String) :
    migratedByValue.createRide fns db token payload key draws =
      derivedByValue.createRide fns db token payload key draws := by
  have hstore : ∀ db record?, migratedByValue.storeRecord db draws record? =
      derivedByValue.storeRecord db draws record? := by
    intro db record?
    cases record? with
    | none => rfl
    | some record => exact insert_record_alike _ _
  simp only [Session.createRide, derivedByValue_naming, migratedByValue_naming, insert_ride_alike,
    hstore, currentUser_alike, cachedResponse_alike, getRide_alike]

/-- An UPDATE of a ride that was read before. -/
theorem modify_ride_alike {ride found : Ride}
    (h : derivedByValue.getRide db ride.id = .ok (some found)) (target : RideStatus)
    (expected : Int) (extra : Option ExtraFields) (now : Timestamp) :
    migratedByValue.modify db "rides" (atVersion ride.id expected)
        (memberValues.transitionFields target extra now) =
      derivedByValue.modify db "rides" (atVersion ride.id expected)
        (memberValues.transitionFields target extra now) := by
  unfold Session.modify
  have hmodify : migratedByValue.schema.modify postgres db "rides" (atVersion ride.id expected)
      (memberValues.transitionFields target extra now) =
        derivedByValue.schema.modify postgres db "rides" (atVersion ride.id expected)
          (memberValues.transitionFields target extra now) := by
    refine modify_mirrored rfl rfl rides_mirrored fun row hrow hpicked => ?_
    have hid : isAt "id" (.uuid ride.id) row = true := ((Bool.and_eq_true _ _).mp hpicked).1
    obtain ⟨read, hread⟩ := (getRide_found h).2 row hrow hid
    exact readRide_complete hread target extra now
  rw [hmodify]

/-- An `apply_transition` on a ride that was read does the same. -/
theorem applyTransition_alike {ride found : Ride}
    (h : derivedByValue.getRide db ride.id = .ok (some found)) (target : RideStatus)
    (expected : Int) (extra : Option ExtraFields) (now : Timestamp) (eventId : Nat) :
    migratedByValue.applyTransition db ride target expected extra now eventId =
      derivedByValue.applyTransition db ride target expected extra now eventId := by
  simp only [Session.applyTransition, derivedByValue_naming, migratedByValue_naming,
    modify_ride_alike h, getRide_alike]

/-- A computation that succeeds has two parts that succeed. -/
theorem bind_ok {α β : Type} {x : Except Raised α} {f : α → Except Raised β} {b : β}
    (h : x >>= f = .ok b) : ∃ a, x = .ok a ∧ f a = .ok b := by
  cases x with
  | error e => cases h
  | ok a => exact ⟨a, rfl, h⟩

/-- After a transition its ride can be read. -/
theorem applyTransition_found {o : Session} {ride : Ride} {target : RideStatus} {expected : Int}
    {extra : Option ExtraFields} {now : Timestamp} {eventId : Nat} {result : Transitioned}
    (h : o.applyTransition db ride target expected extra now eventId = .ok result) :
    o.getRide result.db result.ride.id = .ok (some result.ride) := by
  obtain ⟨_, _, h⟩ := bind_ok h
  obtain ⟨⟨db', row⟩, _, h⟩ := bind_ok h
  cases row with
  | none => cases h
  | some row =>
      obtain ⟨found, hfound, h⟩ := bind_ok h
      cases found with
      | none => cases h
      | some refreshed =>
          cases h
          rwa [← (getRide_found hfound).1] at hfound

/-- After the first `apply_transition` of a request its ride can be read. -/
theorem startTransition_found {o : Session} {token : String} {rideId : RideId}
    {payload : RideTransitionRequest} {ride : Ride} {first : Transitioned}
    (h : o.startTransition fns db token rideId payload draws = .ok (ride, first)) :
    o.getRide first.db first.ride.id = .ok (some first.ride) := by
  obtain ⟨user, _, h⟩ := bind_ok h
  obtain ⟨found, _, h⟩ := bind_ok h
  cases found with
  | none => cases h
  | some ride =>
      dsimp only at h
      split at h
      case isTrue =>
          obtain ⟨result, hresult, h⟩ := bind_ok h
          cases h
          exact applyTransition_found hresult
      case isFalse => cases h

/-- A transition starts alike. -/
theorem startTransition_alike (token : String) (rideId : RideId)
    (payload : RideTransitionRequest) :
    migratedByValue.startTransition fns db token rideId payload draws =
      derivedByValue.startTransition fns db token rideId payload draws := by
  simp only [Session.startTransition, currentUser_alike, getRide_alike]
  refine bind_congr fun user => ?_
  cases hride : derivedByValue.getRide db rideId with
  | error e => rfl
  | ok found =>
      cases found with
      | none => rfl
      | some ride =>
          have hread : derivedByValue.getRide db ride.id = .ok (some ride) := by
            rw [(getRide_found hride).1, hride]
          simp only [bind, Except.bind, applyTransition_alike hread]

/-- The events are stored alike. -/
theorem flushEvents_alike (events : List OutboxEvent) (now : Timestamp) :
    migratedByValue.flushEvents db now events = derivedByValue.flushEvents db now events := by
  induction events generalizing db with
  | nil => rfl
  | cons event rest ih => simp only [Session.flushEvents, insert_event_alike, ih]

/-- The outcome of a search is written alike. -/
theorem resolveTransition_alike {first : Transitioned}
    (h : derivedByValue.getRide first.db first.ride.id = .ok (some first.ride))
    (driverId : Option UserId) :
    migratedByValue.resolveTransition first driverId draws =
      derivedByValue.resolveTransition first driverId draws := by
  cases driverId <;>
    simp only [Session.resolveTransition, applyTransition_alike h, flushEvents_alike]

/-- A transition is answered alike, and leaves the same keys. -/
theorem transitionRide_alike (keys : Reservations) (token : String) (rideId : RideId)
    (payload : RideTransitionRequest) :
    migratedByValue.transitionRide cfg fns db keys token rideId payload draws =
      derivedByValue.transitionRide cfg fns db keys token rideId payload draws := by
  simp only [Session.transitionRide, startTransition_alike]
  cases hstart : derivedByValue.startTransition fns db token rideId payload draws with
  | error e => rfl
  | ok result =>
      obtain ⟨ride, first⟩ := result
      simp only [resolveTransition_alike (startTransition_found hstart), flushEvents_alike]

/-- Every request is answered alike, and leaves the same rows and keys. -/
theorem serve_alike (s : Site) (request : ApiRequest) (draws : Draws) :
    serve cfg fns migratedByValue s request draws =
      serve cfg fns derivedByValue s request draws := by
  cases request with
  | register payload => simp only [serve, register_alike]
  | createRide token payload key => simp only [serve, createRide_alike]
  | transitionRide token rideId payload => simp only [serve, transitionRide_alike]

/-- **Written by value, the enumerations leave no difference**: every sequence
of requests gets the same answers over both schemas, and leaves the same
rows. -/
theorem serveAll_alike (s : Site) (requests : List (ApiRequest × Draws)) :
    serveAll cfg fns migratedByValue s requests = serveAll cfg fns derivedByValue s requests := by
  induction requests generalizing s with
  | nil => rfl
  | cons entry rest ih =>
      obtain ⟨request, draws⟩ := entry
      simp only [serveAll, serve_alike, ih]

end Handlers

end RideFlow
