import RideFlow.Library.CanonicalJson
import RideFlow.LiveUpdates
import RideFlow.ReplayWindow

/-!
# What is hashed, stored and sent as JSON

The texts that other modules leave out, written and read as Python's `json` does:

* `fingerprint` of `services/idempotency.py` hashes a canonical text, so that bodies
  have one fingerprint when they are alike as JSON (`PyJson.Value.Alike`), or when
  SHA-256 collides (`fingerprint_eq_iff`);
* the JSON columns of `models.py` keep a response body, which a replay reads back
  (`replays_read_back`), and the payload of an event;
* the message that `process_batch` publishes tells a subscriber the change
  (`texts_tell_changes`).

UUIDs and times are written by functions that can be inverted, floats by their `repr`.
-/

namespace RideFlow

open PyJson Runs

/-- How the values that JSON has no type for are written, and what is read from them. -/
structure Texts where
  id : Nat → String
  isoformat : Timestamp → String
  /-- The time of a response, which pydantic writes. -/
  jsonTime : Timestamp → String
  float : ℚ → Numeral
  idOf : String → Option Nat
  timeOf : String → Option Timestamp
  floatOf : Numeral → ℚ
  idOf_id : ∀ n, idOf (id n) = some n
  timeOf_isoformat : ∀ t, timeOf (isoformat t) = some t
  timeOf_jsonTime : ∀ t, timeOf (jsonTime t) = some t

section Samples

/-- The front of a sample UUID. -/
def uuidFront : String := "00000000-0000-4000-8000-00000000000"

/-- The front of a sample time. -/
def timeFront : String := "1970-01-01T00:00:0"

/-- The number that is written behind a front. -/
def numberAt (front s : String) : Option Nat :=
  some (Nat.ofDigitChars 10 ((s.toList.drop front.toList.length).takeWhile Char.isDigit) 0)

/-- The number is read that was written. -/
theorem numberAt_append (front zone : String) (n : Nat)
    (hzone : ∀ c ∈ zone.toList.head?, c.isDigit = false) :
    numberAt front (front ++ n.repr ++ zone) = some n := by
  have hdigits : ∀ c ∈ n.repr.toList, c.isDigit = true := fun c hc => isDigit_of_mem_repr hc
  have hnone : zone.toList.takeWhile Char.isDigit = [] := by
    cases hz : zone.toList with
    | nil => rfl
    | cons c rest =>
        rw [hz] at hzone
        simp [hzone c rfl]
  rw [numberAt, String.toList_append, String.toList_append, List.append_assoc, List.drop_left,
    List.takeWhile_append_of_pos hdigits, hnone, List.append_nil, Nat.toList_repr,
    Nat.ofDigitChars_ten_toDigits]

/-- The floats of the sample ride, with their `repr`s. -/
def sampleFloats : List (ℚ × Numeral) :=
  [(40, ⟨"40.0".toList, by decide⟩), (-74, ⟨"-74.0".toList, by decide⟩),
    (41, ⟨"41.0".toList, by decide⟩), (-73, ⟨"-73.0".toList, by decide⟩),
    (sampleFare, ⟨"191.08".toList, by decide⟩)]

/-- UUIDs of numbers with one digit, and the first seconds of 1970. -/
def sampleTexts : Texts where
  id n := uuidFront ++ n.repr ++ ""
  isoformat t := timeFront ++ t.repr ++ "+00:00"
  jsonTime t := timeFront ++ t.repr ++ "Z"
  float x := (sampleFloats.lookup x).getD (.ofNat 0)
  idOf := numberAt uuidFront
  timeOf := numberAt timeFront
  floatOf n := ((sampleFloats.find? fun pair => pair.2.text = n.text).map Prod.fst).getD 0
  idOf_id n := numberAt_append uuidFront "" n (by simp)
  timeOf_isoformat t := numberAt_append timeFront "+00:00" t (by simp)
  timeOf_jsonTime t := numberAt_append timeFront "Z" t (by simp)

end Samples

section Fingerprints

variable (texts : Texts) (sha256 : List Char → String)

/-- `fingerprint` of `services/idempotency.py`. -/
def fingerprint (payload : Value) : String := sha256 (canonical payload)

/-- `payload.model_dump()`. -/
def requestDict (payload : RideCreateRequest) : Value :=
  .object [("pickup_lat", .number (texts.float payload.pickupLat)),
    ("pickup_lng", .number (texts.float payload.pickupLng)),
    ("dropoff_lat", .number (texts.float payload.dropoffLat)),
    ("dropoff_lng", .number (texts.float payload.dropoffLng))]

/-- Two texts that the hash does not tell apart. -/
def Collide (text text' : List Char) : Prop := text ≠ text' ∧ sha256 text = sha256 text'

/-- What a text tells, its hash tells up to collisions. -/
theorem hash_eq_iff {text text' : List Char} {Same : Prop} (h : text = text' ↔ Same) :
    sha256 text = sha256 text' ↔ Same ∨ Collide sha256 text text' := by
  rw [← h, Collide]
  constructor
  · intro hhash
    by_cases htexts : text = text'
    · exact Or.inl htexts
    · exact Or.inr ⟨htexts, hhash⟩
  · rintro (rfl | ⟨_, hhash⟩)
    · rfl
    · exact hhash

/-- **What a fingerprint tells.**  The fingerprints of two payloads are the same just
when the payloads have the same JSON types, the same strings and numbers of the same
`repr`, in whatever order their members come, or their canonical texts are a collision of
the hash. -/
theorem fingerprint_eq_iff {payload payload' : Value} (h : payload.Distinct)
    (h' : payload'.Distinct) : fingerprint sha256 payload = fingerprint sha256 payload' ↔
      payload.Alike payload' ∨ Collide sha256 (canonical payload) (canonical payload') :=
  hash_eq_iff sha256 (canonical_eq_iff h h')

/-- Two orders of one body. -/
def bodyInOneOrder : Value :=
  .object [("b", .object [("y", .array [.number (.ofNat 1), .null]), ("x", .string "é")]),
    ("a", .bool true)]

/-- The same body in another order. -/
def bodyInAnother : Value :=
  .object [("a", .bool true),
    ("b", .object [("x", .string "é"), ("y", .array [.number (.ofNat 1), .null])])]

/-- The canonical text of both. -/
def bodyText : String :=
  "\x7b\"a\": true, \"b\": \x7b\"x\": \"\\u00e9\", \"y\": [1, null]\x7d\x7d"

/-- SHA-256 at this text. -/
def sampleSha256 (text : List Char) : String :=
  if text = bodyText.toList then
    "5218cb5511ee5b4f0a35bcf27721ba4dbdd506fe58dfac4a4a1569dfec641143"
  else ""

/-- The two orders have one fingerprint. -/
theorem order_is_not_hashed :
    fingerprint sampleSha256 bodyInOneOrder = fingerprint sampleSha256 bodyInAnother := by
  have hone : bodyInOneOrder.Distinct := by
    simp [bodyInOneOrder, Value.Distinct, DistinctMembers, DistinctItems]
  have hother : bodyInAnother.Distinct := by
    simp [bodyInAnother, Value.Distinct, DistinctMembers, DistinctItems]
  refine (fingerprint_eq_iff sampleSha256 hone hother).mpr
    (Or.inl ⟨rfl, ⟨_, .tail _ (.head _), ?_⟩, ⟨_, .head _, rfl⟩, trivial⟩)
  exact ⟨rfl, ⟨_, .tail _ (.head _), rfl, trivial, trivial⟩, ⟨_, .head _, rfl⟩, trivial⟩

example : canonical bodyInOneOrder = bodyText.toList := by decide +kernel

/-- A body names each of its members once. -/
theorem requestDict_distinct (payload : RideCreateRequest) :
    (requestDict texts payload).Distinct := by
  refine ⟨?_, trivial, trivial, trivial, trivial, trivial⟩
  change ["pickup_lat", "pickup_lng", "dropoff_lat", "dropoff_lng"].Nodup
  decide

/-- The coordinates of two requests are written alike. -/
def SameCoordinates (payload payload' : RideCreateRequest) : Prop :=
  texts.float payload.pickupLat = texts.float payload'.pickupLat ∧
  texts.float payload.pickupLng = texts.float payload'.pickupLng ∧
  texts.float payload.dropoffLat = texts.float payload'.dropoffLat ∧
  texts.float payload.dropoffLng = texts.float payload'.dropoffLng

/-- Bodies are alike when their coordinates have the same `repr`s. -/
theorem requestDict_alike (payload payload' : RideCreateRequest) :
    (requestDict texts payload).Alike (requestDict texts payload') ↔
      SameCoordinates texts payload payload' := by
  simp [requestDict, object_alike, AlikeMembers, SameCoordinates, eq_comm]

/-- The functions of the body, with the fingerprint as `create_ride` computes it. -/
def hashingFunctions (estimateFare : RideCreateRequest → ℚ) : BodyFunctions where
  fingerprint payload := fingerprint sha256 (requestDict texts payload)
  estimateFare := estimateFare

/-- Two bodies have one fingerprint when their coordinates are written alike. -/
theorem hashing_eq_iff (estimateFare : RideCreateRequest → ℚ)
    (payload payload' : RideCreateRequest) :
    (hashingFunctions texts sha256 estimateFare).fingerprint payload =
        (hashingFunctions texts sha256 estimateFare).fingerprint payload' ↔
      SameCoordinates texts payload payload' ∨
        Collide sha256 (canonical (requestDict texts payload))
          (canonical (requestDict texts payload')) := by
  rw [← requestDict_alike]
  exact hash_eq_iff sha256
    (canonical_eq_iff (requestDict_distinct texts payload) (requestDict_distinct texts payload'))

end Fingerprints

section Reading

/-- The value of a name in a `dict`. -/
def field {α : Type} (members : List (String × Value)) (name : String)
    (read : Value → Option α) : Option α :=
  (members.find? fun m => m.1 = name).bind fun m => read m.2

/-- `None` is `null`. -/
def optional {α : Type} (write : α → Value) : Option α → Value
  | none => .null
  | some a => write a

/-- `null` is `None`. -/
def readOptional {α : Type} (read : Value → Option α) : Value → Option (Option α)
  | .null => some none
  | v => (read v).map some

/-- Read a string. -/
def readText {α : Type} (of : String → Option α) : Value → Option α
  | .string s => of s
  | _ => none

/-- Read a natural number. -/
def readNat : Value → Option Nat
  | .number n => n.toNat?
  | _ => none

/-- Read a float. -/
def readFloat (floatOf : Numeral → ℚ) : Value → Option ℚ
  | .number n => some (floatOf n)
  | _ => none

/-- `RideStatus(value)`. -/
def statusOf (value : String) : Option RideStatus :=
  [.requested, .matching, .accepted, .driverArriving, .inProgress, .completed, .cancelled,
    .noDriversFound].find? fun status => status.value = value

/-- A status is read from its value. -/
theorem statusOf_value (status : RideStatus) : statusOf status.value = some status := by
  cases status <;> decide

end Reading

section Responses

variable (texts : Texts)

/-- `RideOut.model_validate(ride).model_dump(mode="json")`. -/
def RideOut.dump (out : RideOut) : Value :=
  .object [("id", .string (texts.id out.id)),
    ("passenger_id", .string (texts.id out.passengerId)),
    ("driver_id", optional (fun id => .string (texts.id id)) out.driverId),
    ("status", .string out.status.value),
    ("version", .number (.ofNat out.version)),
    ("pickup_lat", .number (texts.float out.pickupLat)),
    ("pickup_lng", .number (texts.float out.pickupLng)),
    ("dropoff_lat", .number (texts.float out.dropoffLat)),
    ("dropoff_lng", .number (texts.float out.dropoffLng)),
    ("fare_estimate", optional (fun fare => .number (texts.float fare)) out.fareEstimate),
    ("created_at", .string (texts.jsonTime out.createdAt)),
    ("updated_at", .string (texts.jsonTime out.updatedAt))]

/-- What `response_model=RideOut` makes of the `dict` of a replay. -/
def RideOut.validate : Value → Option RideOut
  | .object members => do
      let id ← field members "id" (readText texts.idOf)
      let passengerId ← field members "passenger_id" (readText texts.idOf)
      let driverId ← field members "driver_id" (readOptional (readText texts.idOf))
      let status ← field members "status" (readText statusOf)
      let version ← field members "version" readNat
      let pickupLat ← field members "pickup_lat" (readFloat texts.floatOf)
      let pickupLng ← field members "pickup_lng" (readFloat texts.floatOf)
      let dropoffLat ← field members "dropoff_lat" (readFloat texts.floatOf)
      let dropoffLng ← field members "dropoff_lng" (readFloat texts.floatOf)
      let fareEstimate ← field members "fare_estimate" (readOptional (readFloat texts.floatOf))
      let createdAt ← field members "created_at" (readText texts.timeOf)
      let updatedAt ← field members "updated_at" (readText texts.timeOf)
      return { id, passengerId, driverId, status, version, pickupLat, pickupLng, dropoffLat,
               dropoffLng, fareEstimate, createdAt, updatedAt }
  | _ => none

/-- The numbers of a response that are floats. -/
def RideOut.floats (out : RideOut) : List ℚ :=
  [out.pickupLat, out.pickupLng, out.dropoffLat, out.dropoffLng] ++ out.fareEstimate.toList

/-- A response that was dumped is validated as itself. -/
theorem validate_dump {out : RideOut}
    (h : ∀ x ∈ out.floats, texts.floatOf (texts.float x) = x) :
    RideOut.validate texts (out.dump texts) = some out := by
  obtain ⟨id, passengerId, driverId, status, version, pickupLat, pickupLng, dropoffLat, dropoffLng,
    fareEstimate, createdAt, updatedAt⟩ := out
  have hdriver : readOptional (readText texts.idOf)
      (optional (fun id => .string (texts.id id)) driverId) = some driverId := by
    cases driverId with
    | none => rfl
    | some driver => simp [optional, readOptional, readText, texts.idOf_id]
  have hfare : readOptional (readFloat texts.floatOf)
      (optional (fun fare => .number (texts.float fare)) fareEstimate) =
        some fareEstimate := by
    cases fareEstimate with
    | none => rfl
    | some fare =>
        have hfloat : texts.floatOf (texts.float fare) = fare := h fare (by simp [RideOut.floats])
        simp [optional, readOptional, readFloat, hfloat]
  simp only [RideOut.floats, List.cons_append, List.nil_append, List.forall_mem_cons] at h
  obtain ⟨hplat, hplng, hdlat, hdlng, _⟩ := h
  simp [RideOut.dump, RideOut.validate, field, hdriver, hfare, readText, readNat,
    readFloat, texts.idOf_id, texts.timeOf_jsonTime, statusOf_value, toNat?_ofNat, hplat, hplng,
    hdlat, hdlng]

end Responses

section Replays

variable {cfg : Settings} {fns : ServerFunctions} {users : List User} {acts : List ServerAction}
  {s : ServerState}

/-- The text of the column `response_body`. -/
def IdempotencyRecord.column (texts : Texts) (record : IdempotencyRecord) : List Char :=
  dumps (record.responseBody.dump texts)

/-- The response of a replay: `cached.response_body`, validated again. -/
def IdempotencyRecord.replayed (texts : Texts) (record : IdempotencyRecord) : Option RideOut :=
  (loads (record.column texts)).bind (RideOut.validate texts)

/-- **Replays are read back.**  Whatever record a server holds, it holds the text of the
response that the creation with this key was answered with, and a replay makes that
response of it again. -/
theorem replays_read_back (texts : Texts)
    (h : Steps (serverSystem cfg fns) free (.init users) acts s) {record : IdempotencyRecord}
    (hmem : record ∈ s.creates.records)
    (hfloats : ∀ x ∈ record.responseBody.floats, texts.floatOf (texts.float x) = x) :
    ∃ q call response, s.creates.requests q = some (call, .answered (.created response)) ∧
      call.key? = some record.key ∧ record.column texts = dumps (response.dump texts) ∧
      record.replayed texts = some response := by
  obtain ⟨_, hcreates⟩ := creates_run h
  have hbooks := create_books_kept hcreates
  obtain ⟨q, call, hanswered, hkey, _⟩ := hbooks.stored record (List.mem_append_left _ hmem)
  refine ⟨q, call, record.responseBody, hanswered, hkey, rfl, ?_⟩
  rw [IdempotencyRecord.replayed, IdempotencyRecord.column, loads_dumps, Option.bind_some]
  exact validate_dump texts hfloats

/-- A ride is created under a key, and its record read back. -/
theorem stored_answer_read_back : ∃ s record q call response,
    Steps (serverSystem {} sampleTown) free (.init townUsers) createdWithKey s ∧
      record ∈ s.creates.records ∧
      s.creates.requests q = some (call, .answered (.created response)) ∧
      record.replayed sampleTexts = some response := by
  have hrun : (exec (serverSystem {} sampleTown) (.init townUsers) createdWithKey).any (fun s =>
      s.creates.records.any fun record => record.responseBody = rideOut
        { townRide with idempotencyKey := some "k" }) = true := by decide +kernel
  obtain ⟨s, hsteps, hs⟩ := Steps.of_exec_any hrun
  obtain ⟨record, hmem, hbody⟩ := List.any_eq_true.mp hs
  have hfloats : ∀ x ∈ record.responseBody.floats,
      sampleTexts.floatOf (sampleTexts.float x) = x := by
    rw [of_decide_eq_true hbody]
    decide +kernel
  obtain ⟨q, call, response, hanswered, _, _, hread⟩ :=
    replays_read_back sampleTexts hsteps hmem hfloats
  exact ⟨s, record, q, call, response, hsteps, hmem, hanswered, hread⟩

end Replays

section Messages

variable (texts : Texts)

/-- The payload that `apply_transition` adds to the outbox. -/
def StatusChange.dump (payload : StatusChange) : Value :=
  .object [("ride_id", .string (texts.id payload.rideId)),
    ("previous_status", .string payload.previousStatus.value),
    ("new_status", .string payload.newStatus.value),
    ("driver_id", optional (fun id => .string (texts.id id)) payload.driverId),
    ("passenger_id", .string (texts.id payload.passengerId))]

/-- The text of the column `payload`. -/
def OutboxEvent.column (event : OutboxEvent) : List Char := dumps (event.payload.dump texts)

/-- What `process_batch` publishes of a row, whose payload it has loaded. -/
def OutboxEvent.text (event : OutboxEvent) : Option (List Char) := do
  let payload ← loads (event.column texts)
  return dumps (.object [("event_type", .string event.eventType),
    ("aggregate_id", .string (texts.id event.aggregateId)),
    ("payload", payload),
    ("created_at", .string (texts.isoformat event.createdAt))])

/-- What a text says of a change. -/
def StatusChange.read : Value → Option StatusChange
  | .object members => do
      let rideId ← field members "ride_id" (readText texts.idOf)
      let previousStatus ← field members "previous_status" (readText statusOf)
      let newStatus ← field members "new_status" (readText statusOf)
      let driverId ← field members "driver_id" (readOptional (readText texts.idOf))
      let passengerId ← field members "passenger_id" (readText texts.idOf)
      return { rideId, previousStatus, newStatus, driverId, passengerId }
  | _ => none

/-- What a subscriber of a channel can read in a text. -/
def Message.read (channel : String) (text : List Char) : Option Message :=
  match loads text with
  | some (.object members) => do
      let eventType ← field members "event_type" (readText some)
      let aggregateId ← field members "aggregate_id" (readText texts.idOf)
      let payload ← field members "payload" (StatusChange.read texts)
      let createdAt ← field members "created_at" (readText texts.timeOf)
      return { channel, eventType, aggregateId, payload, createdAt }
  | _ => none

/-- A payload that was dumped is read as itself. -/
theorem read_dump (payload : StatusChange) :
    StatusChange.read texts (payload.dump texts) = some payload := by
  have hdriver : readOptional (readText texts.idOf)
      (optional (fun id => .string (texts.id id)) payload.driverId) = some payload.driverId := by
    cases payload.driverId with
    | none => rfl
    | some driver => simp [optional, readOptional, readText, texts.idOf_id]
  simp [StatusChange.dump, StatusChange.read, field, hdriver, readText, texts.idOf_id,
    statusOf_value]

/-- The text of a row is read as its message. -/
theorem read_text (event : OutboxEvent) :
    ∃ text, event.text texts = some text ∧
      Message.read texts event.message.channel text = some event.message := by
  refine ⟨_, by rw [OutboxEvent.text, OutboxEvent.column, loads_dumps]; rfl, ?_⟩
  rw [Message.read, loads_dumps]
  simp [field, readText, texts.idOf_id, texts.timeOf_isoformat, read_dump,
    OutboxEvent.message]

end Messages

section Sockets

variable {cfg : Settings} {fns : ServerFunctions} {users : List User} {acts : List GatewayAction}
  {s : GatewayState} {socket : Socket}

/-- **Texts tell changes.**  Whatever is queued for or forwarded to a socket is the text
that a worker published of a committed change of the ride it follows, and can be read
for exactly that: the change, its driver and passenger, and its time. -/
theorem texts_tell_changes (texts : Texts)
    (h : Steps (gatewaySystem cfg fns) free (.init users) acts s) (hmem : socket ∈ s.sockets)
    {message : Message} (hmessage : message ∈ socket.feed) :
    ∃ e ∈ s.server.rides.committed socket.rideId, ∃ text, e.event.text texts = some text ∧
      Message.read texts (rideChannel socket.rideId) text = some message := by
  obtain ⟨e, he, rfl⟩ := feed_change (run_inOrder h) hmem hmessage
  obtain ⟨text, htext, hread⟩ := read_text texts e.event
  refine ⟨e, he, text, htext, ?_⟩
  have hride : e.event.aggregateId = socket.rideId :=
    e.event_aggregateId.trans (mem_committed.mp he).2
  rw [← hread, OutboxEvent.message, hride]

/-- The passenger who follows the ride reads of a change. -/
theorem follower_reads_a_change : ∃ s socket message e text,
    Steps (gatewaySystem {} sampleTown) free (.init townUsers)
      (followsRide ++ changesPublished) s ∧ socket ∈ s.sockets ∧ message ∈ socket.feed ∧
    e ∈ s.server.rides.committed socket.rideId ∧ e.event.text sampleTexts = some text ∧
    Message.read sampleTexts (rideChannel socket.rideId) text = some message := by
  have hrun : (exec (gatewaySystem {} sampleTown) (.init townUsers)
      (followsRide ++ changesPublished)).any (fun s =>
      s.sockets.any fun socket => socket.feed ≠ []) = true := by decide +kernel
  obtain ⟨s, hsteps, hs⟩ := Steps.of_exec_any hrun
  obtain ⟨socket, hmem, hfeed⟩ := List.any_eq_true.mp hs
  obtain ⟨message, hmessage⟩ := List.exists_mem_of_ne_nil _ (of_decide_eq_true hfeed)
  obtain ⟨e, he, text, htext, hread⟩ := texts_tell_changes sampleTexts hsteps hmem hmessage
  exact ⟨s, socket, message, e, text, hsteps, hmem, hmessage, he, htext, hread⟩

end Sockets

end RideFlow
