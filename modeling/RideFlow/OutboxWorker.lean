import Mathlib.Logic.Function.Basic
import RideFlow.Library.Runs
import RideFlow.Models

/-!
# The outbox workers

`process_batch` of `workers/outbox_worker.py` as the steps of any number of
batches running at once, on a table into which requests commit new rows.

A batch begins with the SELECT: it sorts the unpublished rows of its snapshot
by `created_at`, rows of equal times in any order (`select`), and then visits
them one by one (`scan`).  FOR UPDATE SKIP LOCKED looks at the row as it is by
then: it is skipped when it is locked or was published in the meantime, and
locked otherwise, until `BATCH_SIZE` rows are locked.  Then every event is
published (`publish`), enqueued and marked in the session (`enqueue`); the
COMMIT writes the marks.  A batch can fail at any point, which releases its
locks and drops its marks; what it published stays published.
-/

namespace RideFlow

open Function

abbrev EventId := Nat
abbrev BatchId := Nat

/-- `BATCH_SIZE`. -/
def batchSize : Nat := 50

/-- What the subscribers of a ride's channel receive. -/
structure Message where
  channel : String
  eventType : String
  aggregateId : RideId
  payload : StatusChange
  createdAt : Timestamp
  deriving DecidableEq, Repr

/-- The arguments of `send_ride_notification.delay`. -/
structure Notification where
  aggregateId : RideId
  eventType : String
  payload : StatusChange
  deriving DecidableEq, Repr

/-- The channel of a ride. -/
def rideChannel (aggregateId : RideId) : String :=
  "ride:" ++ toString aggregateId ++ ":events"

/-- What `process_batch` publishes of an event. -/
def OutboxEvent.message (event : OutboxEvent) : Message where
  channel := rideChannel event.aggregateId
  eventType := event.eventType
  aggregateId := event.aggregateId
  payload := event.payload
  createdAt := event.createdAt

/-- What `process_batch` gives to `send_ride_notification`. -/
def OutboxEvent.notification (event : OutboxEvent) : Notification where
  aggregateId := event.aggregateId
  eventType := event.eventType
  payload := event.payload

/-- `event.published = True`, with the time. -/
def OutboxEvent.mark (event : OutboxEvent) (now : Timestamp) : OutboxEvent :=
  { event with published := true, publishedAt := some now }

/-- Where a batch stands.  `snapshot` holds the rows it has not visited yet and
`batch` those it has locked; of its events, `done` were published, enqueued and
marked, and the event of `enqueueing` was only published. -/
inductive BatchStage
  | selecting (snapshot batch : List OutboxEvent)
  | publishing (todo done : List OutboxEvent)
  | enqueueing (event : OutboxEvent) (todo done : List OutboxEvent)
  | finished
  deriving DecidableEq, Repr

/-- The rows that a batch has locked. -/
def BatchStage.rows : BatchStage → List OutboxEvent
  | .selecting _ batch => batch
  | .publishing todo done => done ++ todo
  | .enqueueing event todo done => done ++ event :: todo
  | .finished => []

/-- The locked rows that the batch has published. -/
def BatchStage.sent : BatchStage → List OutboxEvent
  | .publishing _ done => done
  | .enqueueing event _ done => done ++ [event]
  | _ => []

/-- The locked rows that the batch has enqueued. -/
def BatchStage.done : BatchStage → List OutboxEvent
  | .publishing _ done => done
  | .enqueueing _ _ done => done
  | _ => []

/-- The table, its row locks, the batches, and what went out: messages and
notifications, each with the row it was made from.  `failed` remembers the
rows that the failed batches had locked. -/
structure OutboxState where
  table : List OutboxEvent
  locks : EventId → Option BatchId
  batches : BatchId → Option BatchStage
  published : List (EventId × Message)
  enqueued : List (EventId × Notification)
  failed : List (List EventId)

/-- An empty outbox, and no worker. -/
def OutboxState.init : OutboxState where
  table := []
  locks := fun _ => none
  batches := fun _ => none
  published := []
  enqueued := []
  failed := []

/-- The steps of the handlers, who INSERT, and of the batches. -/
inductive OutboxAction
  | insert (rows : List OutboxEvent)
  | select (b : BatchId) (snapshot : List OutboxEvent)
  | scan (b : BatchId)
  | publish (b : BatchId)
  | enqueue (b : BatchId) (now : Timestamp)
  | commit (b : BatchId)
  | fail (b : BatchId)

/-- The row of the table with this id. -/
def OutboxState.row (s : OutboxState) (id : EventId) : Option OutboxEvent :=
  s.table.find? fun row => row.id = id

/-- The UPDATE of a marked event. -/
def writeBack (done : List OutboxEvent) (row : OutboxEvent) : OutboxEvent :=
  match done.find? fun event => event.id = row.id with
  | some event => { row with published := event.published, publishedAt := event.publishedAt }
  | none => row

namespace OutboxState

variable (s : OutboxState)

/-- Put a batch into a stage. -/
def setBatch (b : BatchId) (stage : BatchStage) : OutboxState :=
  { s with batches := update s.batches b (some stage) }

/-- COMMIT of a request: its events become visible. -/
def insert (rows : List OutboxEvent) : OutboxState := { s with table := s.table ++ rows }

/-- Lock a row and add it to the batch. -/
def lock (b : BatchId) (row : OutboxEvent) (snapshot batch : List OutboxEvent) : OutboxState :=
  { s.setBatch b (.selecting snapshot (batch ++ [row])) with
    locks := update s.locks row.id (some b) }

/-- End a batch: its locks are released. -/
def finish (b : BatchId) : OutboxState :=
  { s.setBatch b .finished with
    locks := fun id => if s.locks id = some b then none else s.locks id }

/-- COMMIT of a batch: its marks are stored, and its locks released. -/
def commit (b : BatchId) (done : List OutboxEvent) : OutboxState :=
  { s.finish b with table := s.table.map (writeBack done) }

/-- The end of a batch by an error: nothing is stored, and its locks are released. -/
def fail (b : BatchId) (stage : BatchStage) : OutboxState :=
  { s.finish b with failed := s.failed ++ [stage.rows.map OutboxEvent.id] }

end OutboxState

/-- Rows as a request INSERTs them: new, and not published. -/
def insertable (table rows : List OutboxEvent) : Prop :=
  (rows.map OutboxEvent.id).Nodup ∧ ∀ row ∈ rows, row.published = false ∧
    row.publishedAt = none ∧ row.id ∉ table.map OutboxEvent.id

instance (table rows : List OutboxEvent) : Decidable (insertable table rows) := by
  unfold insertable
  infer_instance

/-- The result of sorting the unpublished rows by `created_at`. -/
def sortsUnpublished (table snapshot : List OutboxEvent) : Prop :=
  snapshot.Perm (table.filter fun row => row.published = false) ∧
    snapshot.Pairwise fun a b => a.createdAt ≤ b.createdAt

instance (table snapshot : List OutboxEvent) : Decidable (sortsUnpublished table snapshot) := by
  unfold sortsUnpublished
  infer_instance

/-- What an action makes of the outbox; `none` where it cannot be taken. -/
def outboxStep (s : OutboxState) : OutboxAction → Option OutboxState
  | .insert rows => if insertable s.table rows then some (s.insert rows) else none
  | .select b snapshot =>
      if s.batches b = none ∧ sortsUnpublished s.table snapshot then
        some (s.setBatch b (.selecting snapshot []))
      else none
  | .scan b =>
      match s.batches b with
      | some (.selecting [] batch) => some (s.setBatch b (.publishing batch []))
      | some (.selecting (event :: rest) batch) =>
          if batch.length < batchSize then
            match s.row event.id with
            | none => some (s.setBatch b (.selecting rest batch))
            | some row =>
                if row.published = false ∧ s.locks row.id = none then
                  some (s.lock b row rest batch)
                else some (s.setBatch b (.selecting rest batch))
          else some (s.setBatch b (.publishing batch []))
      | _ => none
  | .publish b =>
      match s.batches b with
      | some (.publishing (event :: todo) done) =>
          some { s.setBatch b (.enqueueing event todo done) with
            published := s.published ++ [(event.id, event.message)] }
      | _ => none
  | .enqueue b now =>
      match s.batches b with
      | some (.enqueueing event todo done) =>
          some { s.setBatch b (.publishing todo (done ++ [event.mark now])) with
            enqueued := s.enqueued ++ [(event.id, event.notification)] }
      | _ => none
  | .commit b =>
      match s.batches b with
      | some (.publishing [] done) => some (s.commit b done)
      | _ => none
  | .fail b =>
      match s.batches b with
      | some .finished => none
      | some stage => some (s.fail b stage)
      | none => none

/-- The system of concurrent outbox workers. -/
def outboxSystem : Runs.System OutboxState OutboxAction := ⟨outboxStep⟩

/-! ### What each step did -/

section Inversion

variable {s t : OutboxState} {b : BatchId}

/-- An INSERT appends rows with new ids. -/
theorem outbox_insert {rows : List OutboxEvent} (h : outboxStep s (.insert rows) = some t) :
    insertable s.table rows ∧ t = s.insert rows := by
  dsimp only [outboxStep] at h
  split at h
  case isTrue hnew => exact ⟨hnew, (Option.some.inj h).symm⟩
  case isFalse => cases h

/-- A SELECT starts a batch with the unpublished rows of its snapshot. -/
theorem outbox_select {snapshot : List OutboxEvent}
    (h : outboxStep s (.select b snapshot) = some t) :
    s.batches b = none ∧ sortsUnpublished s.table snapshot ∧
      t = s.setBatch b (.selecting snapshot []) := by
  dsimp only [outboxStep] at h
  split at h
  case isTrue hguard => exact ⟨hguard.1, hguard.2, (Option.some.inj h).symm⟩
  case isFalse => cases h

/-- A scan ends the selection, or visits the next row while there is room: it
skips a row that is gone, published or locked, and locks any other. -/
theorem outbox_scan (h : outboxStep s (.scan b) = some t) :
    ∃ snapshot batch, s.batches b = some (.selecting snapshot batch) ∧
      (t = s.setBatch b (.publishing batch []) ∨
      ∃ event rest, snapshot = event :: rest ∧ batch.length < batchSize ∧
        ((∀ row, s.row event.id = some row → row.published = true ∨ s.locks row.id ≠ none) ∧
          t = s.setBatch b (.selecting rest batch) ∨
        ∃ row, s.row event.id = some row ∧ row.published = false ∧ s.locks row.id = none ∧
          t = s.lock b row rest batch)) := by
  dsimp only [outboxStep] at h
  split at h
  case h_1 batch hb => exact ⟨[], batch, hb, Or.inl (Option.some.inj h).symm⟩
  case h_2 event rest batch hb =>
      refine ⟨event :: rest, batch, hb, ?_⟩
      split at h
      case isFalse => exact Or.inl (Option.some.inj h).symm
      case isTrue hroom =>
          refine Or.inr ⟨event, rest, rfl, hroom, ?_⟩
          split at h
          case h_1 hnone =>
              refine Or.inl ⟨fun row hrow => ?_, (Option.some.inj h).symm⟩
              rw [hnone] at hrow
              cases hrow
          case h_2 row hrow =>
              split at h
              case isTrue hfree =>
                  exact Or.inr ⟨row, hrow, hfree.1, hfree.2, (Option.some.inj h).symm⟩
              case isFalse hheld =>
                  refine Or.inl ⟨fun row' hrow' => ?_, (Option.some.inj h).symm⟩
                  obtain rfl : row = row' := Option.some.inj (hrow.symm.trans hrow')
                  by_cases hpublished : row.published = true
                  · exact Or.inl hpublished
                  · exact Or.inr fun hfree =>
                      hheld ⟨Bool.eq_false_iff.mpr hpublished, hfree⟩
  case h_3 => cases h

/-- A batch publishes its next event. -/
theorem outbox_publish (h : outboxStep s (.publish b) = some t) :
    ∃ event todo done, s.batches b = some (.publishing (event :: todo) done) ∧
      t = { s.setBatch b (.enqueueing event todo done) with
        published := s.published ++ [(event.id, event.message)] } := by
  dsimp only [outboxStep] at h
  split at h
  case h_1 event todo done hb => exact ⟨event, todo, done, hb, (Option.some.inj h).symm⟩
  case h_2 => cases h

/-- A batch enqueues the notification of the event, and marks it. -/
theorem outbox_enqueue {now : Timestamp} (h : outboxStep s (.enqueue b now) = some t) :
    ∃ event todo done, s.batches b = some (.enqueueing event todo done) ∧
      t = { s.setBatch b (.publishing todo (done ++ [event.mark now])) with
        enqueued := s.enqueued ++ [(event.id, event.notification)] } := by
  dsimp only [outboxStep] at h
  split at h
  case h_1 event todo done hb => exact ⟨event, todo, done, hb, (Option.some.inj h).symm⟩
  case h_2 => cases h

/-- A batch is committed when all its events are done. -/
theorem outbox_commit (h : outboxStep s (.commit b) = some t) :
    ∃ done, s.batches b = some (.publishing [] done) ∧ t = s.commit b done := by
  dsimp only [outboxStep] at h
  split at h
  case h_1 done hb => exact ⟨done, hb, (Option.some.inj h).symm⟩
  case h_2 => cases h

/-- A batch can fail at any step before its end. -/
theorem outbox_fail (h : outboxStep s (.fail b) = some t) :
    ∃ stage, s.batches b = some stage ∧ stage ≠ .finished ∧ t = s.fail b stage := by
  dsimp only [outboxStep] at h
  split at h
  case h_1 => cases h
  case h_2 stage hne hb =>
      exact ⟨stage, hb, hne, (Option.some.inj h).symm⟩
  case h_3 => cases h

end Inversion

end RideFlow
