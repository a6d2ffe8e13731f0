import RideFlow.Library.Batches
import RideFlow.OutboxBooks

/-!
# One worker drains the outbox

`process_batch` of `workers/outbox_worker.py` as a single worker runs it, when
nothing fails and no request commits: the SELECT, the loop over its events, and
the COMMIT of `session_scope`, for any batch size.

A call takes the least `size` unpublished rows and leaves the others in their
order (`processBatch_backlog`), so that polling empties the backlog in batches
(`outbox_drains`).  At the size of the source polling is a run of the concurrent
workers in which one batch runs after the other (`poll_is_run`).
-/

namespace RideFlow

open Batches Rankings Runs

/-- The table with its primary key, and what went out. -/
@[ext] structure Outbox where
  table : List OutboxEvent
  keys : (table.map OutboxEvent.id).Nodup
  published : List Message
  enqueued : List Notification

/-- The rows that `WHERE published IS FALSE` selects. -/
def unpublished (table : List OutboxEvent) : List OutboxEvent :=
  table.filter fun row => row.published = false

/-- `ORDER BY created_at`; rows of equal times stay as they are in the table. -/
def Outbox.backlog (s : Outbox) : List OutboxEvent :=
  (unpublished s.table).insertionSort fun a b => a.createdAt ≤ b.createdAt

/-- What a call has sent, and what it has marked in its session. -/
structure Outgoing where
  published : List Message
  enqueued : List Notification
  marked : List OutboxEvent

/-- One turn of the loop; `clock` is the time at which an event is marked. -/
def handleEvent (clock : EventId → Timestamp) (out : Outgoing) (event : OutboxEvent) :
    Outgoing where
  published := out.published ++ [event.message]
  enqueued := out.enqueued ++ [event.notification]
  marked := out.marked ++ [event.mark (clock event.id)]

theorem ids_writeBack (marked table : List OutboxEvent) :
    (table.map (writeBack marked)).map OutboxEvent.id = table.map OutboxEvent.id := by
  rw [List.map_map]
  exact List.map_congr_left fun _ _ => id_of_content content_writeBack

/-- `process_batch`: how many events it handled, and the outbox after it. -/
def processBatch (size : Nat) (clock : EventId → Timestamp) (s : Outbox) : Nat × Outbox :=
  let events := s.backlog.take size
  let out := events.foldl (handleEvent clock) ⟨s.published, s.enqueued, []⟩
  (events.length,
    { table := s.table.map (writeBack out.marked)
      keys := by
        rw [ids_writeBack]
        exact s.keys
      published := out.published
      enqueued := out.enqueued })

/-- One call after the other, each with its clock: what they return, and the
outbox at the end. -/
def poll (size : Nat) : List (EventId → Timestamp) → Outbox → List Nat × Outbox
  | [], s => ([], s)
  | clock :: clocks, s =>
      let (processed, t) := processBatch size clock s
      let (more, u) := poll size clocks t
      (processed :: more, u)

section Call

variable {size : Nat} {clock : EventId → Timestamp} {s : Outbox}

theorem foldl_handleEvent (events : List OutboxEvent) (out : Outgoing) :
    events.foldl (handleEvent clock) out =
      ⟨out.published ++ events.map OutboxEvent.message,
        out.enqueued ++ events.map OutboxEvent.notification,
        out.marked ++ events.map fun event => event.mark (clock event.id)⟩ := by
  induction events generalizing out with
  | nil => simp
  | cons event events ih => simp [ih, handleEvent]

@[simp] theorem processBatch_fst :
    (processBatch size clock s).1 = (s.backlog.take size).length := rfl

@[simp] theorem processBatch_published : (processBatch size clock s).2.published =
    s.published ++ (s.backlog.take size).map OutboxEvent.message := by
  simp [processBatch, foldl_handleEvent]

@[simp] theorem processBatch_enqueued : (processBatch size clock s).2.enqueued =
    s.enqueued ++ (s.backlog.take size).map OutboxEvent.notification := by
  simp [processBatch, foldl_handleEvent]

theorem processBatch_table : (processBatch size clock s).2.table = s.table.map
    (writeBack ((s.backlog.take size).map fun event => event.mark (clock event.id))) := by
  simp [processBatch, foldl_handleEvent]

theorem backlog_ranks (s : Outbox) :
    IsRanking OutboxEvent.createdAt (unpublished s.table) s.backlog :=
  isRanking_insertionSort _ _

theorem mem_backlog {row : OutboxEvent} :
    row ∈ s.backlog ↔ row ∈ s.table ∧ row.published = false := by
  rw [(backlog_ranks s).perm.mem_iff, unpublished, List.mem_filter, decide_eq_true_eq]

/-- The rows of the backlog are told apart by their ids. -/
theorem backlog_ids : (s.backlog.map OutboxEvent.id).Nodup := by
  have hperm := (backlog_ranks s).perm.map OutboxEvent.id
  have hsublist : (unpublished s.table).Sublist s.table := List.filter_sublist
  exact hperm.nodup_iff.mpr (s.keys.sublist (hsublist.map _))

/-- The COMMIT publishes the rows that the call has marked. -/
theorem writeBack_marked (events : List OutboxEvent) (row : OutboxEvent) :
    (writeBack (events.map fun event => event.mark (clock event.id)) row).published =
      (row.published || decide (row.id ∈ events.map OutboxEvent.id)) := by
  induction events with
  | nil => simp [writeBack]
  | cons event events ih =>
      by_cases hid : event.id = row.id
      · simp [writeBack, OutboxEvent.mark, hid]
      · have hskip : writeBack ((event :: events).map fun event => event.mark (clock event.id))
            row = writeBack (events.map fun event => event.mark (clock event.id)) row := by
          simp [writeBack, OutboxEvent.mark, hid]
        rw [hskip, ih]
        simp [Ne.symm hid]

/-- A row that the call did not select is not touched. -/
theorem writeBack_unselected {events : List OutboxEvent} {row : OutboxEvent}
    (h : row.id ∉ events.map OutboxEvent.id) :
    writeBack (events.map fun event => event.mark (clock event.id)) row = row := by
  refine writeBack_of_notMem ?_
  rw [List.map_map]
  exact h

/-- **A call takes its events out of the unpublished rows.** -/
theorem processBatch_unpublished : unpublished (processBatch size clock s).2.table =
    (unpublished s.table).filter fun row =>
      row.id ∉ (s.backlog.take size).map OutboxEvent.id := by
  let selected := s.backlog.take size
  have hkept : (s.table.filter fun row =>
        row.published = false ∧ row.id ∉ selected.map OutboxEvent.id) =
      (unpublished s.table).filter fun row => row.id ∉ selected.map OutboxEvent.id := by
    rw [unpublished, List.filter_filter]
    refine List.filter_congr fun row _ => ?_
    simp only [Bool.decide_and, Bool.and_comm]
  have hfilter : ∀ row ∈ s.table,
      ((fun row : OutboxEvent => decide (row.published = false)) ∘
        writeBack (selected.map fun event => event.mark (clock event.id))) row =
      decide (row.published = false ∧ row.id ∉ selected.map OutboxEvent.id) := by
    intro row _
    rw [Function.comp_apply, writeBack_marked]
    simp only [Bool.or_eq_false_iff, decide_eq_false_iff_not]
  have hsame : ∀ row ∈ s.table.filter fun row =>
        row.published = false ∧ row.id ∉ selected.map OutboxEvent.id,
      writeBack (selected.map fun event => event.mark (clock event.id)) row = row := by
    intro row hrow
    exact writeBack_unselected (of_decide_eq_true (List.mem_filter.mp hrow).2).2
  rw [processBatch_table, unpublished, List.filter_map, List.filter_congr hfilter,
    List.map_congr_left hsame, List.map_id']
  exact hkept

/-- What a call leaves it did not select. -/
theorem take_ids (n : Nat) {row : OutboxEvent} (h : row ∈ s.backlog.drop n) :
    row.id ∉ (s.backlog.take n).map OutboxEvent.id := by
  have hids : (s.backlog.map OutboxEvent.id).Nodup := backlog_ids
  rw [← List.take_append_drop n s.backlog, List.map_append] at hids
  exact fun htaken => List.disjoint_of_nodup_append hids htaken (List.mem_map_of_mem h)

/-- No two unpublished rows were created at the same time. -/
def Outbox.DistinctTimes (s : Outbox) : Prop :=
  ((unpublished s.table).map OutboxEvent.createdAt).Nodup

instance (s : Outbox) : Decidable s.DistinctTimes :=
  inferInstanceAs (Decidable (List.Nodup ((unpublished s.table).map OutboxEvent.createdAt)))

theorem processBatch_distinctTimes (h : s.DistinctTimes) :
    (processBatch size clock s).2.DistinctTimes := by
  rw [Outbox.DistinctTimes, processBatch_unpublished]
  exact h.sublist (List.filter_sublist.map _)

/-- **A call leaves the rest of the backlog** in its order. -/
theorem processBatch_backlog (h : s.DistinctTimes) :
    (processBatch size clock s).2.backlog = s.backlog.drop size := by
  have hrest : IsRanking OutboxEvent.createdAt
      (unpublished (processBatch size clock s).2.table) (s.backlog.drop size) := by
    rw [processBatch_unpublished]
    refine (backlog_ranks s).rest size (fun row hrow => ?_) fun row hrow => ?_
    · exact decide_eq_false (not_not_intro (List.mem_map_of_mem hrow))
    · exact decide_eq_true (take_ids size hrow)
  exact (backlog_ranks _).unique hrest (processBatch_distinctTimes h)

/-- **Published rows are not touched.** -/
theorem processBatch_untouched {i : Nat} {row : OutboxEvent} (hrow : s.table[i]? = some row)
    (hpublished : row.published = true) :
    (processBatch size clock s).2.table[i]? = some row := by
  have hmem : row ∈ s.table := List.mem_of_getElem? hrow
  have hout : row.id ∉ (s.backlog.take size).map OutboxEvent.id := by
    intro hselected
    obtain ⟨event, hevent, hid⟩ := List.mem_map.mp hselected
    obtain ⟨htable, hwaiting⟩ := mem_backlog.mp (List.mem_of_mem_take hevent)
    obtain rfl : event = row := List.inj_on_of_nodup_map s.keys htable hmem hid
    cases hwaiting.symm.trans hpublished
  rw [processBatch_table, List.getElem?_map, hrow, Option.map_some, writeBack_unselected hout]

/-- A call on an empty backlog does nothing. -/
theorem processBatch_empty (h : s.backlog = []) : processBatch size clock s = (0, s) := by
  have htable : s.table.map (writeBack []) = s.table := List.map_id _
  simp only [processBatch, h, List.take_nil, List.foldl_nil, List.length_nil, htable]

end Call

section Poll

variable {size : Nat} {clocks : List (EventId → Timestamp)} {s : Outbox}

theorem poll_cons (clock : EventId → Timestamp) :
    poll size (clock :: clocks) s =
      ((processBatch size clock s).1 :: (poll size clocks (processBatch size clock s).2).1,
        (poll size clocks (processBatch size clock s).2).2) := rfl

/-- **Polling empties the backlog in batches.** -/
theorem poll_batches (h : s.DistinctTimes) :
    (poll size clocks s).1 = (batches size clocks.length s.backlog).map List.length ∧
    (poll size clocks s).2.published =
      s.published ++ (batches size clocks.length s.backlog).flatten.map OutboxEvent.message ∧
    (poll size clocks s).2.enqueued =
      s.enqueued ++ (batches size clocks.length s.backlog).flatten.map OutboxEvent.notification ∧
    (poll size clocks s).2.backlog = s.backlog.drop (clocks.length * size) := by
  induction clocks generalizing s with
  | nil => simp [poll, batches]
  | cons clock clocks ih =>
      have htimes : (processBatch size clock s).2.DistinctTimes := processBatch_distinctTimes h
      obtain ⟨hreturned, hpublished, henqueued, hbacklog⟩ := ih htimes
      rw [processBatch_backlog h] at hreturned hpublished henqueued hbacklog
      rw [poll_cons, List.length_cons, batches]
      refine ⟨?_, ?_, ?_, ?_⟩
      · rw [hreturned, processBatch_fst, List.map_cons]
      · rw [hpublished, processBatch_published, List.flatten_cons, List.map_append,
          List.append_assoc]
      · rw [henqueued, processBatch_enqueued, List.flatten_cons, List.map_append,
          List.append_assoc]
      · rw [hbacklog, List.drop_drop, Nat.succ_mul, Nat.add_comm]

theorem poll_untouched {i : Nat} {row : OutboxEvent} (hrow : s.table[i]? = some row)
    (hpublished : row.published = true) : (poll size clocks s).2.table[i]? = some row := by
  induction clocks generalizing s with
  | nil => exact hrow
  | cons clock clocks ih => exact ih (processBatch_untouched hrow hpublished)

theorem poll_append (earlier later : List (EventId → Timestamp)) :
    (poll size (earlier ++ later) s).2 = (poll size later (poll size earlier s).2).2 := by
  induction earlier generalizing s with
  | nil => rfl
  | cons clock earlier ih => exact ih

/-- No call changes what a row says. -/
theorem poll_contents : (poll size clocks s).2.table.map OutboxEvent.content =
    s.table.map OutboxEvent.content := by
  induction clocks generalizing s with
  | nil => rfl
  | cons clock clocks ih =>
      rw [poll_cons, ih, processBatch_table, List.map_map]
      exact List.map_congr_left fun _ _ => content_writeBack

/-- What the worker is for: what the calls return and send, what they leave, and
that enough of them leave nothing. -/
structure Drains (size : Nat) (clocks : List (EventId → Timestamp)) (s : Outbox)
    (backlog : List OutboxEvent) : Prop where
  returned : (poll size clocks s).1 =
    (List.range clocks.length).map fun k => min size (backlog.length - k * size)
  published : (poll size clocks s).2.published =
    s.published ++ (backlog.take (clocks.length * size)).map OutboxEvent.message
  enqueued : (poll size clocks s).2.enqueued =
    s.enqueued ++ (backlog.take (clocks.length * size)).map OutboxEvent.notification
  left : sortsUnpublished (poll size clocks s).2.table (backlog.drop (clocks.length * size))
  contents : (poll size clocks s).2.table.map OutboxEvent.content =
    s.table.map OutboxEvent.content
  /-- Rows that were published before some call stay as they were then. -/
  untouched : ∀ earlier later, clocks = earlier ++ later → ∀ (i : Nat) (row : OutboxEvent),
    (poll size earlier s).2.table[i]? = some row → row.published = true →
      (poll size clocks s).2.table[i]? = some row
  /-- After enough calls every event is published and was sent once, and a
  further call does nothing. -/
  drained : backlog.length ⌈/⌉ size ≤ clocks.length →
    (∀ row ∈ (poll size clocks s).2.table, row.published = true) ∧
    (poll size clocks s).2.published = s.published ++ backlog.map OutboxEvent.message ∧
    ∀ clock, processBatch size clock (poll size clocks s).2 = (0, (poll size clocks s).2)

/-- **The outbox drains completely and in order**, with batches of any size,
whatever the clocks show. -/
theorem outbox_drains (hsize : 0 < size) (htimes : s.DistinctTimes)
    {backlog : List OutboxEvent} (hbacklog : sortsUnpublished s.table backlog)
    (clocks : List (EventId → Timestamp)) : Drains size clocks s backlog := by
  have hranks : IsRanking OutboxEvent.createdAt (unpublished s.table) backlog :=
    ⟨hbacklog.1, hbacklog.2⟩
  obtain rfl : backlog = s.backlog := hranks.unique (backlog_ranks s) htimes
  obtain ⟨hreturned, hpublished, henqueued, hleft⟩ :=
    @poll_batches size clocks s htimes
  have hempty : s.backlog.length ⌈/⌉ size ≤ clocks.length →
      (poll size clocks s).2.backlog = [] := by
    intro hcalls
    rw [hleft]
    exact List.drop_of_length_le (length_le_mul hsize hcalls)
  constructor
  case returned => rw [hreturned, length_batches]
  case published => rw [hpublished, flatten_batches]
  case enqueued => rw [henqueued, flatten_batches]
  case left =>
      rw [← hleft]
      exact ⟨(backlog_ranks _).perm, (backlog_ranks _).sorted⟩
  case contents => exact poll_contents
  case untouched =>
      rintro earlier later rfl i row hrow hpub
      rw [poll_append]
      exact poll_untouched hrow hpub
  case drained =>
      intro hcalls
      refine ⟨fun row hrow => ?_, ?_, fun clock => processBatch_empty (hempty hcalls)⟩
      · by_contra hwaiting
        have hmem : row ∈ (poll size clocks s).2.backlog :=
          mem_backlog.mpr ⟨hrow, Bool.eq_false_iff.mpr hwaiting⟩
        rw [hempty hcalls] at hmem
        cases hmem
      · rw [hpublished, flatten_batches_eq hsize hcalls]

end Poll

/-- A row as a transition to MATCHING INSERTs it, and when it was published. -/
def searchStarted (id : EventId) (createdAt : Timestamp) (publishedAt : Option Timestamp) :
    OutboxEvent :=
  ⟨id, "ride", 0, "ride.status_changed", ⟨0, .requested, .matching, none, 1⟩,
    publishedAt.isSome, createdAt, publishedAt⟩

/-- Four waiting rows around a published one. -/
def waitingOutbox : Outbox where
  table := [searchStarted 0 40 none, searchStarted 1 10 none, searchStarted 2 20 (some 25),
    searchStarted 3 30 none, searchStarted 4 15 none]
  keys := by decide
  published := []
  enqueued := []

theorem waitingOutbox_drains :
    Drains 3 [fun _ => 50, fun _ => 51] waitingOutbox
      [searchStarted 1 10 none, searchStarted 4 15 none, searchStarted 3 30 none,
        searchStarted 0 40 none] :=
  outbox_drains (by decide) (by decide) (by decide) _

/-! ### The concurrent workers, one batch at a time -/

/-- A step of this batch that does not fail. -/
def OutboxAction.WorksOn (b : BatchId) : OutboxAction → Prop
  | .select b' _ | .scan b' | .publish b' | .enqueue b' _ | .commit b' => b' = b
  | .insert _ | .fail _ => False

/-- Admit the steps of one batch. -/
def alone (b : BatchId) (_ : OutboxState) (a : OutboxAction) : Prop := a.WorksOn b

/-- What the steps of a batch before its COMMIT leave alone. -/
structure Beside (b : BatchId) (u v : OutboxState) : Prop where
  table : v.table = u.table
  batches : ∀ b', b' ≠ b → v.batches b' = u.batches b'
  locks : ∀ id, v.locks id = u.locks id ∨ v.locks id = some b

theorem Beside.trans {b : BatchId} {u v w : OutboxState} (h : Beside b u v)
    (h' : Beside b v w) : Beside b u w where
  table := h'.table.trans h.table
  batches := fun b' hb' => (h'.batches b' hb').trans (h.batches b' hb')
  locks := fun id => by
    rcases h'.locks id with hsame | hours
    · rw [hsame]
      exact h.locks id
    · exact Or.inr hours

section Alone

variable {b : BatchId} {u : OutboxState} {clock : EventId → Timestamp}

theorem steps_alone {v : OutboxState} {a : OutboxAction} (hours : a.WorksOn b)
    (h : outboxStep u a = some v) : Steps outboxSystem (alone b) u [a] v :=
  .single hours h

/-- A new stage of a batch touches nothing else. -/
theorem beside_setBatch (stage : BatchStage) : Beside b u (u.setBatch b stage) where
  table := rfl
  batches := fun _ hb' => Function.update_of_ne hb' _ _
  locks := fun _ => Or.inl rfl

theorem setBatch_self (stage : BatchStage) : (u.setBatch b stage).batches b = some stage :=
  Function.update_self _ _ _

/-- A row that a scan of this batch can lock. -/
def OutboxState.Lockable (u : OutboxState) (row : OutboxEvent) : Prop :=
  u.row row.id = some row ∧ row.published = false ∧ u.locks row.id = none

/-- **The scans lock the first rows** of a snapshot of which nothing is locked. -/
theorem scan_run {rest batch : List OutboxEvent} (hb : u.batches b = some (.selecting rest batch))
    (hfree : ∀ row ∈ rest, u.Lockable row) (hids : (rest.map OutboxEvent.id).Nodup) :
    ∃ acts v, Steps outboxSystem (alone b) u acts v ∧ Beside b u v ∧
      v.published = u.published ∧ v.enqueued = u.enqueued ∧
      v.batches b =
        some (.publishing (batch ++ rest.take (batchSize - batch.length)) []) := by
  induction rest generalizing u batch with
  | nil =>
      have hstep : outboxStep u (.scan b) = some (u.setBatch b (.publishing batch [])) := by
        simp only [outboxStep, hb]
      refine ⟨[.scan b], _, steps_alone rfl hstep, beside_setBatch _, rfl, rfl, ?_⟩
      rw [setBatch_self, List.take_nil, List.append_nil]
  | cons event rest ih =>
      obtain ⟨hrow, hwaiting, hunlocked⟩ := hfree event List.mem_cons_self
      rw [List.map_cons, List.nodup_cons] at hids
      by_cases hroom : batch.length < batchSize
      · have hstep : outboxStep u (.scan b) = some (u.lock b event rest batch) := by
          simp only [outboxStep, hb, hroom, if_true, hrow, hwaiting, hunlocked, and_self]
        have hlocked : (u.lock b event rest batch).batches b =
            some (.selecting rest (batch ++ [event])) := Function.update_self _ _ _
        have hbeside : Beside b u (u.lock b event rest batch) :=
          ⟨rfl, fun _ hb' => Function.update_of_ne hb' _ _, fun id => by
            by_cases hid : id = event.id
            · exact Or.inr (by simp [OutboxState.lock, hid])
            · exact Or.inl (Function.update_of_ne hid _ _)⟩
        have hstill : ∀ row ∈ rest, (u.lock b event rest batch).Lockable row := by
          intro row hmem
          obtain ⟨hrow', hwaiting', hunlocked'⟩ := hfree row (List.mem_cons_of_mem _ hmem)
          have hne : row.id ≠ event.id := fun hid =>
            hids.1 (hid ▸ List.mem_map_of_mem hmem)
          exact ⟨hrow', hwaiting', (Function.update_of_ne hne _ _).trans hunlocked'⟩
        obtain ⟨acts, v, hrun, hbeside', hpublished, henqueued, hlast⟩ :=
          ih hlocked hstill hids.2
        have hfirst : Steps outboxSystem (alone b) u [.scan b] (u.lock b event rest batch) :=
          steps_alone rfl hstep
        refine ⟨_, v, hfirst.trans hrun, hbeside.trans hbeside', hpublished,
          henqueued, ?_⟩
        obtain ⟨room, hsize⟩ : ∃ room, batchSize - batch.length = room + 1 :=
          ⟨batchSize - batch.length - 1, by omega⟩
        have hleft : batchSize - (batch ++ [event]).length = room := by
          rw [List.length_append, List.length_singleton]
          omega
        rw [hlast, hleft, hsize, List.take_succ_cons, List.append_assoc, List.singleton_append]
      · have hstep : outboxStep u (.scan b) = some (u.setBatch b (.publishing batch [])) := by
          simp only [outboxStep, hb, hroom, if_false]
        refine ⟨[.scan b], _, steps_alone rfl hstep, beside_setBatch _, rfl, rfl, ?_⟩
        rw [setBatch_self, Nat.sub_eq_zero_of_le (Nat.le_of_not_lt hroom), List.take_zero,
          List.append_nil]

/-- **The loop** publishes, enqueues and marks the events in their order. -/
theorem send_run {todo done : List OutboxEvent} (hb : u.batches b = some (.publishing todo done)) :
    ∃ acts v, Steps outboxSystem (alone b) u acts v ∧ Beside b u v ∧
      v.published = u.published ++ todo.map (fun event => (event.id, event.message)) ∧
      v.enqueued = u.enqueued ++ todo.map (fun event => (event.id, event.notification)) ∧
      v.batches b = some (.publishing []
        (done ++ todo.map fun event => event.mark (clock event.id))) := by
  induction todo generalizing u done with
  | nil => exact ⟨[], u, .nil u, ⟨rfl, fun _ _ => rfl, fun _ => Or.inl rfl⟩, by simp, by simp,
      by simp [hb]⟩
  | cons event todo ih =>
      let sending : OutboxState := { u.setBatch b (.enqueueing event todo done) with
        published := u.published ++ [(event.id, event.message)] }
      let sent : OutboxState :=
        { sending.setBatch b (.publishing todo (done ++ [event.mark (clock event.id)])) with
          enqueued := u.enqueued ++ [(event.id, event.notification)] }
      have hpublish : outboxStep u (.publish b) = some sending := by
        simp only [outboxStep, hb, sending]
      have hsending : sending.batches b = some (.enqueueing event todo done) :=
        Function.update_self _ _ _
      have henqueue : outboxStep sending (.enqueue b (clock event.id)) = some sent := by
        simp only [outboxStep, hsending]
        rfl
      have hsent : sent.batches b =
          some (.publishing todo (done ++ [event.mark (clock event.id)])) :=
        Function.update_self _ _ _
      have hbeside : Beside b u sent :=
        ⟨rfl, fun b' hb' => by
          change Function.update (Function.update u.batches b _) b _ b' = _
          rw [Function.update_of_ne hb', Function.update_of_ne hb'], fun _ => Or.inl rfl⟩
      obtain ⟨acts, v, hrun, hbeside', hpublished, henqueued, hlast⟩ := ih hsent
      have hfirst : Steps outboxSystem (alone b) u [.publish b] sending :=
        steps_alone rfl hpublish
      have hsecond : Steps outboxSystem (alone b) sending [.enqueue b (clock event.id)] sent :=
        steps_alone rfl henqueue
      refine ⟨_, v, (hfirst.trans hsecond).trans hrun, hbeside.trans hbeside', ?_, ?_, ?_⟩
      · have hout : sent.published = u.published ++ [(event.id, event.message)] := rfl
        rw [hpublished, hout, List.map_cons, List.append_assoc, List.singleton_append]
      · have hout : sent.enqueued = u.enqueued ++ [(event.id, event.notification)] := rfl
        rw [henqueued, hout, List.map_cons, List.append_assoc, List.singleton_append]
      · rw [hlast, List.map_cons, List.append_assoc, List.singleton_append]

/-- What a single worker sees of the concurrent workers' state. -/
def OutboxState.outbox (u : OutboxState) (keys : (u.table.map OutboxEvent.id).Nodup) : Outbox where
  table := u.table
  keys := keys
  published := u.published.map Prod.snd
  enqueued := u.enqueued.map Prod.snd

/-- A lookup by its id finds a row. -/
theorem row_of_mem (keys : (u.table.map OutboxEvent.id).Nodup) {row : OutboxEvent}
    (h : row ∈ u.table) : u.row row.id = some row := by
  cases hfind : u.row row.id with
  | none =>
      have hnone := List.find?_eq_none.mp hfind row h
      simp at hnone
  | some other =>
      obtain ⟨hmem, hid⟩ := row_mem hfind
      rw [List.inj_on_of_nodup_map keys hmem h hid]

/-- A batch alone up to its COMMIT: it has sent the front of the backlog. -/
theorem batch_run (keys : (u.table.map OutboxEvent.id).Nodup) (hb : u.batches b = none)
    (hlocks : ∀ id, u.locks id = none) :
    ∃ acts v, Steps outboxSystem (alone b) u acts v ∧ Beside b u v ∧
      v.published = u.published ++
        ((u.outbox keys).backlog.take batchSize).map (fun event => (event.id, event.message)) ∧
      v.enqueued = u.enqueued ++
        ((u.outbox keys).backlog.take batchSize).map
          (fun event => (event.id, event.notification)) ∧
      v.batches b = some (.publishing []
        (((u.outbox keys).backlog.take batchSize).map
          fun event => event.mark (clock event.id))) := by
  let snapshot := (u.outbox keys).backlog
  have hranks := backlog_ranks (u.outbox keys)
  have hselect : outboxStep u (.select b snapshot) =
      some (u.setBatch b (.selecting snapshot [])) := by
    have hsorts : sortsUnpublished u.table snapshot := ⟨hranks.perm, hranks.sorted⟩
    simp only [outboxStep, hb, hsorts, and_self, if_true]
  have hfree : ∀ row ∈ snapshot, (u.setBatch b (.selecting snapshot [])).Lockable row := by
    intro row hrow
    obtain ⟨htable, hwaiting⟩ := mem_backlog.mp hrow
    exact ⟨row_of_mem keys htable, hwaiting, hlocks row.id⟩
  obtain ⟨scans, scanned, hscans, hbeside, hpublished, henqueued, hlocked⟩ :=
    scan_run (setBatch_self _) hfree backlog_ids
  obtain ⟨sends, sent, hsends, hbeside', hpublished', henqueued', hsent⟩ :=
    @send_run b scanned clock _ _ hlocked
  have hfirst : Steps outboxSystem (alone b) u [.select b snapshot] _ := steps_alone rfl hselect
  have hall := ((beside_setBatch (.selecting snapshot [])).trans hbeside).trans hbeside'
  exact ⟨_, sent, (hfirst.trans hscans).trans hsends, hall,
    hpublished'.trans (congrArg (· ++ _) hpublished),
    henqueued'.trans (congrArg (· ++ _) henqueued), hsent⟩

/-- **A call is a run of the concurrent workers** in which one batch runs alone,
at the batch size of the source. -/
theorem processBatch_is_run (keys : (u.table.map OutboxEvent.id).Nodup)
    (hb : u.batches b = none) (hlocks : ∀ id, u.locks id = none) :
    ∃ acts v, ∃ keys' : (v.table.map OutboxEvent.id).Nodup,
      Steps outboxSystem (alone b) u acts v ∧
      v.outbox keys' = (processBatch batchSize clock (u.outbox keys)).2 ∧
      (∀ b', b' ≠ b → v.batches b' = u.batches b') ∧ ∀ id, v.locks id = none := by
  obtain ⟨acts, sent, hrun, hbeside, hpublished, henqueued, hsent⟩ :=
    @batch_run b u clock keys hb hlocks
  let marked := ((u.outbox keys).backlog.take batchSize).map fun event =>
    event.mark (clock event.id)
  have hcommit : outboxStep sent (.commit b) = some (sent.commit b marked) := by
    simp only [outboxStep, hsent, marked]
  have hlast : Steps outboxSystem (alone b) sent [.commit b] _ := steps_alone rfl hcommit
  have htable : (sent.commit b marked).table = u.table.map (writeBack marked) := by
    rw [OutboxState.commit, hbeside.table]
  refine ⟨_, _, ?_, hrun.trans hlast, ?_, ?_, ?_⟩
  · rw [htable, ids_writeBack]
    exact keys
  · ext1
    · rw [processBatch_table]
      exact htable
    · rw [processBatch_published]
      change sent.published.map Prod.snd = _
      rw [hpublished, List.map_append, List.map_map]
      rfl
    · rw [processBatch_enqueued]
      change sent.enqueued.map Prod.snd = _
      rw [henqueued, List.map_append, List.map_map]
      rfl
  · intro b' hb'
    exact (Function.update_of_ne hb' _ _).trans (hbeside.batches b' hb')
  · intro id
    change (if sent.locks id = some b then none else sent.locks id) = none
    rcases hbeside.locks id with hsame | hours
    · rw [hsame, hlocks]
      rfl
    · rw [if_pos hours]

/-- Admit the steps of batches, no failures and no new rows. -/
def batchesOnly (_ : OutboxState) (a : OutboxAction) : Prop := ∃ b, a.WorksOn b

/-- **Polling is a run of the concurrent workers** in which one batch runs after
the other. -/
theorem poll_is_run (clocks : List (EventId → Timestamp))
    (keys : (u.table.map OutboxEvent.id).Nodup) (hfresh : ∀ k, u.batches (b + k) = none)
    (hlocks : ∀ id, u.locks id = none) :
    ∃ acts v, ∃ keys' : (v.table.map OutboxEvent.id).Nodup,
      Steps outboxSystem batchesOnly u acts v ∧
      v.outbox keys' = (poll batchSize clocks (u.outbox keys)).2 := by
  induction clocks generalizing u b with
  | nil => exact ⟨[], u, keys, .nil u, rfl⟩
  | cons clock clocks ih =>
      obtain ⟨acts, v, keys', hrun, hcall, hothers, hreleased⟩ :=
        @processBatch_is_run b u clock keys (hfresh 0) hlocks
      have hnext : ∀ k, v.batches (b + 1 + k) = none := by
        intro k
        have hother : b < b + 1 + k := Nat.lt_add_right k (Nat.lt_succ_self b)
        rw [hothers _ (Nat.ne_of_gt hother), Nat.add_assoc, Nat.add_comm 1 k]
        exact hfresh (k + 1)
      obtain ⟨more, w, keys'', hrest, hpoll⟩ := ih keys' hnext hreleased
      refine ⟨acts ++ more, w, keys'', (hrun.mono fun _ a ha => ⟨b, ha⟩).trans hrest, ?_⟩
      rw [hpoll, hcall, poll_cons]

end Alone

end RideFlow
