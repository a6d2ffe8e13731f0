import RideFlow.AtLeastOnce
import RideFlow.OutboxLog

/-!
# Ride requests and outbox workers

The ride system next to any number of workers on the table that it fills.  A
COMMIT of a request INSERTs its events into the table of the workers; a request
that is rejected or fails INSERTs none.  Seen from the table, a run of both is a
run of the workers among inserts (`delivery_run`), so the books of the outbox
are kept, and the contents of the table are the events of the committed
transitions.
-/

namespace RideFlow

open RowLocks Trails Runs

/-- The rides with what they have committed, and the table that the workers read. -/
structure DeliveryState where
  rides : RideState
  outbox : OutboxState

/-- No ride and no event. -/
def DeliveryState.init : DeliveryState := ⟨.init, .init⟩

/-- A step of a ride request, or of a worker. -/
inductive DeliveryAction
  | ride (action : RideAction)
  | worker (action : OutboxAction)

/-- The rows that a step of the rides has INSERTed. -/
def insertedRows (before after : RideState) : List OutboxEvent :=
  after.outbox.drop before.outbox.length

/-- One step of a request or of a worker; only requests INSERT. -/
def deliveryStep (cfg : Settings) (s : DeliveryState) : DeliveryAction → Option DeliveryState
  | .ride action =>
      (rideStep cfg s.rides action).map fun rides =>
        ⟨rides, s.outbox.insert (insertedRows s.rides rides)⟩
  | .worker (.insert _) => none
  | .worker action => (outboxStep s.outbox action).map fun outbox => { s with outbox := outbox }

/-- Requests and workers, in any interleaving. -/
def deliverySystem (cfg : Settings) : System DeliveryState DeliveryAction := ⟨deliveryStep cfg⟩

/-- The ride action of a step, if it is one. -/
def DeliveryAction.ride? : DeliveryAction → Option RideAction
  | .ride action => some action
  | .worker _ => none

section Steps

variable {cfg : Settings} {s t : DeliveryState} {a : DeliveryAction}

/-- A step is one of the rides, with the rows it INSERTs, or one of a worker. -/
theorem step_delivery (hstep : deliveryStep cfg s a = some t) :
    (∃ action, a = .ride action ∧ rideStep cfg s.rides action = some t.rides ∧
      t.outbox = s.outbox.insert (insertedRows s.rides t.rides)) ∨
    ∃ action, a = .worker action ∧ (∀ rows, action ≠ .insert rows) ∧
      outboxStep s.outbox action = some t.outbox ∧ t.rides = s.rides := by
  cases a with
  | ride action =>
      obtain ⟨rides, hrides, rfl⟩ := Option.map_eq_some_iff.mp hstep
      exact Or.inl ⟨action, rfl, hrides, rfl⟩
  | worker action =>
      have hnoInsert : ∀ rows, action ≠ .insert rows := by
        rintro rows rfl
        cases hstep
      have hstep : (outboxStep s.outbox action).map (fun outbox => { s with outbox := outbox }) =
          some t := by
        cases action with
        | insert rows => exact absurd rfl (hnoInsert rows)
        | _ => exact hstep
      obtain ⟨outbox, houtbox, rfl⟩ := Option.map_eq_some_iff.mp hstep
      exact Or.inr ⟨action, rfl, hnoInsert, houtbox, rfl⟩

/-- Seen from the rides, a run of both is a run of the rides. -/
theorem rides_run {ok : DeliveryState → DeliveryAction → Prop} {acts : List DeliveryAction}
    (h : Steps (deliverySystem cfg) ok .init acts s) :
    Steps (rideSystem cfg) free .init (acts.filterMap DeliveryAction.ride?) s.rides := by
  refine h.project (n := rideSystem cfg) DeliveryState.rides DeliveryAction.ride? ?_
  intro s a t _ hstep
  rcases step_delivery hstep with ⟨action, rfl, hride, _⟩ | ⟨action, rfl, _, _, hsame⟩
  · exact ⟨trivial, hride⟩
  · exact hsame

end Steps

section Inserts

variable {cfg : Settings} {s t : RideState} {a : RideAction} {acts : List RideAction}

/-- An event as it is INSERTed carries no marks. -/
theorem Applied.event_content (e : Applied) : e.event.content = e.event := by
  rw [e.spec.2.2.2]
  rfl

/-- A step appends to the events. -/
theorem outbox_append (hstep : rideStep cfg s a = some t) :
    t.outbox = s.outbox ++ insertedRows s t := by
  have hprefix : s.outbox <+: t.outbox := by
    rcases step_effects hstep with ⟨_, _, hsame, _⟩ | ⟨_, _, _, _, rfl⟩ | ⟨_, _, _, _, _, _, rfl⟩
    · exact hsame ▸ List.prefix_refl _
    · exact List.prefix_refl _
    · exact List.prefix_append _ _
  exact (List.prefix_iff_eq_append.mp hprefix).symm

/-- The events of a run have distinct ids. -/
theorem outbox_ids_nodup (h : Steps (rideSystem cfg) free .init acts s) :
    (s.outbox.map OutboxEvent.id).Nodup := by
  rw [(books_kept h).outbox, List.map_map]
  have hids : OutboxEvent.id ∘ Applied.event = rideSchema.stamp := by
    funext e
    exact e.event_id
  rw [hids]
  exact (rides_distinct h).log

/-- **What a step INSERTs is insertable** into a table that holds the events so
far. -/
theorem inserted_insertable (h : Steps (rideSystem cfg) free .init acts s)
    (hstep : rideStep cfg s a = some t) {table : List OutboxEvent}
    (htable : table.map OutboxEvent.content = s.outbox) :
    insertable table (insertedRows s t) := by
  have hrun : Steps (rideSystem cfg) free .init (acts ++ [a]) t := h.snoc trivial hstep
  have hnodup := outbox_ids_nodup hrun
  have hids : table.map OutboxEvent.id = s.outbox.map OutboxEvent.id := by
    rw [← htable, List.map_map]
    rfl
  rw [outbox_append hstep, List.map_append] at hnodup
  obtain ⟨_, hnew, hapart⟩ := List.nodup_append.mp hnodup
  refine ⟨hnew, fun row hrow => ?_⟩
  have hmem : row ∈ t.outbox := by
    rw [outbox_append hstep]
    exact List.mem_append_right _ hrow
  rw [(books_kept hrun).outbox] at hmem
  obtain ⟨e, _, rfl⟩ := List.mem_map.mp hmem
  refine ⟨?_, ?_, ?_⟩
  · rw [← e.event_content]
    rfl
  · rw [← e.event_content]
    rfl
  · rw [hids]
    intro hold
    exact hapart _ hold _ (List.mem_map_of_mem hrow) rfl

end Inserts

section Runs

variable {cfg : Settings} {s t : DeliveryState} {a : DeliveryAction}
  {acts more : List DeliveryAction} {ok : DeliveryState → DeliveryAction → Prop}

/-- The rides were reached by a run, and the table holds their events. -/
def InStep (cfg : Settings) (s : DeliveryState) : Prop :=
  (∃ acts, Steps (rideSystem cfg) free .init acts s.rides) ∧
    s.outbox.table.map OutboxEvent.content = s.rides.outbox

/-- One step keeps the table in step with the rides. -/
theorem step_inStep (h : InStep cfg s) (hstep : deliveryStep cfg s a = some t) : InStep cfg t := by
  obtain ⟨⟨acts, hrun⟩, htable⟩ := h
  rcases step_delivery hstep with ⟨action, rfl, hride, houtbox⟩ | ⟨action, rfl, hno, hout, hsame⟩
  · have hrun' : Steps (rideSystem cfg) free .init (acts ++ [action]) t.rides :=
      hrun.snoc trivial hride
    refine ⟨⟨_, hrun'⟩, ?_⟩
    have hcontents : (insertedRows s.rides t.rides).map OutboxEvent.content =
        insertedRows s.rides t.rides := by
      refine (List.map_congr_left fun row hrow => ?_).trans (List.map_id _)
      have hmem : row ∈ t.rides.outbox := by
        rw [outbox_append hride]
        exact List.mem_append_right _ hrow
      rw [(books_kept hrun').outbox] at hmem
      obtain ⟨e, _, rfl⟩ := List.mem_map.mp hmem
      exact e.event_content
    rw [houtbox, outbox_append hride]
    change (s.outbox.table ++ insertedRows s.rides t.rides).map OutboxEvent.content = _
    rw [List.map_append, htable, hcontents]
  · rw [InStep, hsame]
    refine ⟨⟨acts, hrun⟩, ?_⟩
    rcases step_table hout with ⟨rows, rfl, _⟩ | ⟨_, hcontents⟩
    · exact absurd rfl (hno rows)
    · rw [hcontents, htable]

/-- They are in step at first. -/
theorem inStep_init : InStep cfg .init := ⟨⟨[], .nil _⟩, rfl⟩

/-- They are in step in every run. -/
theorem inStep_kept (h : Steps (deliverySystem cfg) ok .init acts s) : InStep cfg s :=
  h.invariant (InStep cfg) inStep_init fun _ _ _ hs _ hstep => step_inStep hs hstep

/-- **Seen from the table, a run of both is a run of the workers** among the
inserts of the requests. -/
theorem delivery_run {okO : OutboxState → OutboxAction → Prop}
    (hride : ∀ s action rides, InStep cfg s → ok s (.ride action) →
      rideStep cfg s.rides action = some rides →
      okO s.outbox (.insert (insertedRows s.rides rides)))
    (hworker : ∀ s action, (∀ rows, action ≠ .insert rows) → ok s (.worker action) →
      okO s.outbox action)
    (h : Steps (deliverySystem cfg) ok .init acts s) :
    ∃ seen, Steps outboxSystem okO .init seen s.outbox := by
  refine h.simulate (n := outboxSystem) DeliveryState.outbox (InStep cfg) inStep_init
    (fun _ _ _ hs _ hstep => step_inStep hs hstep) ?_
  intro s a t hs hok hstep
  rcases step_delivery hstep with ⟨action, rfl, hrides, houtbox⟩ | ⟨action, rfl, hno, hout, _⟩
  · obtain ⟨⟨_, hrun⟩, htable⟩ := hs
    have hnew := inserted_insertable hrun hrides htable
    refine Or.inr ⟨.insert (insertedRows s.rides t.rides),
      hride s action t.rides ⟨⟨_, hrun⟩, htable⟩ hok hrides, ?_⟩
    rw [houtbox]
    exact if_pos hnew
  · exact Or.inr ⟨action, hworker s action hno hok, hout⟩

/-- A step keeps every row of the table. -/
theorem delivery_keeps_rows (hstep : deliveryStep cfg s a = some t) :
    ∀ row ∈ s.outbox.table, ∃ row' ∈ t.outbox.table, row'.content = row.content := by
  intro row hrow
  rcases step_delivery hstep with ⟨_, _, _, houtbox⟩ | ⟨_, _, _, hout, _⟩
  · rw [houtbox]
    exact ⟨row, List.mem_append_left _ hrow, rfl⟩
  · exact step_keeps_rows hout hrow

/-- **The outbox delivers at least once**, never a phantom, and repeats itself
only after failures, in every interleaving of requests and workers with failures
at any point; its rows are the events of the committed transitions and are
never deleted. -/
theorem outbox_delivers (h : Steps (deliverySystem cfg) free .init acts s) :
    s.outbox.table.map OutboxEvent.content = s.rides.log.map Applied.event ∧
    Delivers s.outbox ∧
    ∀ more t, Steps (deliverySystem cfg) free s more t → ∀ row ∈ s.outbox.table,
      ∃ row' ∈ t.outbox.table, row'.content = row.content := by
  have htable := (inStep_kept h).2
  obtain ⟨_, hrun⟩ : ∃ seen, Steps outboxSystem free .init seen s.outbox :=
    delivery_run (fun _ _ _ _ _ _ => trivial) (fun _ _ _ _ => trivial) h
  refine ⟨?_, (outbox_books_kept hrun).delivers, ?_⟩
  · rw [htable, (books_kept (rides_run h)).outbox]
  · intro more t hmore
    refine hmore.along (fun u v => ∀ row ∈ u.outbox.table, ∃ row' ∈ v.outbox.table,
      row'.content = row.content) (fun _ row hrow => ⟨row, hrow, rfl⟩) ?_ (fun _ => True) trivial
      (fun _ _ _ _ _ _ => trivial) (fun _ _ _ _ _ hstep => delivery_keeps_rows hstep)
    intro u v w huv hvw row hrow
    obtain ⟨row', hrow', hcontent'⟩ := huv row hrow
    obtain ⟨row'', hrow'', hcontent''⟩ := hvw row' hrow'
    exact ⟨row'', hrow'', hcontent''.trans hcontent'⟩

end Runs

/-- A ride is requested, and no driver is found: two events in one
transaction. -/
def missRide : List DeliveryAction :=
  [.ride (.create 0 (sampleUser 1 .passenger) sampleBody sampleFare none),
    .ride (.begin 0 (sampleUser 1 .passenger) 0 ⟨.matching, 1⟩), .ride (.read 0),
    .ride (.update 0), .ride (.search 0 []), .ride (.reserve 0), .ride (.resolve 0),
    .ride (.commit 0)]

/-- The event of a ride that is matched. -/
def matchingEvent : OutboxEvent :=
  ⟨0, "ride", 0, "ride.status_changed", ⟨0, .requested, .matching, none, 1⟩, false, 0, none⟩

/-- The event of a ride that nobody was found for. -/
def missedEvent : OutboxEvent :=
  ⟨1, "ride", 0, "ride.status_changed", ⟨0, .matching, .noDriversFound, none, 1⟩, false, 0, none⟩

/-- A batch that sends both events. -/
def sendBoth (b : BatchId) : List DeliveryAction :=
  [.worker (.scan b), .worker (.scan b), .worker (.scan b), .worker (.publish b),
    .worker (.enqueue b 1), .worker (.publish b), .worker (.enqueue b 1), .worker (.commit b)]

/-- A batch fails after its first publish, while another one skips its rows; a
third one sends both events. -/
def sendAfterFailure : List DeliveryAction :=
  missRide ++
  [.worker (.select 0 [matchingEvent, missedEvent]), .worker (.scan 0), .worker (.scan 0),
    .worker (.scan 0), .worker (.select 1 [matchingEvent, missedEvent]), .worker (.scan 1),
    .worker (.publish 0), .worker (.scan 1), .worker (.fail 0), .worker (.scan 1),
    .worker (.commit 1), .worker (.select 2 [matchingEvent, missedEvent])] ++ sendBoth 2

/-- The event that was published before the failure is published once more. -/
theorem failed_batch_redelivered : ∃ s,
    Steps (deliverySystem {}) free .init sendAfterFailure s ∧
    s.outbox.table.all (fun row => row.published) ∧
    (s.outbox.published.map Prod.fst).count 0 = 2 ∧
    (s.outbox.published.map Prod.fst).count 0 ≤ 1 + s.outbox.failures 0 := by
  have hreplay : (exec (deliverySystem {}) .init sendAfterFailure).any (fun s =>
      s.outbox.table.all (fun row => row.published) ∧
        (s.outbox.published.map Prod.fst).count 0 = 2) = true := by decide
  obtain ⟨s, hrun, hs⟩ := Steps.of_exec_any hreplay
  obtain ⟨hall, htwo⟩ := of_decide_eq_true hs
  exact ⟨s, hrun, hall, htwo, ((outbox_delivers hrun).2.1.bounded 0).1⟩

end RideFlow
