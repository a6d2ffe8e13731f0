import RideFlow.OutboxBooks

/-!
# At least once, and more often only after failures

How often an event went out, counted against the failed batches that had
locked it: an unpublished event that no batch has sent yet went out at most once
for each of them, any other event at most once more (`Counted`).  The same
count is kept for the messages and for the notifications.
-/

namespace RideFlow

open Function Runs

/-- `out` lists the events that went out, `made` those that each running batch
has sent. -/
structure Counted (s : OutboxState) (out : List EventId)
    (made : BatchId → List OutboxEvent) : Prop where
  bound : ∀ id, out.count id ≤ 1 + s.failures id
  idle : ∀ row ∈ s.table, row.published = false →
    (∀ b, row.id ∉ (made b).map OutboxEvent.id) → out.count row.id ≤ s.failures row.id

/-- Messages and notifications are counted alike. -/
structure CountBooks (s : OutboxState) : Prop where
  published : Counted s (s.published.map Prod.fst) s.sentBy
  enqueued : Counted s (s.enqueued.map Prod.fst) s.doneBy

section Counts

variable {s t : OutboxState} {out : List EventId} {made : BatchId → List OutboxEvent}
  {l : List OutboxEvent} {b : BatchId} {a : OutboxAction} {stage : BatchStage}

theorem failures_of_failed (h : t.failed = s.failed) (id : EventId) :
    t.failures id = s.failures id := by
  rw [OutboxState.failures, OutboxState.failures, h]

/-- Counts survive a step that sends nothing and ends nothing. -/
theorem Counted.keep (h : Counted s out made) (htable : t.table = s.table)
    (hfailed : t.failed = s.failed)
    (hl : l.map OutboxEvent.id = (made b).map OutboxEvent.id) :
    Counted t out (update made b l) where
  bound := by
    intro id
    rw [failures_of_failed hfailed]
    exact h.bound id
  idle := by
    intro row hrow hopen hidle
    rw [htable] at hrow
    rw [failures_of_failed hfailed]
    refine h.idle row hrow hopen fun p hmem => ?_
    have hout := hidle p
    by_cases hp : p = b
    · subst hp
      rw [update_self, hl] at hout
      exact hout hmem
    · rw [update_of_ne hp] at hout
      exact hout hmem

/-- Counts survive the sending of an event that was unpublished and sent by
nobody. -/
theorem Counted.send (h : Counted s out made) (htable : t.table = s.table)
    (hfailed : t.failed = s.failed) {id : EventId} (hidle : out.count id ≤ s.failures id)
    (hl : l.map OutboxEvent.id = (made b).map OutboxEvent.id ++ [id]) :
    Counted t (out ++ [id]) (update made b l) where
  bound := by
    intro id'
    rw [failures_of_failed hfailed, List.count_append]
    by_cases hid : id = id'
    · subst hid
      rw [List.count_singleton_self]
      omega
    · rw [List.count_singleton, beq_false_of_ne hid]
      exact h.bound id'
  idle := by
    intro row hrow hopen hout
    rw [htable] at hrow
    have hmine := hout b
    rw [update_self, hl, List.mem_append, List.mem_singleton, not_or] at hmine
    rw [failures_of_failed hfailed, List.count_append, List.count_singleton,
      beq_false_of_ne (Ne.symm hmine.2)]
    refine h.idle row hrow hopen fun p => ?_
    by_cases hp : p = b
    · subst hp
      exact hmine.1
    · have hother := hout p
      rwa [update_of_ne hp] at hother

/-- Counts survive new rows. -/
theorem Counted.insert (h : Counted s out made) {rows : List OutboxEvent}
    (hnew : ∀ row ∈ rows, row.id ∉ out) : Counted (s.insert rows) out made where
  bound := h.bound
  idle := by
    intro row hrow hopen hidle
    rcases List.mem_append.mp hrow with hold | hadded
    · exact h.idle row hold hopen hidle
    · rw [List.count_eq_zero.mpr (hnew row hadded)]
      exact Nat.zero_le _

/-- Counts survive the COMMIT of a batch, which leaves no row unpublished that
it has sent. -/
theorem Counted.commit (h : Counted s out made) (hfailed : t.failed = s.failed)
    (hopen : ∀ row ∈ t.table, row.published = false →
      row ∈ s.table ∧ row.id ∉ (made b).map OutboxEvent.id) :
    Counted t out (update made b []) where
  bound := by
    intro id
    rw [failures_of_failed hfailed]
    exact h.bound id
  idle := by
    intro row hrow hunpublished hidle
    obtain ⟨hold, hout⟩ := hopen row hrow hunpublished
    rw [failures_of_failed hfailed]
    refine h.idle row hold hunpublished fun p => ?_
    by_cases hp : p = b
    · subst hp
      exact hout
    · have hother := hidle p
      rwa [update_of_ne hp] at hother

/-- Counts survive a failure: what the batch has sent it had locked. -/
theorem Counted.fail (h : Counted s out made) {ids : List EventId} (htable : t.table = s.table)
    (hfailed : t.failed = s.failed ++ [ids])
    (hids : ∀ id ∈ (made b).map OutboxEvent.id, id ∈ ids) :
    Counted t out (update made b []) := by
  have hfailures : ∀ id, t.failures id = s.failures id + if id ∈ ids then 1 else 0 := by
    intro id
    rw [OutboxState.failures, hfailed, List.countP_append, List.countP_singleton,
      OutboxState.failures]
    simp
  constructor
  · intro id
    have hbound := h.bound id
    rw [hfailures]
    omega
  · intro row hrow hopen hidle
    rw [htable] at hrow
    rw [hfailures]
    by_cases hmem : row.id ∈ (made b).map OutboxEvent.id
    · rw [if_pos (hids _ hmem)]
      have hbound := h.bound row.id
      omega
    · refine Nat.le_trans (h.idle row hrow hopen fun p => ?_) (Nat.le_add_right _ _)
      by_cases hp : p = b
      · subst hp
        exact hmem
      · have hother := hidle p
        rwa [update_of_ne hp] at hother

/-- A locked event that its own batch has not sent was sent by nobody. -/
theorem Counted.unsent (h : Counted s out made) (hlocks : LockBooks s)
    (hmade : ∀ p, made p ⊆ s.held p) {event : OutboxEvent} (hheld : event ∈ s.held b)
    (hout : event.id ∉ (made b).map OutboxEvent.id) : out.count event.id ≤ s.failures event.id := by
  obtain ⟨row, hrow, hopen, hcontent⟩ := hlocks.current b event hheld
  have hid : row.id = event.id := id_of_content hcontent
  rw [← hid]
  refine h.idle row hrow hopen fun p hmem => ?_
  rw [hid] at hmem
  have hlocked : event.id ∈ (s.held p).map OutboxEvent.id := List.map_subset _ (hmade p) hmem
  obtain rfl := hlocks.exclusive (List.mem_map_of_mem hheld) hlocked
  exact hout hmem

theorem sentBy_subset (b : BatchId) : s.sentBy b ⊆ s.held b := by
  unfold OutboxState.sentBy OutboxState.held
  cases s.batches b with
  | none => exact List.nil_subset _
  | some stage => exact sent_subset stage

theorem doneBy_subset (b : BatchId) : s.doneBy b ⊆ s.held b := by
  unfold OutboxState.doneBy OutboxState.held
  cases s.batches b with
  | none => exact List.nil_subset _
  | some stage => exact fun _ he => sent_subset stage (done_subset stage he)

/-- A step that sends nothing keeps both counts. -/
theorem CountBooks.keep (h : CountBooks s) (htable : t.table = s.table)
    (hfailed : t.failed = s.failed) (hpublished : t.published = s.published)
    (henqueued : t.enqueued = s.enqueued) (hbatch : t.batches = update s.batches b (some stage))
    (hsent : stage.sent.map OutboxEvent.id = (s.sentBy b).map OutboxEvent.id)
    (hdone : stage.done.map OutboxEvent.id = (s.doneBy b).map OutboxEvent.id) :
    CountBooks t where
  published := by
    rw [sentBy_update hbatch, hpublished]
    exact h.published.keep htable hfailed hsent
  enqueued := by
    rw [doneBy_update hbatch, henqueued]
    exact h.enqueued.keep htable hfailed hdone

/-- A publish counts once, in the messages. -/
theorem CountBooks.publish (h : CountBooks s) {event : OutboxEvent} (htable : t.table = s.table)
    (hfailed : t.failed = s.failed)
    (hpublished : t.published = s.published ++ [(event.id, event.message)])
    (henqueued : t.enqueued = s.enqueued) (hbatch : t.batches = update s.batches b (some stage))
    (hidle : (s.published.map Prod.fst).count event.id ≤ s.failures event.id)
    (hsent : stage.sent.map OutboxEvent.id = (s.sentBy b).map OutboxEvent.id ++ [event.id])
    (hdone : stage.done.map OutboxEvent.id = (s.doneBy b).map OutboxEvent.id) :
    CountBooks t where
  published := by
    rw [sentBy_update hbatch, hpublished, List.map_append]
    exact h.published.send htable hfailed hidle hsent
  enqueued := by
    rw [doneBy_update hbatch, henqueued]
    exact h.enqueued.keep htable hfailed hdone

/-- An enqueue counts once, in the notifications. -/
theorem CountBooks.enqueue (h : CountBooks s) {event : OutboxEvent} (htable : t.table = s.table)
    (hfailed : t.failed = s.failed) (hpublished : t.published = s.published)
    (henqueued : t.enqueued = s.enqueued ++ [(event.id, event.notification)])
    (hbatch : t.batches = update s.batches b (some stage))
    (hidle : (s.enqueued.map Prod.fst).count event.id ≤ s.failures event.id)
    (hsent : stage.sent.map OutboxEvent.id = (s.sentBy b).map OutboxEvent.id)
    (hdone : stage.done.map OutboxEvent.id = (s.doneBy b).map OutboxEvent.id ++ [event.id]) :
    CountBooks t where
  published := by
    rw [sentBy_update hbatch, hpublished]
    exact h.published.keep htable hfailed hsent
  enqueued := by
    rw [doneBy_update hbatch, henqueued, List.map_append]
    exact h.enqueued.send htable hfailed hidle hdone

/-- The next event of a batch is none of those before it. -/
theorem next_fresh (hlocks : LockBooks s) {event : OutboxEvent} {todo done : List OutboxEvent}
    (hheld : s.held b = done ++ event :: todo) : event.id ∉ done.map OutboxEvent.id := by
  have hdistinct := hlocks.distinct b
  rw [hheld, List.map_append, List.map_cons] at hdistinct
  intro hmem
  exact (List.nodup_append.mp hdistinct).2.2 _ hmem _ List.mem_cons_self rfl

/-- The next event of a batch went out at most once for each failure. -/
theorem Counted.next (h : Counted s out made) (hlocks : LockBooks s)
    (hmade : ∀ p, made p ⊆ s.held p) {event : OutboxEvent} {todo : List OutboxEvent}
    (hheld : s.held b = made b ++ event :: todo) : out.count event.id ≤ s.failures event.id := by
  have hevent : event ∈ s.held b := hheld ▸ List.mem_append_right _ List.mem_cons_self
  exact h.unsent hlocks hmade hevent (next_fresh hlocks hheld)

/-- Nothing went out yet for a row that is only now inserted. -/
theorem inserted_unsent {α : Type*} {rows : List OutboxEvent} (hnew : insertable s.table rows)
    {outs : List (EventId × α)} {content : OutboxEvent → α}
    (houts : ∀ out ∈ outs, ∃ row ∈ s.table, out = (row.id, content row)) :
    ∀ row ∈ rows, row.id ∉ outs.map Prod.fst := by
  intro row hrow hmem
  obtain ⟨out, hout, hid⟩ := List.mem_map.mp hmem
  obtain ⟨old, hold, rfl⟩ := houts out hout
  exact (hnew.2 row hrow).2.2 (hid ▸ List.mem_map_of_mem hold)

/-- A row that a COMMIT leaves unpublished is none of the batch. -/
theorem commit_leaves (hbooks : DeliveryBooks s) {done : List OutboxEvent}
    (hb : s.batches b = some (.publishing [] done)) :
    ∀ row ∈ (s.commit b done).table, row.published = false →
      row ∈ s.table ∧ row.id ∉ done.map OutboxEvent.id := by
  intro row hrow hunpublished
  obtain ⟨old, hold, rfl⟩ := List.mem_map.mp hrow
  rcases writeBack_cases hbooks hb old with ⟨hout, hsame⟩ | ⟨_, _, _, hmarked⟩
  · rw [hsame]
    exact ⟨hold, hout⟩
  · rw [hmarked] at hunpublished
    cases hunpublished

/-- **One step keeps the counts.** -/
theorem step_countBooks (hlocks : LockBooks s) (hbooks : DeliveryBooks s) (h : CountBooks s)
    (hstep : outboxStep s a = some t) : CountBooks t := by
  cases a with
  | insert rows =>
      obtain ⟨hnew, rfl⟩ := outbox_insert hstep
      exact ⟨h.published.insert (inserted_unsent hnew hbooks.genuine),
        h.enqueued.insert (inserted_unsent hnew hbooks.notified)⟩
  | select b snapshot =>
      obtain ⟨hnone, _, rfl⟩ := outbox_select hstep
      refine h.keep rfl rfl rfl rfl rfl ?_ ?_
      · rw [OutboxState.sentBy, hnone]
        rfl
      · rw [OutboxState.doneBy, hnone]
        rfl
  | scan b =>
      obtain ⟨_, _, hb, hcases⟩ := outbox_scan hstep
      have hsent : s.sentBy b = [] := sentBy_of_batch hb
      have hdone : s.doneBy b = [] := doneBy_of_batch hb
      rcases hcases with rfl | ⟨_, _, _, _, ⟨_, rfl⟩ | ⟨_, _, _, _, rfl⟩⟩
      · exact h.keep rfl rfl rfl rfl rfl (by rw [hsent]; rfl) (by rw [hdone]; rfl)
      · exact h.keep rfl rfl rfl rfl rfl (by rw [hsent]; rfl) (by rw [hdone]; rfl)
      · exact h.keep rfl rfl rfl rfl rfl (by rw [hsent]; rfl) (by rw [hdone]; rfl)
  | publish b =>
      obtain ⟨event, todo, done, hb, rfl⟩ := outbox_publish hstep
      have hsent : s.sentBy b = done := sentBy_of_batch hb
      have hheld : s.held b = done ++ event :: todo := held_of_batch hb
      refine h.publish rfl rfl rfl rfl rfl ?_ ?_ ?_
      · exact h.published.next hlocks sentBy_subset (hsent.symm ▸ hheld)
      · rw [hsent]
        exact List.map_append
      · rw [doneBy_of_batch hb]
        rfl
  | enqueue b now =>
      obtain ⟨event, todo, done, hb, rfl⟩ := outbox_enqueue hstep
      have hdone : s.doneBy b = done := doneBy_of_batch hb
      have hheld : s.held b = done ++ event :: todo := held_of_batch hb
      have hmark : (event.mark now).id = event.id := rfl
      refine h.enqueue rfl rfl rfl rfl rfl ?_ ?_ ?_
      · exact h.enqueued.next hlocks doneBy_subset (hdone.symm ▸ hheld)
      · rw [sentBy_of_batch hb]
        simp [BatchStage.sent, hmark]
      · rw [hdone]
        simp [BatchStage.done, hmark]
  | commit b =>
      obtain ⟨done, hb, rfl⟩ := outbox_commit hstep
      have hbatch : (s.commit b done).batches = update s.batches b (some .finished) := rfl
      have hleft := commit_leaves hbooks hb
      constructor
      · rw [sentBy_update hbatch]
        exact h.published.commit rfl (by rw [sentBy_of_batch hb]; exact hleft)
      · rw [doneBy_update hbatch]
        exact h.enqueued.commit rfl (by rw [doneBy_of_batch hb]; exact hleft)
  | fail b =>
      obtain ⟨stage, hb, _, rfl⟩ := outbox_fail hstep
      have hbatch : (s.fail b stage).batches = update s.batches b (some .finished) := rfl
      have hheld : s.held b = stage.rows := held_of_batch hb
      constructor
      · rw [sentBy_update hbatch]
        refine h.published.fail rfl rfl ?_
        rw [← hheld]
        exact fun id hid => List.map_subset _ (sentBy_subset b) hid
      · rw [doneBy_update hbatch]
        refine h.enqueued.fail rfl rfl ?_
        rw [← hheld]
        exact fun id hid => List.map_subset _ (doneBy_subset b) hid

end Counts

/-- Delivery at least once, never of a phantom, and repeated only by failures. -/
structure Delivers (s : OutboxState) : Prop where
  genuine : ∀ out ∈ s.published, ∃ row ∈ s.table, out = (row.id, row.message)
  notified : ∀ out ∈ s.enqueued, ∃ row ∈ s.table, out = (row.id, row.notification)
  delivered : ∀ row ∈ s.table, row.published = true →
    (row.id, row.message) ∈ s.published ∧ (row.id, row.notification) ∈ s.enqueued
  failed : ∀ b t, outboxStep s (.fail b) = some t → ∀ event ∈ s.held b,
    (∃ row ∈ t.table, row.id = event.id ∧ row.published = false) ∧ t.locks event.id = none
  kept : ∀ a t, outboxStep s a = some t → ∀ row ∈ s.table,
    ∃ row' ∈ t.table, row'.content = row.content
  bounded : ∀ id, (s.published.map Prod.fst).count id ≤ 1 + s.failures id ∧
    (s.enqueued.map Prod.fst).count id ≤ 1 + s.failures id
  once : s.failed = [] → (s.published.map Prod.fst).Nodup ∧ (s.enqueued.map Prod.fst).Nodup

section Runs

variable {s t : OutboxState} {a : OutboxAction} {b : BatchId} {acts : List OutboxAction}
  {ok : OutboxState → OutboxAction → Prop}

/-- A step inserts new rows, or changes no content of the table. -/
theorem step_table (hstep : outboxStep s a = some t) :
    (∃ rows, a = .insert rows ∧ insertable s.table rows ∧ t = s.insert rows) ∨
      (∀ rows, a ≠ .insert rows) ∧
        t.table.map OutboxEvent.content = s.table.map OutboxEvent.content := by
  cases a with
  | insert rows =>
      obtain ⟨hnew, rfl⟩ := outbox_insert hstep
      exact Or.inl ⟨rows, rfl, hnew, rfl⟩
  | select b snapshot =>
      obtain ⟨_, _, rfl⟩ := outbox_select hstep
      exact Or.inr ⟨by simp, rfl⟩
  | scan b =>
      obtain ⟨_, _, _, rfl | ⟨_, _, _, _, ⟨_, rfl⟩ | ⟨_, _, _, _, rfl⟩⟩⟩ := outbox_scan hstep
      · exact Or.inr ⟨by simp, rfl⟩
      · exact Or.inr ⟨by simp, rfl⟩
      · exact Or.inr ⟨by simp, rfl⟩
  | publish b =>
      obtain ⟨_, _, _, _, rfl⟩ := outbox_publish hstep
      exact Or.inr ⟨by simp, rfl⟩
  | enqueue b now =>
      obtain ⟨_, _, _, _, rfl⟩ := outbox_enqueue hstep
      exact Or.inr ⟨by simp, rfl⟩
  | commit b =>
      obtain ⟨done, _, rfl⟩ := outbox_commit hstep
      refine Or.inr ⟨by simp, ?_⟩
      change (s.table.map (writeBack done)).map OutboxEvent.content = _
      rw [List.map_map]
      exact List.map_congr_left fun _ _ => content_writeBack
  | fail b =>
      obtain ⟨_, _, _, rfl⟩ := outbox_fail hstep
      exact Or.inr ⟨by simp, rfl⟩

/-- No step deletes a row. -/
theorem step_keeps_rows (hstep : outboxStep s a = some t) {row : OutboxEvent}
    (hrow : row ∈ s.table) : ∃ row' ∈ t.table, row'.content = row.content := by
  rcases step_table hstep with ⟨rows, _, _, rfl⟩ | ⟨_, hsame⟩
  · exact ⟨row, List.mem_append_left _ hrow, rfl⟩
  · have hmem := List.mem_map_of_mem (f := OutboxEvent.content) hrow
    rw [← hsame] at hmem
    exact List.mem_map.mp hmem

/-- A failed batch leaves its rows unpublished and unlocked. -/
theorem fail_leaves (h : LockBooks s) (hstep : outboxStep s (.fail b) = some t)
    {event : OutboxEvent} (hheld : event ∈ s.held b) :
    (∃ row ∈ t.table, row.id = event.id ∧ row.published = false) ∧ t.locks event.id = none := by
  obtain ⟨_, _, _, rfl⟩ := outbox_fail hstep
  obtain ⟨row, hrow, hopen, hcontent⟩ := h.current b event hheld
  have hlock := (h.locks event.id b).mpr (List.mem_map_of_mem hheld)
  exact ⟨⟨row, hrow, id_of_content hcontent, hopen⟩, if_pos hlock⟩

/-- All three books of the outbox. -/
structure OutboxBooks (s : OutboxState) : Prop where
  locks : LockBooks s
  deliveries : DeliveryBooks s
  counts : CountBooks s

theorem outboxBooks_init : OutboxBooks .init := by
  refine ⟨?_, ?_, ?_, ?_⟩
  · constructor <;> intros <;> simp_all [OutboxState.init, OutboxState.held]
  · constructor <;> intros <;>
      simp_all [OutboxState.init, OutboxState.sentBy, OutboxState.doneBy]
  · constructor <;> intros <;> simp_all [OutboxState.init]
  · constructor <;> intros <;> simp_all [OutboxState.init]

theorem step_outboxBooks (h : OutboxBooks s) (hstep : outboxStep s a = some t) :
    OutboxBooks t where
  locks := step_lockBooks h.locks hstep
  deliveries := step_deliveryBooks h.locks h.deliveries hstep
  counts := step_countBooks h.locks h.deliveries h.counts hstep

/-- **The books are kept by every run of the workers.** -/
theorem outbox_books_kept (h : Steps outboxSystem ok .init acts s) : OutboxBooks s :=
  h.invariant OutboxBooks outboxBooks_init fun _ _ _ hs _ hstep => step_outboxBooks hs hstep

/-- Books that balance are deliveries. -/
theorem OutboxBooks.delivers (h : OutboxBooks s) : Delivers s where
  genuine := h.deliveries.genuine
  notified := h.deliveries.notified
  delivered := h.deliveries.delivered
  failed := fun _ _ hstep _ hheld => fail_leaves h.locks hstep hheld
  kept := fun _ _ hstep _ hrow => step_keeps_rows hstep hrow
  bounded := fun id => ⟨h.counts.published.bound id, h.counts.enqueued.bound id⟩
  once := by
    intro hnone
    have hzero : ∀ id, s.failures id = 0 := by
      intro id
      rw [OutboxState.failures, hnone]
      rfl
    constructor
    · rw [List.nodup_iff_count_le_one]
      intro id
      have hbound := h.counts.published.bound id
      rwa [hzero] at hbound
    · rw [List.nodup_iff_count_le_one]
      intro id
      have hbound := h.counts.enqueued.bound id
      rwa [hzero] at hbound

end Runs

end RideFlow
