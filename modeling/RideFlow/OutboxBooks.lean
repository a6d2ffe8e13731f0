import Mathlib.Data.List.Nodup
import RideFlow.OutboxWorker

/-!
# The books of the outbox

Three layers, each kept by every step where the ones before it hold.  The lock
books say that the locks of a batch are the rows it holds, which are unpublished
and unchanged in the table.  The delivery books say that what went out was made
from rows of the table, and that a row marked published went out.  The counts
say how often: an event that nobody is working on went out at most once for
each failed batch that had locked it, and any other once more.
-/

namespace RideFlow

open Function Runs

/-- An event without its marks. -/
def OutboxEvent.content (event : OutboxEvent) : OutboxEvent :=
  { event with published := false, publishedAt := none }

namespace OutboxState

variable (s : OutboxState) (b : BatchId)

/-- The rows that a batch has locked, published and enqueued. -/
def held : List OutboxEvent := (s.batches b).elim [] BatchStage.rows
def sentBy : List OutboxEvent := (s.batches b).elim [] BatchStage.sent
def doneBy : List OutboxEvent := (s.batches b).elim [] BatchStage.done

/-- The failed batches that had locked an event. -/
def failures (id : EventId) : Nat := s.failed.countP fun batch => id ∈ batch

end OutboxState

section Contents

variable {event event' : OutboxEvent}

theorem content_mark {now : Timestamp} : (event.mark now).content = event.content := rfl

theorem id_of_content (h : event.content = event'.content) : event.id = event'.id := by
  have h := congrArg OutboxEvent.id h
  exact h

theorem message_of_content (h : event.content = event'.content) :
    event.message = event'.message := by
  have h := congrArg OutboxEvent.message h
  exact h

theorem notification_of_content (h : event.content = event'.content) :
    event.notification = event'.notification := by
  have h := congrArg OutboxEvent.notification h
  exact h

/-- Writing marks back changes no content. -/
theorem content_writeBack {done : List OutboxEvent} {row : OutboxEvent} :
    (writeBack done row).content = row.content := by
  unfold writeBack
  split <;> rfl

/-- Ids are part of the contents. -/
theorem ids_of_contents {events events' : List OutboxEvent}
    (h : events.map OutboxEvent.content = events'.map OutboxEvent.content) :
    events.map OutboxEvent.id = events'.map OutboxEvent.id := by
  have h := congrArg (List.map OutboxEvent.id) h
  rw [List.map_map, List.map_map] at h
  exact h

end Contents

/-- What a batch published it has locked. -/
theorem sent_subset (stage : BatchStage) : stage.sent ⊆ stage.rows := by
  cases stage with
  | selecting _ _ => exact List.nil_subset _
  | publishing todo done => exact List.subset_append_left done todo
  | enqueueing event todo done =>
      intro e he
      rcases List.mem_append.mp he with hdone | hlast
      · exact List.mem_append_left _ hdone
      · obtain rfl := List.mem_singleton.mp hlast
        exact List.mem_append_right _ List.mem_cons_self
  | finished => exact List.nil_subset _

/-- What a batch enqueued it has published. -/
theorem done_subset (stage : BatchStage) : stage.done ⊆ stage.sent := by
  cases stage with
  | selecting _ _ => exact List.nil_subset _
  | publishing todo done => exact fun _ => id
  | enqueueing event todo done => exact List.subset_append_left done [event]
  | finished => exact List.nil_subset _

/-- Locks, batches and table agree. -/
structure LockBooks (s : OutboxState) : Prop where
  unique : (s.table.map OutboxEvent.id).Nodup
  locks : ∀ id b, s.locks id = some b ↔ id ∈ (s.held b).map OutboxEvent.id
  distinct : ∀ b, ((s.held b).map OutboxEvent.id).Nodup
  current : ∀ b, ∀ event ∈ s.held b, ∃ row ∈ s.table,
    row.published = false ∧ row.content = event.content

section Locks

variable {s t : OutboxState} {b p : BatchId} {stage : BatchStage} {a : OutboxAction}

theorem held_of_batch (h : s.batches b = some stage) : s.held b = stage.rows := by
  rw [OutboxState.held, h]
  rfl

theorem held_of_none (h : s.batches b = none) : s.held b = [] := by
  rw [OutboxState.held, h]
  rfl

/-- A step of one batch changes the rows of that batch. -/
theorem elim_update {batches batches' : BatchId → Option BatchStage}
    (f : BatchStage → List OutboxEvent) (h : batches' = update batches b (some stage)) :
    (fun p => (batches' p).elim [] f) = update (fun p => (batches p).elim [] f) b (f stage) := by
  funext p
  by_cases hp : p = b
  · subst hp
    simp [h]
  · simp [h, hp]

theorem held_update (h : t.batches = update s.batches b (some stage)) :
    t.held = update s.held b stage.rows :=
  elim_update BatchStage.rows h

theorem sentBy_update (h : t.batches = update s.batches b (some stage)) :
    t.sentBy = update s.sentBy b stage.sent :=
  elim_update BatchStage.sent h

theorem doneBy_update (h : t.batches = update s.batches b (some stage)) :
    t.doneBy = update s.doneBy b stage.done :=
  elim_update BatchStage.done h

/-- The rows of the table are told apart by their ids. -/
theorem LockBooks.eq_of_id (h : LockBooks s) {row row' : OutboxEvent} (hrow : row ∈ s.table)
    (hrow' : row' ∈ s.table) (hid : row.id = row'.id) : row = row' :=
  List.inj_on_of_nodup_map h.unique hrow hrow' hid

/-- A batch has locked no row twice, and no row of another batch. -/
theorem LockBooks.exclusive (h : LockBooks s) {id : EventId}
    (hb : id ∈ (s.held b).map OutboxEvent.id) (hp : id ∈ (s.held p).map OutboxEvent.id) :
    b = p := by
  have hlock := (h.locks id b).mpr hb
  rw [(h.locks id p).mpr hp] at hlock
  exact (Option.some.inj hlock).symm

/-- Lock books survive a step that locks and releases nothing. -/
theorem LockBooks.keep (h : LockBooks s) (htable : t.table = s.table) (hlocks : t.locks = s.locks)
    (hheld : ∀ p, (t.held p).map OutboxEvent.content = (s.held p).map OutboxEvent.content) :
    LockBooks t := by
  have hids := fun p => ids_of_contents (hheld p)
  constructor
  · rw [htable]
    exact h.unique
  · intro id p
    rw [hlocks, hids p]
    exact h.locks id p
  · intro p
    rw [hids p]
    exact h.distinct p
  · intro p event hevent
    have hmem := List.mem_map_of_mem (f := OutboxEvent.content) hevent
    rw [hheld p] at hmem
    obtain ⟨event', hevent', hsame⟩ := List.mem_map.mp hmem
    obtain ⟨row, hrow, hopen, hcontent⟩ := h.current p event' hevent'
    exact ⟨row, htable ▸ hrow, hopen, hcontent.trans hsame⟩

/-- Lock books survive a step of one batch that keeps its rows. -/
theorem LockBooks.move (h : LockBooks s) (htable : t.table = s.table)
    (hlocks : t.locks = s.locks) (hbatch : t.batches = update s.batches b (some stage))
    (hrows : stage.rows.map OutboxEvent.content = (s.held b).map OutboxEvent.content) :
    LockBooks t := by
  refine h.keep htable hlocks fun p => ?_
  rw [held_update hbatch]
  by_cases hp : p = b
  · subst hp
    rw [update_self]
    exact hrows
  · rw [update_of_ne hp]

/-- Lock books survive the locking of an unpublished row. -/
theorem LockBooks.lock (h : LockBooks s) {row : OutboxEvent}
    {snapshot batch : List OutboxEvent} {event : OutboxEvent} {rest : List OutboxEvent}
    (hb : s.batches b = some (.selecting (event :: rest) batch)) (hrow : row ∈ s.table)
    (hopen : row.published = false) (hfree : s.locks row.id = none) :
    LockBooks (s.lock b row snapshot batch) := by
  have hbatch : s.held b = batch := held_of_batch hb
  have hbatches : (s.lock b row snapshot batch).batches =
      update s.batches b (some (.selecting snapshot (batch ++ [row]))) := rfl
  have hheld : (s.lock b row snapshot batch).held = update s.held b (batch ++ [row]) :=
    held_update hbatches
  have hnew : ∀ p, row.id ∉ (s.held p).map OutboxEvent.id := by
    intro p hmem
    rw [(h.locks row.id p).mpr hmem] at hfree
    cases hfree
  constructor
  · exact h.unique
  · intro id p
    rw [hheld]
    change update s.locks row.id (some b) id = some p ↔ _
    by_cases hp : p = b
    · subst hp
      rw [update_self, List.map_append, List.mem_append, ← hbatch, ← h.locks]
      by_cases hid : id = row.id
      · simp [hid]
      · simp [hid]
    · rw [update_of_ne hp, ← h.locks]
      by_cases hid : id = row.id
      · subst hid
        simp [hfree, Ne.symm hp]
      · simp [hid]
  · intro p
    rw [hheld]
    by_cases hp : p = b
    · subst hp
      rw [update_self, List.map_append]
      refine List.nodup_append.mpr ⟨hbatch ▸ h.distinct p, List.nodup_singleton _, ?_⟩
      intro id hid id' hid' heq
      obtain rfl := List.mem_singleton.mp hid'
      exact hnew p (hbatch.symm ▸ heq ▸ hid)
    · rw [update_of_ne hp]
      exact h.distinct p
  · intro p e he
    rw [hheld] at he
    by_cases hp : p = b
    · subst hp
      rw [update_self] at he
      rcases List.mem_append.mp he with hold | hlast
      · exact h.current p e (hbatch.symm ▸ hold)
      · obtain rfl := List.mem_singleton.mp hlast
        exact ⟨e, hrow, hopen, rfl⟩
    · rw [update_of_ne hp] at he
      exact h.current p e he

/-- Lock books survive the end of a batch, which may rewrite the rows that it
holds. -/
theorem LockBooks.release (h : LockBooks s) {f : OutboxEvent → OutboxEvent}
    (htable : t.table = s.table.map f) (hf : ∀ row, (f row).content = row.content)
    (hkeep : ∀ row, row.id ∉ (s.held b).map OutboxEvent.id → f row = row)
    (hlocks : t.locks = (s.finish b).locks)
    (hbatch : t.batches = update s.batches b (some .finished)) : LockBooks t := by
  have hheld : t.held = update s.held b [] := held_update hbatch
  constructor
  · have hcontents : (s.table.map f).map OutboxEvent.content =
        s.table.map OutboxEvent.content := by
      rw [List.map_map]
      exact List.map_congr_left fun row _ => hf row
    rw [htable, ids_of_contents hcontents]
    exact h.unique
  · intro id p
    rw [hheld, hlocks]
    change (if s.locks id = some b then none else s.locks id) = some p ↔ _
    by_cases hp : p = b
    · subst hp
      rw [update_self]
      by_cases hid : s.locks id = some p
      · simp [hid]
      · simp [hid]
    · rw [update_of_ne hp, ← h.locks]
      by_cases hid : s.locks id = some b
      · simp [hid, Ne.symm hp]
      · simp [hid]
  · intro p
    rw [hheld]
    by_cases hp : p = b
    · subst hp
      rw [update_self]
      exact List.nodup_nil
    · rw [update_of_ne hp]
      exact h.distinct p
  · intro p e he
    rw [hheld] at he
    by_cases hp : p = b
    · subst hp
      rw [update_self] at he
      cases he
    · rw [update_of_ne hp] at he
      obtain ⟨row, hrow, hopen, hcontent⟩ := h.current p e he
      have hother : row.id ∉ (s.held b).map OutboxEvent.id := by
        intro hmem
        have hmine : row.id ∈ (s.held p).map OutboxEvent.id :=
          id_of_content hcontent ▸ List.mem_map_of_mem he
        exact hp (h.exclusive hmem hmine).symm
      refine ⟨row, ?_, hopen, hcontent⟩
      rw [htable]
      exact List.mem_map.mpr ⟨row, hrow, hkeep row hother⟩

/-- Lock books survive new rows. -/
theorem LockBooks.insert (h : LockBooks s) {rows : List OutboxEvent}
    (hnew : insertable s.table rows) : LockBooks (s.insert rows) where
  unique := by
    change ((s.table ++ rows).map OutboxEvent.id).Nodup
    rw [List.map_append]
    refine List.nodup_append.mpr ⟨h.unique, hnew.1, ?_⟩
    intro id hid id' hid' heq
    obtain ⟨row, hrow, rfl⟩ := List.mem_map.mp hid'
    exact (hnew.2 row hrow).2.2 (heq ▸ hid)
  locks := h.locks
  distinct := h.distinct
  current := by
    intro p e he
    obtain ⟨row, hrow, hrest⟩ := h.current p e he
    exact ⟨row, List.mem_append_left _ hrow, hrest⟩

/-- A row that the COMMIT of a batch does not touch. -/
theorem writeBack_of_notMem {done : List OutboxEvent} {row : OutboxEvent}
    (h : row.id ∉ done.map OutboxEvent.id) : writeBack done row = row := by
  unfold writeBack
  split
  case h_1 event hfind =>
      have hid : event.id = row.id := by simpa using List.find?_some hfind
      exact absurd (List.mem_map.mpr ⟨event, List.mem_of_find?_eq_some hfind, hid⟩) h
  case h_2 => rfl

/-- The row that a lookup finds is in the table. -/
theorem row_mem {id : EventId} {row : OutboxEvent} (h : s.row id = some row) :
    row ∈ s.table ∧ row.id = id :=
  ⟨List.mem_of_find?_eq_some h, by simpa using List.find?_some h⟩

/-- **One step keeps the lock books.** -/
theorem step_lockBooks (h : LockBooks s) (hstep : outboxStep s a = some t) : LockBooks t := by
  cases a with
  | insert rows =>
      obtain ⟨hnew, rfl⟩ := outbox_insert hstep
      exact h.insert hnew
  | select b snapshot =>
      obtain ⟨hnone, _, rfl⟩ := outbox_select hstep
      exact h.move rfl rfl rfl (by rw [held_of_none hnone]; rfl)
  | scan b =>
      obtain ⟨_, batch, hb, rfl | ⟨_, _, rfl, _, ⟨_, rfl⟩ | ⟨row, hrow, hopen, hfree, rfl⟩⟩⟩ :=
        outbox_scan hstep
      · exact h.move rfl rfl rfl (by rw [held_of_batch hb]; rfl)
      · exact h.move rfl rfl rfl (by rw [held_of_batch hb]; rfl)
      · exact h.lock hb (row_mem hrow).1 hopen hfree
  | publish b =>
      obtain ⟨_, _, _, hb, rfl⟩ := outbox_publish hstep
      exact h.move rfl rfl rfl (by rw [held_of_batch hb]; rfl)
  | enqueue b now =>
      obtain ⟨event, todo, done, hb, rfl⟩ := outbox_enqueue hstep
      refine h.move rfl rfl rfl ?_
      rw [held_of_batch hb]
      simp [BatchStage.rows, content_mark]
  | commit b =>
      obtain ⟨done, hb, rfl⟩ := outbox_commit hstep
      have hheld : s.held b = done ++ [] := held_of_batch hb
      refine h.release rfl (fun _ => content_writeBack) (fun row hout => ?_) rfl rfl
      rw [hheld, List.append_nil] at hout
      exact writeBack_of_notMem hout
  | fail b =>
      obtain ⟨_, _, _, rfl⟩ := outbox_fail hstep
      exact h.release (List.map_id _).symm (fun _ => rfl) (fun _ _ => rfl) rfl rfl

end Locks

/-- What went out was made from rows of the table, and what is marked published
went out. -/
structure DeliveryBooks (s : OutboxState) : Prop where
  genuine : ∀ out ∈ s.published, ∃ row ∈ s.table, out = (row.id, row.message)
  notified : ∀ out ∈ s.enqueued, ∃ row ∈ s.table, out = (row.id, row.notification)
  delivered : ∀ row ∈ s.table, row.published = true →
    (row.id, row.message) ∈ s.published ∧ (row.id, row.notification) ∈ s.enqueued
  sent : ∀ b, ∀ event ∈ s.sentBy b, (event.id, event.message) ∈ s.published
  done : ∀ b, ∀ event ∈ s.doneBy b,
    event.published = true ∧ (event.id, event.notification) ∈ s.enqueued

section Deliveries

variable {s t : OutboxState} {b : BatchId} {stage : BatchStage} {a : OutboxAction}

theorem sentBy_of_batch (h : s.batches b = some stage) : s.sentBy b = stage.sent := by
  rw [OutboxState.sentBy, h]
  rfl

theorem doneBy_of_batch (h : s.batches b = some stage) : s.doneBy b = stage.done := by
  rw [OutboxState.doneBy, h]
  rfl

/-- Membership in a family of lists after one of them was written. -/
theorem mem_update {made : BatchId → List OutboxEvent} {l : List OutboxEvent} {p : BatchId}
    {event : OutboxEvent} (h : event ∈ update made b l p) :
    (p = b ∧ event ∈ l) ∨ event ∈ made p := by
  by_cases hp : p = b
  · subst hp
    rw [update_self] at h
    exact Or.inl ⟨rfl, h⟩
  · rw [update_of_ne hp] at h
    exact Or.inr h

/-- Delivery books survive a step of one batch that sends nothing and writes
nothing. -/
theorem DeliveryBooks.move (h : DeliveryBooks s) (htable : t.table = s.table)
    (hpublished : t.published = s.published) (henqueued : t.enqueued = s.enqueued)
    (hbatch : t.batches = update s.batches b (some stage)) (hsent : stage.sent = [])
    (hdone : stage.done = []) : DeliveryBooks t := by
  constructor
  · rw [htable, hpublished]
    exact h.genuine
  · rw [htable, henqueued]
    exact h.notified
  · rw [htable, hpublished, henqueued]
    exact h.delivered
  · intro p event hevent
    rw [sentBy_update hbatch, hsent] at hevent
    rw [hpublished]
    rcases mem_update hevent with ⟨_, hnil⟩ | hold
    · cases hnil
    · exact h.sent p event hold
  · intro p event hevent
    rw [doneBy_update hbatch, hdone] at hevent
    rw [henqueued]
    rcases mem_update hevent with ⟨_, hnil⟩ | hold
    · cases hnil
    · exact h.done p event hold

/-- Delivery books survive new rows. -/
theorem DeliveryBooks.insert (h : DeliveryBooks s) {rows : List OutboxEvent}
    (hnew : insertable s.table rows) : DeliveryBooks (s.insert rows) where
  genuine := by
    intro out hout
    obtain ⟨row, hrow, heq⟩ := h.genuine out hout
    exact ⟨row, List.mem_append_left _ hrow, heq⟩
  notified := by
    intro out hout
    obtain ⟨row, hrow, heq⟩ := h.notified out hout
    exact ⟨row, List.mem_append_left _ hrow, heq⟩
  delivered := by
    intro row hrow hmarked
    rcases List.mem_append.mp hrow with hold | hadded
    · exact h.delivered row hold hmarked
    · rw [(hnew.2 row hadded).1] at hmarked
      cases hmarked
  sent := h.sent
  done := h.done

/-- Delivery books survive a publish. -/
theorem DeliveryBooks.publish (h : DeliveryBooks s) (hlocks : LockBooks s) {event : OutboxEvent}
    {todo done : List OutboxEvent} (hb : s.batches b = some (.publishing (event :: todo) done)) :
    DeliveryBooks { s.setBatch b (.enqueueing event todo done) with
      published := s.published ++ [(event.id, event.message)] } := by
  have hheld : event ∈ s.held b := by
    rw [held_of_batch hb]
    exact List.mem_append_right _ List.mem_cons_self
  obtain ⟨row, hrow, _, hcontent⟩ := hlocks.current b event hheld
  constructor
  · intro out hout
    rcases List.mem_append.mp hout with hold | hlast
    · exact h.genuine out hold
    · obtain rfl := List.mem_singleton.mp hlast
      refine ⟨row, hrow, ?_⟩
      rw [id_of_content hcontent, message_of_content hcontent]
  · exact h.notified
  · intro row' hrow' hmarked
    obtain ⟨hpublished, henqueued⟩ := h.delivered row' hrow' hmarked
    exact ⟨List.mem_append_left _ hpublished, henqueued⟩
  · intro p e he
    change e ∈ (s.setBatch b (.enqueueing event todo done)).sentBy p at he
    rw [sentBy_update (s := s) rfl] at he
    rcases mem_update he with ⟨rfl, hmine⟩ | hold
    · rcases List.mem_append.mp hmine with hdone | hlast
      · exact List.mem_append_left _ (h.sent p e (sentBy_of_batch hb ▸ hdone))
      · obtain rfl := List.mem_singleton.mp hlast
        exact List.mem_append_right _ List.mem_cons_self
    · exact List.mem_append_left _ (h.sent p e hold)
  · intro p e he
    change e ∈ (s.setBatch b (.enqueueing event todo done)).doneBy p at he
    rw [doneBy_update (s := s) rfl] at he
    rcases mem_update he with ⟨rfl, hmine⟩ | hold
    · exact h.done p e (doneBy_of_batch hb ▸ hmine)
    · exact h.done p e hold

/-- Delivery books survive an enqueue. -/
theorem DeliveryBooks.enqueue (h : DeliveryBooks s) (hlocks : LockBooks s) {event : OutboxEvent}
    {todo done : List OutboxEvent} {now : Timestamp}
    (hb : s.batches b = some (.enqueueing event todo done)) :
    DeliveryBooks { s.setBatch b (.publishing todo (done ++ [event.mark now])) with
      enqueued := s.enqueued ++ [(event.id, event.notification)] } := by
  have hheld : event ∈ s.held b := by
    rw [held_of_batch hb]
    exact List.mem_append_right _ List.mem_cons_self
  obtain ⟨row, hrow, _, hcontent⟩ := hlocks.current b event hheld
  constructor
  · exact h.genuine
  · intro out hout
    rcases List.mem_append.mp hout with hold | hlast
    · exact h.notified out hold
    · obtain rfl := List.mem_singleton.mp hlast
      refine ⟨row, hrow, ?_⟩
      rw [id_of_content hcontent, notification_of_content hcontent]
  · intro row' hrow' hmarked
    obtain ⟨hpublished, henqueued⟩ := h.delivered row' hrow' hmarked
    exact ⟨hpublished, List.mem_append_left _ henqueued⟩
  · intro p e he
    change e ∈ (s.setBatch b (.publishing todo (done ++ [event.mark now]))).sentBy p at he
    rw [sentBy_update (s := s) rfl] at he
    rcases mem_update he with ⟨rfl, hmine⟩ | hold
    · have hsent := h.sent p
      rw [sentBy_of_batch hb] at hsent
      rcases List.mem_append.mp hmine with hdone | hlast
      · exact hsent e (List.mem_append_left _ hdone)
      · obtain rfl := List.mem_singleton.mp hlast
        exact hsent event (List.mem_append_right _ List.mem_cons_self)
    · exact h.sent p e hold
  · intro p e he
    change e ∈ (s.setBatch b (.publishing todo (done ++ [event.mark now]))).doneBy p at he
    rw [doneBy_update (s := s) rfl] at he
    have hkeep : ∀ e : OutboxEvent, (e.published = true ∧ (e.id, e.notification) ∈ s.enqueued) →
        e.published = true ∧
          (e.id, e.notification) ∈ s.enqueued ++ [(event.id, event.notification)] :=
      fun e hold => ⟨hold.1, List.mem_append_left _ hold.2⟩
    rcases mem_update he with ⟨rfl, hmine⟩ | hold
    · rcases List.mem_append.mp hmine with hdone | hlast
      · exact hkeep e (h.done p e (doneBy_of_batch hb ▸ hdone))
      · obtain rfl := List.mem_singleton.mp hlast
        exact ⟨rfl, List.mem_append_right _ List.mem_cons_self⟩
    · exact hkeep e (h.done p e hold)

/-- A row that the COMMIT of a batch leaves unpublished is one that it does not
touch; any other is marked. -/
theorem writeBack_cases (h : DeliveryBooks s) {done : List OutboxEvent}
    (hb : s.batches b = some (.publishing [] done)) (row : OutboxEvent) :
    (row.id ∉ done.map OutboxEvent.id ∧ writeBack done row = row) ∨
      ∃ event ∈ done, event.id = row.id ∧ (writeBack done row).published = true := by
  by_cases hmem : row.id ∈ done.map OutboxEvent.id
  · right
    cases hfind : done.find? fun event => event.id = row.id with
    | none =>
        obtain ⟨event, hevent, hid⟩ := List.mem_map.mp hmem
        have hnone := List.find?_eq_none.mp hfind event hevent
        exact absurd (decide_eq_true hid) hnone
    | some event =>
        have hevent := List.mem_of_find?_eq_some hfind
        have hid : event.id = row.id := by simpa using List.find?_some hfind
        refine ⟨event, hevent, hid, ?_⟩
        rw [writeBack, hfind]
        exact (h.done b event (doneBy_of_batch hb ▸ hevent)).1
  · exact Or.inl ⟨hmem, writeBack_of_notMem hmem⟩

/-- Delivery books survive the COMMIT of a batch. -/
theorem DeliveryBooks.commit (h : DeliveryBooks s) (hlocks : LockBooks s)
    {done : List OutboxEvent} (hb : s.batches b = some (.publishing [] done)) :
    DeliveryBooks (s.commit b done) := by
  have hheld : s.held b = done ++ [] := held_of_batch hb
  rw [List.append_nil] at hheld
  have hbatches : (s.commit b done).batches = update s.batches b (some .finished) := rfl
  have hkeep : ∀ row ∈ s.table, ∃ row' ∈ (s.commit b done).table, row'.content = row.content :=
    fun row hrow => ⟨_, List.mem_map_of_mem hrow, content_writeBack⟩
  have hfinished : ∀ {made : BatchId → List OutboxEvent} {p : BatchId} {e : OutboxEvent},
      e ∈ update made b [] p → e ∈ made p := by
    intro made p e he
    rcases mem_update he with ⟨_, hnil⟩ | hold
    · cases hnil
    · exact hold
  constructor
  · intro out hout
    obtain ⟨row, hrow, rfl⟩ := h.genuine out hout
    obtain ⟨row', hrow', hcontent⟩ := hkeep row hrow
    refine ⟨row', hrow', ?_⟩
    rw [id_of_content hcontent, message_of_content hcontent]
  · intro out hout
    obtain ⟨row, hrow, rfl⟩ := h.notified out hout
    obtain ⟨row', hrow', hcontent⟩ := hkeep row hrow
    refine ⟨row', hrow', ?_⟩
    rw [id_of_content hcontent, notification_of_content hcontent]
  · intro row' hrow' hmarked
    obtain ⟨row, hrow, rfl⟩ := List.mem_map.mp hrow'
    have hcontent : (writeBack done row).content = row.content := content_writeBack
    rw [id_of_content hcontent, message_of_content hcontent, notification_of_content hcontent]
    rcases writeBack_cases h hb row with ⟨_, hsame⟩ | ⟨event, hevent, hid, _⟩
    · rw [hsame] at hmarked
      exact h.delivered row hrow hmarked
    · obtain ⟨row₀, hrow₀, _, hcontent₀⟩ := hlocks.current b event (hheld ▸ hevent)
      obtain rfl : row₀ = row :=
        hlocks.eq_of_id hrow₀ hrow ((id_of_content hcontent₀).trans hid)
      rw [id_of_content hcontent₀, message_of_content hcontent₀,
        notification_of_content hcontent₀]
      exact ⟨h.sent b event (sentBy_of_batch hb ▸ hevent),
        (h.done b event (doneBy_of_batch hb ▸ hevent)).2⟩
  · intro p e he
    have hsent : (s.commit b done).sentBy = update s.sentBy b [] := sentBy_update hbatches
    rw [hsent] at he
    exact h.sent p e (hfinished he)
  · intro p e he
    have hdone : (s.commit b done).doneBy = update s.doneBy b [] := doneBy_update hbatches
    rw [hdone] at he
    exact h.done p e (hfinished he)

/-- **One step keeps the delivery books.** -/
theorem step_deliveryBooks (hlocks : LockBooks s) (h : DeliveryBooks s)
    (hstep : outboxStep s a = some t) : DeliveryBooks t := by
  cases a with
  | insert rows =>
      obtain ⟨hnew, rfl⟩ := outbox_insert hstep
      exact h.insert hnew
  | select b snapshot =>
      obtain ⟨_, _, rfl⟩ := outbox_select hstep
      exact h.move rfl rfl rfl rfl rfl rfl
  | scan b =>
      obtain ⟨_, _, _, rfl | ⟨_, _, _, _, ⟨_, rfl⟩ | ⟨_, _, _, _, rfl⟩⟩⟩ := outbox_scan hstep
      · exact h.move rfl rfl rfl rfl rfl rfl
      · exact h.move rfl rfl rfl rfl rfl rfl
      · exact h.move rfl rfl rfl rfl rfl rfl
  | publish b =>
      obtain ⟨_, _, _, hb, rfl⟩ := outbox_publish hstep
      exact h.publish hlocks hb
  | enqueue b now =>
      obtain ⟨_, _, _, hb, rfl⟩ := outbox_enqueue hstep
      exact h.enqueue hlocks hb
  | commit b =>
      obtain ⟨_, hb, rfl⟩ := outbox_commit hstep
      exact h.commit hlocks hb
  | fail b =>
      obtain ⟨_, _, _, rfl⟩ := outbox_fail hstep
      exact h.move rfl rfl rfl rfl rfl rfl

end Deliveries

end RideFlow
