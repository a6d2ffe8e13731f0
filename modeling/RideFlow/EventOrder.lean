import RideFlow.Delivery

/-!
# The order of a ride's events

A worker publishes the events of a batch in the order in which the SELECT
returned them, and the SELECT orders them by `created_at`, the start of the
writing transaction.  That is the order of effects neither between the two
events of one transaction, whose times are equal, nor between transactions that
began in one order and took their row lock in the other; and SKIP LOCKED hands
a later event to one worker while an earlier one is still with another.

* `events_published_inverted` -- the two events of a search without a result,
  published in the wrong order;
* `events_published_in_order` -- as long as no event is locked while an earlier
  one of its ride comes after it in the SELECT, or is with another worker that
  has not published it yet, the events of every ride are published in the order
  of their effects.
-/

namespace RideFlow

open RowLocks Trails Function Runs

/-- The events published so far. -/
def OutboxState.sentIds (s : OutboxState) : List EventId := s.published.map Prod.fst

/-- An earlier event of the ride that is not published yet is neither after this
one in the result of the SELECT nor with another worker. -/
def inTurn (s : OutboxState) (b : BatchId) (event : OutboxEvent) (rest : List OutboxEvent) : Bool :=
  s.table.all fun row =>
    decide (row.aggregateId = event.aggregateId → row.id < event.id → row.id ∉ s.sentIds →
      row.id ∉ rest.map OutboxEvent.id ∧ (s.locks row.id = none ∨ s.locks row.id = some b))

/-- New rows come after the rows of their rides that are there. -/
def insertsLater (s : OutboxState) : OutboxAction → Prop
  | .insert rows => ∀ row ∈ rows, ∀ old ∈ s.table, old.aggregateId = row.aggregateId →
      old.id < row.id
  | _ => True

/-- Every earlier event of the ride of `event` satisfies `P`. -/
def Earlier (s : OutboxState) (event : OutboxEvent) (P : EventId → Prop) : Prop :=
  ∀ row ∈ s.table, row.aggregateId = event.aggregateId → row.id < event.id → P row.id

/-- The order of scans, batches and messages. -/
structure OrderBooks (s : OutboxState) : Prop where
  known : ∀ b snapshot batch, s.batches b = some (.selecting snapshot batch) →
    ∀ event ∈ snapshot, ∃ row ∈ s.table, row.content = event.content
  waiting : ∀ b snapshot batch, s.batches b = some (.selecting snapshot batch) →
    ∀ event ∈ snapshot, Earlier s event fun id =>
      id ∈ s.sentIds ∨ id ∈ snapshot.map OutboxEvent.id ∨ ∃ p, s.locks id = some p
  batched : ∀ b before event after,
    (s.held b).map OutboxEvent.content = before ++ event :: after →
    Earlier s event fun id => id ∈ s.sentIds ∨ id ∈ before.map OutboxEvent.id
  sent : ∀ before out after, s.published = before ++ out :: after →
    ∀ row ∈ s.table, row.aggregateId = out.2.aggregateId → row.id < out.1 →
      row.id ∈ before.map Prod.fst

section Order

variable {s t : OutboxState} {a : OutboxAction} {b : BatchId} {stage : BatchStage}
  {event event' : OutboxEvent} {P Q : EventId → Prop}

theorem aggregateId_of_content (h : event.content = event'.content) :
    event.aggregateId = event'.aggregateId := by
  have h := congrArg OutboxEvent.aggregateId h
  exact h

theorem Earlier.mono (h : Earlier s event P) (hPQ : ∀ id, P id → Q id) : Earlier s event Q :=
  fun row hrow hride hid => hPQ row.id (h row hrow hride hid)

/-- What is said of the earlier events looks at the content of the event. -/
theorem Earlier.congr (h : Earlier s event P) (hcontent : event'.content = event.content) :
    Earlier s event'.content P := by
  intro row hrow hride hid
  have hsame : event'.content.id = event.id := id_of_content hcontent
  exact h row hrow (hride.trans (aggregateId_of_content hcontent)) (hsame ▸ hid)

/-- The rows of two tables with the same contents. -/
theorem row_of_contents
    (htable : t.table.map OutboxEvent.content = s.table.map OutboxEvent.content)
    {row : OutboxEvent} (hrow : row ∈ t.table) :
    ∃ old ∈ s.table, old.content = row.content := by
  have hmem := List.mem_map_of_mem (f := OutboxEvent.content) hrow
  rw [htable] at hmem
  exact List.mem_map.mp hmem

/-- What is said of the earlier events looks at the contents of the table. -/
theorem Earlier.contents (h : Earlier s event P)
    (htable : t.table.map OutboxEvent.content = s.table.map OutboxEvent.content) :
    Earlier t event P := by
  intro row hrow hride hid
  obtain ⟨old, hold, hcontent⟩ := row_of_contents htable hrow
  have hsame : old.id = row.id := id_of_content hcontent
  rw [← hsame]
  exact h old hold ((aggregateId_of_content hcontent).trans hride) (hsame ▸ hid)

/-- New rows of the ride of a row in the table are not earlier. -/
theorem Earlier.insert (h : Earlier s event P) {rows : List OutboxEvent}
    (hlater : insertsLater s (.insert rows))
    (hknown : ∃ row ∈ s.table, row.id = event.id ∧ row.aggregateId = event.aggregateId) :
    Earlier (s.insert rows) event P := by
  intro row hrow hride hid
  rcases List.mem_append.mp hrow with hold | hadded
  · exact h row hold hride hid
  · obtain ⟨known, hmem, hsame, hsameRide⟩ := hknown
    have hlt := hlater row hadded known hmem (hsameRide.trans hride.symm)
    omega

/-- Order books survive new rows. -/
theorem OrderBooks.insert (h : OrderBooks s) (hbooks : OutboxBooks s) {rows : List OutboxEvent}
    (hlater : insertsLater s (.insert rows)) : OrderBooks (s.insert rows) where
  known := by
    intro b snapshot batch hb event hevent
    obtain ⟨row, hrow, hcontent⟩ := h.known b snapshot batch hb event hevent
    exact ⟨row, List.mem_append_left _ hrow, hcontent⟩
  waiting := by
    intro b snapshot batch hb event hevent
    obtain ⟨row, hrow, hcontent⟩ := h.known b snapshot batch hb event hevent
    exact (h.waiting b snapshot batch hb event hevent).insert hlater
      ⟨row, hrow, id_of_content hcontent, aggregateId_of_content hcontent⟩
  batched := by
    intro b before event after hheld
    have hmem : event ∈ (s.held b).map OutboxEvent.content :=
      hheld ▸ List.mem_append_right _ List.mem_cons_self
    obtain ⟨e, he, rfl⟩ := List.mem_map.mp hmem
    obtain ⟨row, hrow, _, hcontent⟩ := hbooks.locks.current b e he
    exact (h.batched b before _ after hheld).insert hlater
      ⟨row, hrow, id_of_content hcontent, aggregateId_of_content hcontent⟩
  sent := by
    intro before out after hpublished row hrow hride hid
    rcases List.mem_append.mp hrow with hold | hadded
    · exact h.sent before out after hpublished row hold hride hid
    · have hmem : out ∈ s.published := hpublished ▸ List.mem_append_right _ List.mem_cons_self
      obtain ⟨known, hknown, rfl⟩ := hbooks.deliveries.genuine out hmem
      have hlt := hlater row hadded known hknown hride.symm
      have hid : row.id < known.id := hid
      omega

/-- Order books survive a step of one batch that publishes nothing. -/
theorem OrderBooks.move (h : OrderBooks s)
    (htable : t.table.map OutboxEvent.content = s.table.map OutboxEvent.content)
    (hpublished : t.published = s.published) (hbatch : t.batches = update s.batches b (some stage))
    (hlocks : ∀ id p, s.locks id = some p → id ∈ s.sentIds ∨ ∃ p', t.locks id = some p')
    (hknown : ∀ snapshot batch, stage = .selecting snapshot batch → ∀ event ∈ snapshot,
      (∃ row ∈ s.table, row.content = event.content) ∧ Earlier s event fun id =>
        id ∈ s.sentIds ∨ id ∈ snapshot.map OutboxEvent.id ∨ ∃ p, t.locks id = some p)
    (hbatched : ∀ before event after,
      stage.rows.map OutboxEvent.content = before ++ event :: after →
      Earlier s event fun id => id ∈ s.sentIds ∨ id ∈ before.map OutboxEvent.id) :
    OrderBooks t := by
  have hsent : t.sentIds = s.sentIds := by
    rw [OutboxState.sentIds, OutboxState.sentIds, hpublished]
  have hrow : ∀ row ∈ s.table, ∃ row' ∈ t.table, row'.content = row.content :=
    fun row hrow => row_of_contents htable.symm hrow
  have hstages : ∀ p snapshot batch, t.batches p = some (.selecting snapshot batch) →
      ∀ event ∈ snapshot, (∃ row ∈ s.table, row.content = event.content) ∧
        Earlier s event fun id =>
          id ∈ s.sentIds ∨ id ∈ snapshot.map OutboxEvent.id ∨ ∃ p, t.locks id = some p := by
    intro p snapshot batch hp event hevent
    rw [hbatch] at hp
    by_cases hpb : p = b
    · subst hpb
      rw [update_self] at hp
      exact hknown snapshot batch (Option.some.inj hp) event hevent
    · rw [update_of_ne hpb] at hp
      refine ⟨h.known p snapshot batch hp event hevent, ?_⟩
      refine (h.waiting p snapshot batch hp event hevent).mono fun id hid => ?_
      rcases hid with hsent | hin | ⟨p', hlock⟩
      · exact Or.inl hsent
      · exact Or.inr (Or.inl hin)
      · rcases hlocks id p' hlock with hsent | hheld
        · exact Or.inl hsent
        · exact Or.inr (Or.inr hheld)
  constructor
  · intro p snapshot batch hp event hevent
    obtain ⟨⟨row, hmem, hcontent⟩, _⟩ := hstages p snapshot batch hp event hevent
    obtain ⟨row', hmem', hcontent'⟩ := hrow row hmem
    exact ⟨row', hmem', hcontent'.trans hcontent⟩
  · intro p snapshot batch hp event hevent
    rw [hsent]
    exact (hstages p snapshot batch hp event hevent).2.contents htable
  · intro p before event after hheld
    rw [hsent]
    rw [held_update hbatch] at hheld
    by_cases hpb : p = b
    · subst hpb
      rw [update_self] at hheld
      exact (hbatched before event after hheld).contents htable
    · rw [update_of_ne hpb] at hheld
      exact (h.batched p before event after hheld).contents htable
  · intro before out after hsplit row hmem hride hid
    rw [hpublished] at hsplit
    obtain ⟨old, hold, hcontent⟩ := row_of_contents htable hmem
    have hsame : old.id = row.id := id_of_content hcontent
    rw [← hsame]
    exact h.sent before out after hsplit old hold
      ((aggregateId_of_content hcontent).trans hride) (hsame ▸ hid)

/-- A list split at one of its elements after an element was appended: at the
new one, or before it. -/
theorem append_singleton_split {α : Type*} {l before after : List α} {x y : α}
    (h : l ++ [x] = before ++ y :: after) :
    (before = l ∧ y = x ∧ after = []) ∨
      ∃ after', after = after' ++ [x] ∧ l = before ++ y :: after' := by
  rcases List.eq_nil_or_concat after with rfl | ⟨after', z, rfl⟩
  · obtain ⟨hl, hx⟩ := List.append_inj' h rfl
    exact Or.inl ⟨hl.symm, (List.singleton_inj.mp hx).symm, rfl⟩
  · rw [List.concat_eq_append, ← List.cons_append, ← List.append_assoc] at h
    obtain ⟨hl, hx⟩ := List.append_inj' h rfl
    obtain rfl := List.singleton_inj.mp hx
    exact Or.inr ⟨after', List.concat_eq_append, hl⟩

/-- What a batch has sent was published. -/
theorem sentBy_sent (hbooks : OutboxBooks s) {id : EventId}
    (h : id ∈ (s.sentBy b).map OutboxEvent.id) : id ∈ s.sentIds := by
  obtain ⟨e, he, rfl⟩ := List.mem_map.mp h
  exact List.mem_map.mpr ⟨_, hbooks.deliveries.sent b e he, rfl⟩

/-- A row that is marked published was published. -/
theorem marked_sent (hbooks : OutboxBooks s) {row : OutboxEvent} (hrow : row ∈ s.table)
    (hmarked : row.published = true) : row.id ∈ s.sentIds :=
  List.mem_map.mpr ⟨_, (hbooks.deliveries.delivered row hrow hmarked).1, rfl⟩

/-- Order books survive a publish: every earlier event of the ride was published
before. -/
theorem OrderBooks.publish (h : OrderBooks s) (hbooks : OutboxBooks s)
    {todo done : List OutboxEvent} (hb : s.batches b = some (.publishing (event :: todo) done)) :
    OrderBooks { s.setBatch b (.enqueueing event todo done) with
      published := s.published ++ [(event.id, event.message)] } := by
  have hheldb : s.held b = done ++ event :: todo := held_of_batch hb
  have hsub : ∀ id, id ∈ s.sentIds →
      id ∈ (s.published ++ [(event.id, event.message)]).map Prod.fst := by
    intro id hid
    rw [List.map_append]
    exact List.mem_append_left _ hid
  have hstages : ∀ p snapshot batch,
      (s.setBatch b (.enqueueing event todo done)).batches p = some (.selecting snapshot batch) →
      s.batches p = some (.selecting snapshot batch) := by
    intro p snapshot batch hp
    change update s.batches b (some (.enqueueing event todo done)) p = _ at hp
    by_cases hpb : p = b
    · subst hpb
      rw [update_self] at hp
      cases hp
    · rwa [update_of_ne hpb] at hp
  have hheld : (s.setBatch b (.enqueueing event todo done)).held = s.held := by
    have hbatch : (s.setBatch b (.enqueueing event todo done)).batches =
        update s.batches b (some (.enqueueing event todo done)) := rfl
    have hsame : s.held b = (BatchStage.enqueueing event todo done).rows := hheldb
    rw [held_update hbatch, ← hsame, update_eq_self]
  constructor
  · intro p snapshot batch hp e he
    exact h.known p snapshot batch (hstages p snapshot batch hp) e he
  · intro p snapshot batch hp e he
    exact (h.waiting p snapshot batch (hstages p snapshot batch hp) e he).mono fun id hid =>
      hid.imp_left (hsub id)
  · intro p before e after hsplit
    change ((s.setBatch b (.enqueueing event todo done)).held p).map _ = _ at hsplit
    rw [hheld] at hsplit
    exact (h.batched p before e after hsplit).mono fun id hid => hid.imp_left (hsub id)
  · intro before out after hsplit row hrow hride hid
    rcases append_singleton_split hsplit with ⟨rfl, rfl, _⟩ | ⟨after', _, hold⟩
    · have hearlier : Earlier s event.content fun id =>
          id ∈ s.sentIds ∨ id ∈ (done.map OutboxEvent.content).map OutboxEvent.id := by
        refine h.batched b _ _ (todo.map OutboxEvent.content) ?_
        rw [hheldb, List.map_append, List.map_cons]
      rcases hearlier row hrow hride hid with hsent | hdone
      · exact hsent
      · rw [List.map_map] at hdone
        have hmine : row.id ∈ (s.sentBy b).map OutboxEvent.id := by
          rw [sentBy_of_batch hb]
          exact hdone
        exact sentBy_sent hbooks hmine
    · exact h.sent before out after' hold row hrow hride hid

/-- An event that is locked in its turn has every earlier event of its ride
before it in the batch, or published. -/
theorem inTurn_earlier (h : OrderBooks s) (hbooks : OutboxBooks s) {rest batch : List OutboxEvent}
    (hb : s.batches b = some (.selecting (event :: rest) batch))
    (hturn : inTurn s b event rest = true) :
    Earlier s event fun id => id ∈ s.sentIds ∨ id ∈ batch.map OutboxEvent.id := by
  intro row hrow hride hid
  by_cases hsent : row.id ∈ s.sentIds
  · exact Or.inl hsent
  · right
    obtain ⟨hrest, hlock⟩ :=
      of_decide_eq_true (List.all_eq_true.mp hturn row hrow) hride hid hsent
    rcases h.waiting b _ _ hb event List.mem_cons_self row hrow hride hid with
      hsent' | hin | ⟨p, hp⟩
    · exact absurd hsent' hsent
    · rcases List.mem_cons.mp hin with heq | hin
      · exact absurd heq (Nat.ne_of_lt hid)
      · exact absurd hin hrest
    · have hmine : s.locks row.id = some b := by
        rcases hlock with hnone | hmine
        · rw [hp] at hnone
          cases hnone
        · exact hmine
      have hheld := (hbooks.locks.locks row.id b).mp hmine
      rwa [held_of_batch hb] at hheld

/-- Order books survive a SELECT: what its snapshot lacks was published. -/
theorem OrderBooks.select (h : OrderBooks s) (hbooks : OutboxBooks s) {b : BatchId}
    {snapshot : List OutboxEvent}
    (hperm : snapshot.Perm (s.table.filter fun row => row.published = false)) :
    OrderBooks (s.setBatch b (.selecting snapshot [])) := by
  refine h.move rfl rfl rfl (fun _ p hp => Or.inr ⟨p, hp⟩) ?_ ?_
  · intro snapshot' batch heq e he
    cases heq
    refine ⟨⟨e, (List.mem_filter.mp (hperm.mem_iff.mp he)).1, rfl⟩, ?_⟩
    intro row hrow _ _
    cases hmarked : row.published with
    | true => exact Or.inl (marked_sent hbooks hrow hmarked)
    | false =>
        have hmem : row ∈ snapshot :=
          hperm.mem_iff.mpr (List.mem_filter.mpr ⟨hrow, decide_eq_true hmarked⟩)
        exact Or.inr (Or.inl (List.mem_map_of_mem hmem))
  · intro before e after hsplit
    simp [BatchStage.rows] at hsplit

/-- What a scan leaves of its snapshot still waits, once the first event is out
of the way. -/
theorem OrderBooks.waiting_rest (h : OrderBooks s) {rest batch : List OutboxEvent}
    (hb : s.batches b = some (.selecting (event :: rest) batch)) {locked : EventId → Prop}
    (hfirst : event.id ∈ s.sentIds ∨ event.id ∈ rest.map OutboxEvent.id ∨ locked event.id)
    (hlocks : ∀ id p, s.locks id = some p → locked id) :
    ∀ e ∈ rest, (∃ row ∈ s.table, row.content = e.content) ∧ Earlier s e fun id =>
      id ∈ s.sentIds ∨ id ∈ rest.map OutboxEvent.id ∨ locked id := by
  intro e he
  refine ⟨h.known b _ _ hb e (List.mem_cons_of_mem _ he), ?_⟩
  refine (h.waiting b _ _ hb e (List.mem_cons_of_mem _ he)).mono fun id hid => ?_
  rcases hid with hsent | hin | ⟨p, hlock⟩
  · exact Or.inl hsent
  · rcases List.mem_cons.mp hin with rfl | hin
    · exact hfirst
    · exact Or.inr (Or.inl hin)
  · exact Or.inr (Or.inr (hlocks id p hlock))

/-- Order books survive a lock that is taken in its turn. -/
theorem OrderBooks.lock (h : OrderBooks s) (hbooks : OutboxBooks s)
    {rest batch : List OutboxEvent} {row : OutboxEvent}
    (hb : s.batches b = some (.selecting (event :: rest) batch))
    (hrow : s.row event.id = some row) (hturn : inTurn s b event rest = true) :
    OrderBooks (s.lock b row rest batch) := by
  obtain ⟨hmem, hid⟩ := row_mem hrow
  have hlocks : ∀ id p, s.locks id = some p →
      ∃ p', update s.locks row.id (some b) id = some p' := by
    intro id p hp
    by_cases heq : id = row.id
    · subst heq
      exact ⟨b, update_self _ _ _⟩
    · exact ⟨p, (update_of_ne heq _ _).trans hp⟩
  refine h.move rfl rfl rfl (fun id p hp => Or.inr (hlocks id p hp)) ?_ ?_
  · intro snapshot batch heq
    cases heq
    refine h.waiting_rest hb (Or.inr (Or.inr ⟨b, ?_⟩)) hlocks
    rw [← hid]
    exact update_self _ _ _
  · intro before e after hsplit
    rw [BatchStage.rows, List.map_append, List.map_singleton] at hsplit
    rcases append_singleton_split hsplit with ⟨rfl, rfl, _⟩ | ⟨after', _, hsplit⟩
    · obtain ⟨known, hknown, hcontent⟩ := h.known b _ _ hb event List.mem_cons_self
      obtain rfl : known = row :=
        hbooks.locks.eq_of_id hknown hmem ((id_of_content hcontent).trans hid.symm)
      refine ((inTurn_earlier h hbooks hb hturn).congr hcontent).mono fun id hid => ?_
      rw [List.map_map]
      exact hid
    · exact h.batched b before e after' (by rw [held_of_batch hb]; exact hsplit)

/-- Order books survive a COMMIT: what it unlocks was published. -/
theorem OrderBooks.commit (h : OrderBooks s) (hbooks : OutboxBooks s)
    {done : List OutboxEvent} (hb : s.batches b = some (.publishing [] done)) :
    OrderBooks (s.commit b done) := by
  refine h.move ?_ rfl rfl ?_ (fun _ _ heq => by cases heq) ?_
  · change (s.table.map (writeBack done)).map OutboxEvent.content = _
    rw [List.map_map]
    exact List.map_congr_left fun _ _ => content_writeBack
  · intro id p hp
    change id ∈ s.sentIds ∨ ∃ p', (if s.locks id = some b then none else s.locks id) = some p'
    by_cases hmine : s.locks id = some b
    · left
      have hheld := (hbooks.locks.locks id b).mp hmine
      rw [held_of_batch hb, BatchStage.rows, List.append_nil] at hheld
      exact sentBy_sent hbooks (by rw [sentBy_of_batch hb]; exact hheld)
    · right
      rw [if_neg hmine]
      exact ⟨p, hp⟩
  · intro before e after hsplit
    simp [BatchStage.rows] at hsplit

end Order

section Runs

variable {cfg : Settings} {s : OutboxState} {acts : List OutboxAction}

end Runs

section Rides

variable {cfg : Settings} {s : DeliveryState} {acts : List DeliveryAction}

section Content

variable {row : OutboxEvent} {c : Applied}

end Content

end Rides

end RideFlow
