import RideFlow.Idempotency

/-!
# Idempotency across passengers

Records are looked up by key and scope; nothing in them names the passenger
who stored them.  A key that two passengers use, by chance or on purpose, is
one record: the second passenger is given the ride of the first, or a 409.

* `answered_with_a_strangers_ride` -- the first of the two;
* `passengers_separated` -- as long as the requests of passenger `u` meet only
  records that `u` stored, `u` is answered with rides of `u`, gets the 409 for
  a body of `u`'s own, and cannot tell what the other passengers do.
-/

namespace RideFlow

open Tables Function Runs

/-- Was this record stored for a ride of passenger `u`? -/
def IdempotencyRecord.isOf (u : UserId) (record : IdempotencyRecord) : Bool :=
  record.responseBody.passengerId = u

/-- The record under a request's key, if any, is of passenger `u`. -/
def meetsOwn (u : UserId) (s : CreateState) (call : CreateCall) : Bool :=
  (s.cached call).all (IdempotencyRecord.isOf u)

/-- The requests of `u` look up and store under keys of `u` only. -/
def ownRecords (u : UserId) (s : CreateState) : CreateAction → Bool
  | .lookup q =>
      match s.requests q with
      | some (call, .starting) => q.passenger ≠ u || meetsOwn u s call
      | _ => true
  | .commit q =>
      match s.requests q with
      | some (call, .storing _) => q.passenger ≠ u || meetsOwn u s call
      | _ => true
  | _ => true

/-- Passenger `u` was given a ride under the key of this call, for another
body. -/
def UsedBefore (u : UserId) (s : CreateState) (call : CreateCall) : Prop :=
  ∃ p call' response, p.passenger = u ∧
    s.requests p = some (call', .answered (.created response)) ∧
    call'.key? = call.key? ∧ call'.payload ≠ call.payload

/-- Every success response to `u` describes a ride of `u`, and the 409 goes to
`u` only after `u` has used the key with another body. -/
structure Separated (u : UserId) (s : CreateState) : Prop where
  own : ∀ q call response, q.passenger = u →
    s.requests q = some (call, .answered (.created response)) → response.passengerId = u
  reuse : ∀ q call, q.passenger = u →
    s.requests q = some (call, .answered (.rejected keyReused)) → UsedBefore u s call

/-- What passenger `u` takes part in: `u`'s own requests, the cleanups and the
clock. -/
def CreateAction.concerns (u : UserId) (a : CreateAction) : Bool :=
  a.request.all fun q => q.passenger = u

/-- What two states have in common for passenger `u`. -/
structure SameFor (u : UserId) (s t : CreateState) : Prop where
  requests : ∀ q, q.passenger = u → s.requests q = t.requests q
  records : s.records.filter (IdempotencyRecord.isOf u) =
    t.records.filter (IdempotencyRecord.isOf u)
  cleanups : s.cleanups = t.cleanups
  clock : s.clock = t.clock

theorem SameFor.symm {u : UserId} {s t : CreateState} (h : SameFor u s t) : SameFor u t s :=
  ⟨fun q hq => (h.requests q hq).symm, h.records.symm, h.cleanups.symm, h.clock.symm⟩

theorem SameFor.trans {u : UserId} {s t v : CreateState} (h : SameFor u s t)
    (h' : SameFor u t v) : SameFor u s v :=
  ⟨fun q hq => (h.requests q hq).trans (h'.requests q hq), h.records.trans h'.records,
    h.cleanups.trans h'.cleanups, h.clock.trans h'.clock⟩

section Lookups

variable {u : UserId} {s s' : CreateState} {call : CreateCall}

/-- Where a lookup meets a record of `u` or none, it is a lookup in the
records of `u`. -/
theorem lookup_own {records : List IdempotencyRecord} {key scope : String}
    (h : (getCachedResponse records key scope).all (IdempotencyRecord.isOf u) = true) :
    getCachedResponse records key scope =
      getCachedResponse (records.filter (IdempotencyRecord.isOf u)) key scope := by
  unfold getCachedResponse at h ⊢
  induction records with
  | nil => rfl
  | cons record records ih =>
      by_cases hmatch : record.key = key ∧ record.scope = scope
      · have hown : record.isOf u = true := by simpa [hmatch] using h
        simp [hown, hmatch]
      · have hrest := ih (by simpa [hmatch] using h)
        by_cases hown : record.isOf u = true
        · simpa [hown, hmatch] using hrest
        · simpa [hown, hmatch] using hrest

/-- A lookup that meets records of `u` only, in two states that are the same for
`u`, has the same result. -/
theorem cached_same (h : SameFor u s s') (hs : meetsOwn u s call = true)
    (hs' : meetsOwn u s' call = true) : s.cached call = s'.cached call := by
  unfold meetsOwn CreateState.cached at hs hs'
  unfold CreateState.cached
  cases hkey : call.key? with
  | none => rfl
  | some key =>
      rw [hkey, Option.bind_some] at hs hs'
      rw [Option.bind_some, Option.bind_some, lookup_own hs, lookup_own hs', h.records]

end Lookups

section Steps

variable {fns : BodyFunctions} {u : UserId} {s s' t t' : CreateState} {a : CreateAction}
  {q : CreateId} {call : CreateCall} {stage : CreateStage}

theorem not_concerned (hserved : a.request = some q) (hhidden : a.concerns u = false) :
    q.passenger ≠ u := by
  simpa [CreateAction.concerns, hserved] using hhidden

theorem concerned (hserved : a.request = some q) (hvisible : a.concerns u = true) :
    q.passenger = u := by
  simpa [CreateAction.concerns, hserved] using hvisible

/-- A step of another passenger's request. -/
theorem sameFor_move (hq : q.passenger ≠ u)
    (hreq : t.requests = update s.requests q (some (call, stage)))
    (hrecords : t.records.filter (IdempotencyRecord.isOf u) =
      s.records.filter (IdempotencyRecord.isOf u))
    (hcleanups : t.cleanups = s.cleanups) (hclock : t.clock = s.clock) : SameFor u s t where
  requests := by
    intro p hp
    have hne : p ≠ q := fun heq => hq (heq ▸ hp)
    rw [hreq, update_of_ne hne]
  records := hrecords.symm
  cleanups := hcleanups.symm
  clock := hclock.symm

/-- The record that a request stores is of its passenger. -/
theorem pendingRecords_of (h : CreateBooks fns s) {ride : Ride}
    (hreq : s.requests q = some (call, .storing ride)) :
    ∀ record ∈ pendingRecords fns call ride, record.responseBody.passengerId = q.passenger := by
  obtain ⟨id, rfl⟩ : ∃ id, ride = insertedRide fns call id := h.fine q call _ hreq
  intro record hmem
  cases hkey : call.key? with
  | none =>
      rw [pendingRecords_none hkey] at hmem
      cases hmem
  | some key =>
      rw [pendingRecords_some hkey] at hmem
      obtain rfl := List.mem_singleton.mp hmem
      exact h.caller q call _ hreq

/-- A COMMIT of another passenger's ride adds no record of `u`. -/
theorem sameFor_publish (h : CreateBooks fns s) {ride : Ride} (hq : q.passenger ≠ u)
    (hreq : s.requests q = some (call, .storing ride)) :
    SameFor u s (s.publish q call ride (pendingRecords fns call ride)) := by
  refine sameFor_move hq rfl ?_ rfl rfl
  change (s.records ++ pendingRecords fns call ride).filter _ = _
  rw [List.filter_append, List.append_right_eq_self, List.filter_eq_nil_iff]
  intro record hmem
  rw [IdempotencyRecord.isOf, pendingRecords_of h hreq record hmem]
  simpa using hq

/-- **What other passengers do is hidden from `u`.** -/
theorem hidden_step (h : CreateBooks fns s) (hhidden : a.concerns u = false)
    (hstep : createStep fns s a = some t) : SameFor u s t := by
  cases a with
  | begin q user payload key =>
      have hq := not_concerned rfl hhidden
      obtain ⟨_, _, _, rfl⟩ := create_begin hstep
      exact sameFor_move hq rfl rfl rfl rfl
  | lookup q =>
      have hq := not_concerned rfl hhidden
      obtain ⟨_, _, rfl⟩ := create_lookup hstep
      exact sameFor_move hq rfl rfl rfl rfl
  | insert q id =>
      have hq := not_concerned rfl hhidden
      obtain ⟨_, _, _, ⟨_, rfl⟩ | ⟨_, rfl⟩⟩ := create_insert hstep
      · exact sameFor_move hq rfl rfl rfl rfl
      · exact sameFor_move hq rfl rfl rfl rfl
  | commit q =>
      have hq := not_concerned rfl hhidden
      obtain ⟨call, ⟨ride, hreq, hcases⟩ | ⟨_, _, rfl⟩⟩ := create_commit hstep
      · rcases hcases with ⟨_, rfl⟩ | ⟨_, _, rfl⟩
        · exact sameFor_publish h hq hreq
        · exact sameFor_move hq rfl rfl rfl rfl
      · exact sameFor_move hq rfl rfl rfl rfl
  | abort q =>
      have hq := not_concerned rfl hhidden
      obtain ⟨_, _, _, _, rfl⟩ := create_abort hstep
      exact sameFor_move hq rfl rfl rfl rfl
  | beginCleanup _ => cases hhidden
  | deleteRecords _ => cases hhidden
  | commitCleanup _ => cases hhidden
  | abortCleanup _ => cases hhidden
  | advance _ => cases hhidden

/-- Two states that are the same for `u` stay so when one request moves to one
stage in both. -/
theorem SameFor.at_ (h : SameFor u s s') : SameFor u (s.at_ q call stage) (s'.at_ q call stage) where
  requests := by
    intro p hp
    by_cases hpq : p = q
    · subst hpq
      simp [CreateState.at_]
    · simpa [CreateState.at_, hpq] using h.requests p hp
  records := h.records
  cleanups := h.cleanups
  clock := h.clock

theorem SameFor.publish (h : SameFor u s s') {ride : Ride} {new : List IdempotencyRecord} :
    SameFor u (s.publish q call ride new) (s'.publish q call ride new) where
  requests := h.at_.requests
  records := by
    change (s.records ++ new).filter _ = (s'.records ++ new).filter _
    rw [List.filter_append, List.filter_append, h.records]
  cleanups := h.cleanups
  clock := h.clock

/-- Two states that are the same for `u` stay so when one cleanup moves to one
stage in both and treats the records of `u` alike. -/
theorem SameFor.cleanup (h : SameFor u s s') {c : CleanupId} {stage : CleanupStage}
    {records records' deleted deleted' : List IdempotencyRecord}
    (hrecords : records.filter (IdempotencyRecord.isOf u) =
      records'.filter (IdempotencyRecord.isOf u)) :
    SameFor u { s.setCleanup c stage with records := records, deleted := deleted }
      { s'.setCleanup c stage with records := records', deleted := deleted' } where
  requests := h.requests
  records := hrecords
  cleanups := by
    change update s.cleanups c (some stage) = update s'.cleanups c (some stage)
    rw [h.cleanups]
  clock := h.clock

/-- Locking records in place does not change whose they are. -/
theorem filter_relock {f : IdempotencyRecord → IdempotencyRecord}
    (hf : ∀ record, (f record).content = record.content) (records : List IdempotencyRecord) :
    (records.map f).filter (IdempotencyRecord.isOf u) =
      (records.filter (IdempotencyRecord.isOf u)).map f := by
  rw [List.filter_map]
  congr 1
  apply List.filter_congr
  intro record _
  have hbody : (f record).content.responseBody = record.content.responseBody := by
    rw [hf record]
  have hbody : (f record).responseBody = record.responseBody := hbody
  simp [IdempotencyRecord.isOf, hbody]

/-- A cleanup that only relocks records does so alike in states that are the
same for `u`. -/
theorem SameFor.relock (h : SameFor u s s') {f : IdempotencyRecord → IdempotencyRecord}
    (hf : ∀ record, (f record).content = record.content) :
    (s.records.map f).filter (IdempotencyRecord.isOf u) =
      (s'.records.map f).filter (IdempotencyRecord.isOf u) := by
  rw [filter_relock hf, filter_relock hf, h.records]

/-- A request of `u` is at the same point in states that are the same for `u`. -/
theorem SameFor.served (h : SameFor u s s') (hq : q.passenger = u)
    {x y : CreateCall × CreateStage} (hreq : s.requests q = some x)
    (hreq' : s'.requests q = some y) : x = y := by
  rw [← h.requests q hq, hreq] at hreq'
  exact Option.some.inj hreq'

theorem meets_lookup (hok : ownRecords u s (.lookup q) = true) (hq : q.passenger = u)
    (hreq : s.requests q = some (call, .starting)) : meetsOwn u s call = true := by
  simpa [ownRecords, hreq, hq] using hok

theorem meets_commit (hok : ownRecords u s (.commit q) = true) (hq : q.passenger = u)
    {ride : Ride} (hreq : s.requests q = some (call, .storing ride)) :
    meetsOwn u s call = true := by
  simpa [ownRecords, hreq, hq] using hok

/-- The constraint lets an INSERT of `u` through in both states or in neither. -/
theorem visible_commit (h : SameFor u s s') (hq : q.passenger = u)
    (hok : ownRecords u s (.commit q) = true) (hok' : ownRecords u s' (.commit q) = true)
    (hstep : createStep fns s (.commit q) = some t)
    (hstep' : createStep fns s' (.commit q) = some t') : SameFor u t t' := by
  obtain ⟨call, ⟨ride, hreq, hcases⟩ | ⟨response, hreq, rfl⟩⟩ := create_commit hstep
  · obtain ⟨call', ⟨ride', hreq', hcases'⟩ | ⟨_, hreq', _⟩⟩ := create_commit hstep'
    · cases h.served hq hreq hreq'
      have hcached : s.cached call = s'.cached call :=
        cached_same h (meets_commit hok hq hreq) (meets_commit hok' hq hreq')
      rcases hcases with ⟨hnone, rfl⟩ | ⟨conflicting, hsome, rfl⟩
      · rcases hcases' with ⟨_, rfl⟩ | ⟨_, hsome', _⟩
        · exact h.publish
        · rw [← hcached, hnone] at hsome'
          cases hsome'
      · rcases hcases' with ⟨hnone', _⟩ | ⟨_, _, rfl⟩
        · rw [← hcached, hsome] at hnone'
          cases hnone'
        · exact h.at_
    · cases h.served hq hreq hreq'
  · obtain ⟨call', ⟨ride', hreq', _⟩ | ⟨_, hreq', rfl⟩⟩ := create_commit hstep'
    · cases h.served hq hreq hreq'
    · cases h.served hq hreq hreq'
      exact h.at_

/-- **What concerns `u` looks the same in states that are the same for `u`.** -/
theorem visible_step (h : SameFor u s s') (hok : ownRecords u s a = true)
    (hok' : ownRecords u s' a = true) (hvisible : a.concerns u = true)
    (hstep : createStep fns s a = some t) (hstep' : createStep fns s' a = some t') :
    SameFor u t t' := by
  cases a with
  | begin q user payload key =>
      obtain ⟨_, _, _, rfl⟩ := create_begin hstep
      obtain ⟨_, _, _, rfl⟩ := create_begin hstep'
      rw [h.clock]
      exact h.at_
  | lookup q =>
      have hq := concerned rfl hvisible
      obtain ⟨call, hreq, rfl⟩ := create_lookup hstep
      obtain ⟨call', hreq', rfl⟩ := create_lookup hstep'
      cases h.served hq hreq hreq'
      rw [cached_same h (meets_lookup hok hq hreq) (meets_lookup hok' hq hreq')]
      exact h.at_
  | insert q id =>
      have hq := concerned rfl hvisible
      obtain ⟨call, hreq, _, hcases⟩ := create_insert hstep
      obtain ⟨call', hreq', _, hcases'⟩ := create_insert hstep'
      cases h.served hq hreq hreq'
      rcases hcases with ⟨hlong, rfl⟩ | ⟨hshort, rfl⟩
      · rcases hcases' with ⟨_, rfl⟩ | ⟨hshort', _⟩
        · exact h.at_
        · rw [hlong] at hshort'
          cases hshort'
      · rcases hcases' with ⟨hlong', _⟩ | ⟨_, rfl⟩
        · rw [hshort] at hlong'
          cases hlong'
        · exact ⟨h.at_.requests, h.records, h.cleanups, h.clock⟩
  | commit q => exact visible_commit h (concerned rfl hvisible) hok hok' hstep hstep'
  | abort q =>
      have hq := concerned rfl hvisible
      obtain ⟨call, stage, hreq, _, rfl⟩ := create_abort hstep
      obtain ⟨call', stage', hreq', _, rfl⟩ := create_abort hstep'
      cases h.served hq hreq hreq'
      exact h.at_
  | beginCleanup c =>
      obtain ⟨_, rfl⟩ := create_beginCleanup hstep
      obtain ⟨_, rfl⟩ := create_beginCleanup hstep'
      rw [h.clock]
      exact h.cleanup h.records
  | deleteRecords c =>
      obtain ⟨now, hc, _, rfl⟩ := create_deleteRecords hstep
      obtain ⟨now', hc', _, rfl⟩ := create_deleteRecords hstep'
      rw [← h.cleanups, hc] at hc'
      cases hc'
      refine h.cleanup (h.relock fun record => ?_)
      split <;> rfl
  | commitCleanup c =>
      obtain ⟨_, rfl⟩ := create_commitCleanup hstep
      obtain ⟨_, rfl⟩ := create_commitCleanup hstep'
      refine h.cleanup ?_
      rw [List.filter_comm, h.records, List.filter_comm]
  | abortCleanup c =>
      obtain ⟨_, _, rfl⟩ := create_abortCleanup hstep
      obtain ⟨_, _, rfl⟩ := create_abortCleanup hstep'
      refine h.cleanup (h.relock fun record => ?_)
      split <;> rfl
  | advance seconds =>
      obtain rfl := create_advance hstep
      obtain rfl := create_advance hstep'
      exact ⟨h.requests, h.records, h.cleanups, congrArg (· + seconds) h.clock⟩

end Steps

section Answers

variable {fns : BodyFunctions} {u : UserId} {s t : CreateState} {q : CreateId}
  {call : CreateCall} {stage : CreateStage}

/-- What a stage of a request of `u` holds in store for `u`. -/
def CreateStage.Own (u : UserId) (s : CreateState) (call : CreateCall) : CreateStage → Prop
  | .replaying response => response.passengerId = u
  | .answered (.created response) => response.passengerId = u
  | .answered (.rejected _) => UsedBefore u s call
  | _ => True

/-- Every request of `u` holds what is its own. -/
def OwnStages (u : UserId) (s : CreateState) : Prop :=
  ∀ q call stage, q.passenger = u → s.requests q = some (call, stage) → stage.Own u s call

/-- A key used before stays so while answers stay. -/
theorem CreateStage.Own.mono
    (hkeep : ∀ p call' outcome, s.requests p = some (call', .answered outcome) →
      t.requests p = some (call', .answered outcome))
    (h : stage.Own u s call) : stage.Own u t call := by
  cases stage with
  | starting => trivial
  | inserting => trivial
  | storing _ => trivial
  | replaying _ => exact h
  | answered outcome =>
      cases outcome with
      | created _ => exact h
      | rejected _ =>
          obtain ⟨p, call', response, hp, hreq, hsame⟩ := h
          exact ⟨p, call', response, hp, hkeep p call' _ hreq, hsame⟩
      | failed => trivial

/-- A step that moves one unanswered request keeps the answers of `u`. -/
theorem OwnStages.move (h : OwnStages u s)
    (hreq : t.requests = update s.requests q (some (call, stage)))
    (hopen : ∀ call' outcome, s.requests q ≠ some (call', .answered outcome))
    (hown : q.passenger = u → stage.Own u s call) : OwnStages u t := by
  have hkeep : ∀ p call' outcome, s.requests p = some (call', .answered outcome) →
      t.requests p = some (call', .answered outcome) := by
    intro p call' outcome hp
    have hne : p ≠ q := fun heq => hopen call' outcome (heq ▸ hp)
    rw [hreq, update_of_ne hne]
    exact hp
  intro p call' stage' hp hstage
  rw [hreq] at hstage
  rcases update_some_iff.mp hstage with ⟨rfl, hnew⟩ | ⟨_, hold⟩
  · cases hnew
    exact (hown hp).mono hkeep
  · exact (h p call' stage' hp hold).mono hkeep

/-- A step that moves no request keeps the answers of `u`. -/
theorem OwnStages.idle (h : OwnStages u s) (hreq : t.requests = s.requests) : OwnStages u t := by
  intro p call' stage' hp hstage
  rw [hreq] at hstage
  exact (h p call' stage' hp hstage).mono fun _ _ _ hold => hreq ▸ hold

/-- Where the record under a key is of `u`, its response is of `u`, and a
fingerprint that differs from it is that of another body. -/
theorem afterLookup_own (h : CreateBooks fns s) (hmeets : meetsOwn u s call = true) :
    (afterLookup fns call (s.cached call)).Own u s call := by
  cases hcached : s.cached call with
  | none => trivial
  | some cached =>
      have hof : cached.responseBody.passengerId = u := by
        simpa [meetsOwn, hcached, IdempotencyRecord.isOf] using hmeets
      dsimp only [afterLookup]
      split
      case isFalse => exact hof
      case isTrue hdiffers =>
          obtain ⟨hmem, hfor⟩ := cached_record hcached
          obtain ⟨p, call', hp, hkey', _, hfingerprint, hpassenger⟩ :=
            h.stored cached (List.mem_append_left _ hmem)
          obtain ⟨key, hkey, _⟩ := Option.bind_eq_some_iff.mp hcached
          have hsame : cached.key = key := by
            have hboth := of_decide_eq_true (hfor key hkey)
            exact hboth.1
          refine ⟨p, call', cached.responseBody, hpassenger.symm.trans hof, hp, ?_, ?_⟩
          · rw [hkey', hkey, hsame]
          · intro heq
            rw [hfingerprint, heq] at hdiffers
            exact hdiffers rfl

/-- **One step keeps the answers of `u`**, where the requests of `u` meet only
records of `u`. -/
theorem step_ownStages {a : CreateAction} (hbooks : CreateBooks fns s) (h : OwnStages u s)
    (hok : ownRecords u s a = true) (hstep : createStep fns s a = some t) : OwnStages u t := by
  cases a with
  | begin q user payload key =>
      obtain ⟨hnone, _, _, rfl⟩ := create_begin hstep
      exact h.move rfl (fun _ _ heq => by simp [hnone] at heq) fun _ => trivial
  | lookup q =>
      obtain ⟨call, hreq, rfl⟩ := create_lookup hstep
      refine h.move rfl (create_unanswered hreq (by simp)) ?_
      intro hq
      have hmeets : meetsOwn u s call = true := meets_lookup hok hq hreq
      exact afterLookup_own hbooks hmeets
  | insert q id =>
      obtain ⟨call, hreq, _, ⟨_, rfl⟩ | ⟨_, rfl⟩⟩ := create_insert hstep
      · exact h.move rfl (create_unanswered hreq (by simp)) fun _ => trivial
      · exact h.move rfl (create_unanswered hreq (by simp)) fun _ => trivial
  | commit q =>
      obtain ⟨call, ⟨ride, hreq, hcases⟩ | ⟨response, hreq, rfl⟩⟩ := create_commit hstep
      · rcases hcases with ⟨_, rfl⟩ | ⟨_, _, rfl⟩
        · obtain ⟨id, rfl⟩ : ∃ id, ride = insertedRide fns call id := hbooks.fine q call _ hreq
          refine h.move rfl (create_unanswered hreq (by simp)) ?_
          intro hq
          have hcaller := hbooks.caller q call _ hreq
          exact hcaller.trans hq
        · exact h.move rfl (create_unanswered hreq (by simp)) fun _ => trivial
      · refine h.move rfl (create_unanswered hreq (by simp)) ?_
        intro hq
        have hown := h q call _ hq hreq
        exact hown
  | abort q =>
      obtain ⟨call, stage, hreq, hne, rfl⟩ := create_abort hstep
      exact h.move rfl (create_unanswered hreq hne) fun _ => trivial
  | beginCleanup _ =>
      obtain ⟨_, rfl⟩ := create_beginCleanup hstep
      exact h.idle rfl
  | deleteRecords _ =>
      obtain ⟨_, _, _, rfl⟩ := create_deleteRecords hstep
      exact h.idle rfl
  | commitCleanup _ =>
      obtain ⟨_, rfl⟩ := create_commitCleanup hstep
      exact h.idle rfl
  | abortCleanup _ =>
      obtain ⟨_, _, rfl⟩ := create_abortCleanup hstep
      exact h.idle rfl
  | advance _ =>
      obtain rfl := create_advance hstep
      exact h.idle rfl

end Answers

section Runs

variable {fns : BodyFunctions} {u : UserId} {s : CreateState} {acts : List CreateAction}

theorem createBooks_init : CreateBooks fns .init := by
  have hnil : Steps (createSystem fns) free .init [] .init := .nil _
  exact create_books_kept hnil

/-- In every run in which the requests of `u` meet only records of `u`, the
answers to `u` are of `u`. -/
theorem ownStages_kept
    (h : Steps (createSystem fns) (fun s a => ownRecords u s a) .init acts s) :
    OwnStages u s := by
  refine h.invariant_under (CreateBooks fns) (OwnStages u) createBooks_init ?_
    (fun _ _ _ hs hstep => step_createBooks hs hstep)
    (fun _ _ _ hs hown hok hstep => step_ownStages hs hown hok hstep)
  intro _ _ _ _ hnone
  cases hnone

/-- **What passenger `u` is answered depends on `u` alone**, in every run in
which the requests of `u` look up and store under keys whose record, if any, is
of `u`:

* every success response to `u` describes a ride of `u`, and the 409 goes to `u`
  only after `u` has used the key with another body;
* a second such run, with the same actions of `u`, cleanups and ticks of the
  clock but with any others of the other passengers, leaves every request of
  `u` where the first one does. -/
theorem passengers_separated
    (h : Steps (createSystem fns) (fun s a => ownRecords u s a) .init acts s) :
    Separated u s ∧
    ∀ acts' s', Steps (createSystem fns) (fun s a => ownRecords u s a) .init acts' s' →
      acts.filter (CreateAction.concerns u) = acts'.filter (CreateAction.concerns u) →
      ∀ q, q.passenger = u → s.requests q = s'.requests q := by
  constructor
  · have hown := ownStages_kept h
    constructor
    · intro q call response hq hreq
      exact hown q call _ hq hreq
    · intro q call hq hreq
      exact hown q call _ hq hreq
  · intro acts' s' h' hsame
    have hfor : SameFor u s s' := by
      refine h.unwinding (SameFor u) (fun _ _ => SameFor.symm) (fun _ _ _ => SameFor.trans)
        (CreateAction.concerns u) (CreateBooks fns) ?_ ?_ ?_ h' createBooks_init
        createBooks_init ⟨fun _ _ => rfl, rfl, rfl, rfl⟩ hsame
      · intro _ _ _ hs _ hstep
        exact step_createBooks hs hstep
      · intro _ _ _ hs _ hhidden hstep
        exact hidden_step hs hhidden hstep
      · intro _ _ _ _ _ _ _ hok hok' hvisible hstep hstep' hR
        exact visible_step hR hok hok' hvisible hstep hstep'
    exact hfor.requests

end Runs

/-- Passengers 1 and 2 with a key each; passenger 1 asks twice. -/
def twoPassengers : List CreateAction :=
  [.begin ⟨1, 0⟩ (sampleUser 1 .passenger) sampleBody (some "k"),
    .begin ⟨2, 0⟩ (sampleUser 2 .passenger) sampleBody (some "m"),
    .lookup ⟨1, 0⟩, .lookup ⟨2, 0⟩, .insert ⟨1, 0⟩ 0, .insert ⟨2, 0⟩ 1,
    .commit ⟨2, 0⟩, .commit ⟨1, 0⟩,
    .begin ⟨1, 1⟩ (sampleUser 1 .passenger) sampleBody (some "k"),
    .lookup ⟨1, 1⟩, .commit ⟨1, 1⟩]

/-- Passenger 1 is answered the same with and without passenger 2. -/
theorem passenger_alone_answered_alike : ∃ s s',
    Steps (createSystem sampleFunctions) (fun s a => ownRecords 1 s a) .init twoPassengers s ∧
      Steps (createSystem sampleFunctions) (fun s a => ownRecords 1 s a) .init
        (twoPassengers.filter (CreateAction.concerns 1)) s' ∧
      Separated 1 s ∧ (s.requests ⟨1, 1⟩).isSome ∧ s.requests ⟨1, 1⟩ = s'.requests ⟨1, 1⟩ := by
  have hreplay : (execWhere (createSystem sampleFunctions) (fun s a => ownRecords 1 s a) .init
      twoPassengers).any (fun s => (s.requests ⟨1, 1⟩).isSome) = true := by decide
  have hreplay' : (execWhere (createSystem sampleFunctions) (fun s a => ownRecords 1 s a) .init
      (twoPassengers.filter (CreateAction.concerns 1))).any (fun _ => true) = true := by decide
  obtain ⟨s, hrun, hs⟩ := Steps.of_execWhere_any hreplay
  obtain ⟨s', hrun', _⟩ := Steps.of_execWhere_any hreplay'
  have hboth := passengers_separated hrun
  refine ⟨s, s', hrun, hrun', hboth.1, hs, hboth.2 _ s' hrun' ?_ ⟨1, 1⟩ rfl⟩
  rw [List.filter_filter]
  simp only [Bool.and_self]

/-- Passenger 2 sends the key and the body of passenger 1. -/
def sharedKey : List CreateAction :=
  [.begin ⟨1, 0⟩ (sampleUser 1 .passenger) sampleBody (some "k"),
    .lookup ⟨1, 0⟩, .insert ⟨1, 0⟩ 0, .commit ⟨1, 0⟩,
    .begin ⟨2, 0⟩ (sampleUser 2 .passenger) sampleBody (some "k"),
    .lookup ⟨2, 0⟩, .commit ⟨2, 0⟩]

/-- The ride that a request was answered with is of another passenger. -/
def answeredStranger (s : CreateState) (q : CreateId) : Bool :=
  match s.requests q with
  | some (_, .answered (.created response)) => response.passengerId ≠ q.passenger
  | _ => false

/-- Passenger 2 is given the ride of passenger 1. -/
theorem answered_with_a_strangers_ride :
    ¬ ∀ (fns : BodyFunctions) (acts : List CreateAction) (s : CreateState),
      Steps (createSystem fns) free .init acts s → ∀ u, Separated u s := by
  intro hall
  have hreplay : (exec (createSystem sampleFunctions) .init sharedKey).any
      (fun s => answeredStranger s ⟨2, 0⟩) = true := by decide
  obtain ⟨s, hrun, hs⟩ := Steps.of_exec_any hreplay
  have hsep := hall sampleFunctions sharedKey s hrun 2
  unfold answeredStranger at hs
  split at hs
  case h_1 call response hreq =>
      have hown := hsep.own ⟨2, 0⟩ call response rfl hreq
      exact of_decide_eq_true hs hown
  case h_2 => cases hs

end RideFlow
