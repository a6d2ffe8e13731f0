import RideFlow.Library.Linearization
import RideFlow.References

/-!
# Creations are linearizable

What a `create_ride` request does when nobody else is there is `createRideAlone`: the
lookup of its key, and the ride with its record or the cached response.  `bookings` is
the object with this operation: the rides, one record for each key, and the time; a
record is forgotten after a week, at a moment that nobody is told.

The requests and cleanups of any interleaving are those of `bookings`
(`creations_linearizable`).  A request that finds no record is executed at its COMMIT,
one that finds a record is executed when it has read it, and one that fails, on the
unique constraint too, has done nothing.
-/

namespace RideFlow

open Function Linearization Relation Runs Tables

/-- What creations share: the rides, the records and the time. -/
structure Bookings where
  rides : List Ride
  records : List IdempotencyRecord
  clock : Timestamp

/-- The answers of a creation.  A client is told the same of a ride that was made for
the request and of one that a record describes. -/
inductive Answer
  | made (response : RideOut)
  | replayed (response : RideOut)
  | rejected (error : Rejection)
  | failed

/-- What the client is told. -/
def Answer.outcome : Answer → CreateOutcome
  | .made response => .created response
  | .replayed response => .created response
  | .rejected error => .rejected error
  | .failed => .failed

/-- Only a ride that was made is new. -/
def Answer.Silent : Answer → Prop
  | .made _ => False
  | _ => True

/-- The record under the key of a call. -/
def Bookings.cached (b : Bookings) (call : CreateCall) : Option IdempotencyRecord :=
  call.key?.bind fun key => getCachedResponse b.records key idempotencyScopeCreate

/-- `create_ride`, when no other request is there, with the id that is drawn for the
ride. -/
def createRideAlone (fns : BodyFunctions) (call : CreateCall) (id : RideId) (b : Bookings) :
    Answer × Bookings :=
  match b.cached call with
  | some cached =>
      if cached.requestFingerprint ≠ fns.fingerprint call.payload then (.rejected keyReused, b)
      else (.replayed cached.responseBody, b)
  | none =>
      if call.keyTooLong then (.failed, b)
      else
        (.made (rideOut (insertedRide fns call id)),
          { b with
            rides := b.rides ++ [insertedRide fns call id]
            records := b.records ++ pendingRecords fns call (insertedRide fns call id) })

/-- Time passes, and records older than a week can be forgotten. -/
structure Bookings.Ages (b b' : Bookings) : Prop where
  rides : b'.rides = b.rides
  clock : b.clock ≤ b'.clock
  records : b'.records.Sublist b.records
  forgotten : ∀ record ∈ b.records, record ∉ b'.records → record.expired b'.clock = true

/-- A creation runs alone, and a ride that it makes has an id of its own. -/
structure Bookings.Exec (fns : BodyFunctions) (b : Bookings) (call : CreateCall)
    (answer : Answer) (b' : Bookings) : Prop where
  alone : ∃ id, createRideAlone fns call id b = (answer, b')
  fresh : ∀ response, answer = .made response → ∀ ride ∈ b.rides, ride.id ≠ response.id

/-- A creation that is answered otherwise than by a new ride changes nothing. -/
theorem createRideAlone_silent {fns : BodyFunctions} {call : CreateCall} {id : RideId}
    {b b' : Bookings} {answer : Answer} (h : createRideAlone fns call id b = (answer, b'))
    (hsilent : answer.Silent) : b' = b := by
  unfold createRideAlone at h
  split at h
  · split at h
    · exact (Prod.mk.inj h).2.symm
    · exact (Prod.mk.inj h).2.symm
  · split at h
    · exact (Prod.mk.inj h).2.symm
    · exact (((Prod.mk.inj h).1 ▸ hsilent : Answer.Silent (.made _))).elim

/-- The rides and the records as an object. -/
def bookings (fns : BodyFunctions) : Object Bookings CreateCall Answer where
  exec := Bookings.Exec fns
  env := Bookings.Ages
  silent := Answer.Silent
  lost := .failed
  silent_exec := by
    intro b call answer b' hexec hsilent
    obtain ⟨id, halone⟩ := hexec.alone
    exact createRideAlone_silent halone hsilent

abbrev CreateEvent := Event CreateId CreateCall CreateOutcome
abbrev BookingRun := Atomic Bookings CreateCall Answer CreateId

/-- The answer of a request that has one. -/
def CreateStage.outcome : CreateStage → Option CreateOutcome
  | .answered outcome => some outcome
  | _ => none

/-- What clients see of a step. -/
def creationsSeen (s : CreateState) (a : CreateAction) (t : CreateState) : List CreateEvent :=
  shown CreateStage.outcome a.request s.requests t.requests

/-- The creations, and what clients have seen of them. -/
def observedCreations (fns : BodyFunctions) :
    System (CreateState × List CreateEvent) CreateAction :=
  recording (createSystem fns) creationsSeen

/-- Which rides, records and time a state holds, whatever locks the records have. -/
def CreateState.bookings (s : CreateState) : Bookings where
  rides := s.rides
  records := s.records.map IdempotencyRecord.content
  clock := s.clock

/-- Where a request stands, and where its call stands in the atomic system.  One that
has read a record has been executed. -/
inductive CreationStands (fns : BodyFunctions) :
    Option (CreateCall × CreateStage) → Option (Status CreateCall Answer) → Prop
  | unknown : CreationStands fns none none
  | starting {call : CreateCall} :
      CreationStands fns (some (call, .starting)) (some (.called call))
  | inserting {call : CreateCall} :
      CreationStands fns (some (call, .inserting)) (some (.called call))
  | storing {call : CreateCall} {id : RideId} (hshort : call.keyTooLong = false) :
      CreationStands fns (some (call, .storing (insertedRide fns call id))) (some (.called call))
  | replaying {call : CreateCall} {response : RideOut} :
      CreationStands fns (some (call, .replaying response))
        (some (.executed call (.replayed response)))
  | answered {call : CreateCall} (answer : Answer) :
      CreationStands fns (some (call, .answered answer.outcome)) (some (.returned call answer))

/-- What is looked at of the creations. -/
def createPortrait (fns : BodyFunctions) :
    Portrait CreateState Bookings CreateCall CreateStage Answer CreateOutcome CreateId where
  object := CreateState.bookings
  requests := CreateState.requests
  tell := Answer.outcome
  StandsAs := CreationStands fns

/-- Deleted records are old, and so are those that a cleanup is about to delete. -/
structure RecordsAged (s : CreateState) : Prop where
  deleted : ∀ record ∈ s.records, record.deletedBy ≠ none → record.expired s.clock = true
  started : ∀ c now, s.cleanups c = some (.started now) → now ≤ s.clock

section Aged

variable {fns : BodyFunctions} {s t : CreateState} {a : CreateAction} {q : CreateId}
  {call : CreateCall} {ride : Ride} {record : IdempotencyRecord}

/-- What is old stays old. -/
theorem IdempotencyRecord.expired_mono {now later : Timestamp} (h : record.expired now = true)
    (hle : now ≤ later) : record.expired later = true := by
  have hlt : record.createdAt + recordLifetime < now := of_decide_eq_true h
  exact decide_eq_true (hlt.trans_le hle)

/-- New records are not deleted. -/
theorem pendingRecords_kept (hmem : record ∈ pendingRecords fns call ride) :
    record.deletedBy = none := by
  unfold pendingRecords at hmem
  split at hmem
  · cases hmem
  · obtain rfl := List.mem_singleton.mp hmem
    rfl

/-- Records that were there, or are new. -/
theorem RecordsAged.keep (h : RecordsAged s)
    (hrecords : ∀ record ∈ t.records, record.deletedBy ≠ none → record ∈ s.records)
    (hcleanups : t.cleanups = s.cleanups) (hclock : t.clock = s.clock) : RecordsAged t where
  deleted record hmem hdeleted := hclock ▸ h.deleted record (hrecords record hmem hdeleted) hdeleted
  started := by
    rw [hcleanups, hclock]
    exact h.started

/-- One cleanup moves, to a stage in which it has no cutoff. -/
theorem started_of_setCleanup {c : CleanupId} {stage : CleanupStage} (h : RecordsAged s)
    (hstage : ∀ now, stage = .started now → now ≤ s.clock) (d : CleanupId) (now : Timestamp)
    (hd : (s.setCleanup c stage).cleanups d = some (.started now)) : now ≤ s.clock := by
  rcases update_some_iff.mp hd with ⟨_, hnew⟩ | ⟨_, hold⟩
  · exact hstage now hnew
  · exact h.started d now hold

/-- In one step only old records are deleted. -/
theorem step_recordsAged (h : RecordsAged s) (hstep : createStep fns s a = some t) :
    RecordsAged t := by
  cases a with
  | begin _ _ _ _ =>
      obtain ⟨_, _, _, rfl⟩ := create_begin hstep
      exact h.keep (fun _ hmem _ => hmem) rfl rfl
  | lookup _ =>
      obtain ⟨_, _, rfl⟩ := create_lookup hstep
      exact h.keep (fun _ hmem _ => hmem) rfl rfl
  | insert _ _ =>
      obtain ⟨_, _, _, ⟨_, rfl⟩ | ⟨_, rfl⟩⟩ := create_insert hstep
      · exact h.keep (fun _ hmem _ => hmem) rfl rfl
      · exact h.keep (fun _ hmem _ => hmem) rfl rfl
  | commit _ =>
      obtain ⟨_, ⟨_, _, ⟨_, rfl⟩ | ⟨_, _, rfl⟩⟩ | ⟨_, _, rfl⟩⟩ := create_commit hstep
      · refine h.keep (fun record hmem hdeleted => ?_) rfl rfl
        rcases List.mem_append.mp hmem with hold | hnew
        · exact hold
        · exact absurd (pendingRecords_kept hnew) hdeleted
      · exact h.keep (fun _ hmem _ => hmem) rfl rfl
      · exact h.keep (fun _ hmem _ => hmem) rfl rfl
  | abort _ =>
      obtain ⟨_, _, _, _, rfl⟩ := create_abort hstep
      exact h.keep (fun _ hmem _ => hmem) rfl rfl
  | beginCleanup _ =>
      obtain ⟨_, rfl⟩ := create_beginCleanup hstep
      refine ⟨h.deleted, started_of_setCleanup h ?_⟩
      intro now hnow
      cases hnow
      exact le_rfl
  | deleteRecords c =>
      obtain ⟨now, hc, _, rfl⟩ := create_deleteRecords hstep
      refine ⟨?_, started_of_setCleanup h (by simp)⟩
      intro record hmem hdeleted
      obtain ⟨old, hold, rfl⟩ := List.mem_map.mp hmem
      split
      case isTrue hexpired =>
          have hold : old.expired s.clock = true :=
            IdempotencyRecord.expired_mono hexpired (h.started c now hc)
          exact hold
      case isFalse hfresh =>
          rw [if_neg hfresh] at hdeleted
          exact h.deleted old hold hdeleted
  | commitCleanup _ =>
      obtain ⟨_, rfl⟩ := create_commitCleanup hstep
      refine ⟨?_, started_of_setCleanup h (by simp)⟩
      exact fun record hmem => h.deleted record (List.mem_filter.mp hmem).1
  | abortCleanup _ =>
      obtain ⟨_, _, rfl⟩ := create_abortCleanup hstep
      refine ⟨?_, started_of_setCleanup h (by simp)⟩
      intro record hmem hdeleted
      obtain ⟨old, hold, rfl⟩ := List.mem_map.mp hmem
      split
      case isTrue hmine => exact (hdeleted (if_pos hmine ▸ rfl)).elim
      case isFalse hother =>
          rw [if_neg hother] at hdeleted
          exact h.deleted old hold hdeleted
  | advance _ =>
      obtain rfl := create_advance hstep
      refine ⟨?_, fun c now hc => (h.started c now hc).trans (Nat.le_add_right _ _)⟩
      exact fun record hmem hdeleted =>
        IdempotencyRecord.expired_mono (h.deleted record hmem hdeleted) (Nat.le_add_right _ _)

end Aged

section Simulation

variable {fns : BodyFunctions} {s t : CreateState} {a : CreateAction} {q : CreateId}
  {call : CreateCall} {stage : CreateStage} {old : CreateCall × CreateStage}
  {outcome : CreateOutcome} {history : List CreateEvent} {l : BookingRun}

/-- A request that arrives is seen as a call. -/
theorem creation_arrives (ha : a.request = some q) (hs : s.requests q = none)
    (ht : t.requests q = some (call, stage)) : creationsSeen s a t = [.call q call] := by
  rw [creationsSeen, ha, shown_call hs ht]

/-- A request that goes on is not seen. -/
theorem creation_works (ha : a.request = some q) (hs : s.requests q = some old)
    (ht : t.requests q = some (call, stage)) (hopen : stage.outcome = none) :
    creationsSeen s a t = [] := by
  rw [creationsSeen, ha, shown_work hs ht hopen]

/-- A request that is answered is seen as a return. -/
theorem creation_answered (ha : a.request = some q) (hs : s.requests q = some old)
    (ht : t.requests q = some (call, .answered outcome)) :
    creationsSeen s a t = [.ret q outcome] := by
  rw [creationsSeen, ha]
  exact shown_answer hs ht rfl

/-- What is no step of a request is not seen. -/
theorem creation_hidden (ha : a.request = none) : creationsSeen s a t = [] := by
  rw [creationsSeen, ha]
  rfl

/-- A request is found by the content of the records alone. -/
theorem bookings_cached (s : CreateState) (call : CreateCall) :
    s.bookings.cached call = (s.cached call).map IdempotencyRecord.content := by
  unfold Bookings.cached CreateState.cached
  cases call.key? with
  | none => rfl
  | some key => exact List.find?_map

/-- Marks of cleanups are no part of the object. -/
theorem creations_same_records {f : IdempotencyRecord → IdempotencyRecord}
    (hf : ∀ record, (f record).content = record.content) (hrides : t.rides = s.rides)
    (hrecords : t.records = s.records.map f) (hclock : t.clock = s.clock) :
    t.bookings = s.bookings := by
  have hcontents : (s.records.map f).map IdempotencyRecord.content =
      s.records.map IdempotencyRecord.content := by
    rw [List.map_map]
    exact List.map_congr_left fun record _ => hf record
  rw [CreateState.bookings, hrides, hrecords, hclock, hcontents]
  rfl

/-- A request that is not answered can fail. -/
theorem creation_fails (h : Shows (createPortrait fns) (s, history) l)
    (hreq : s.requests q = some (call, stage)) (hopen : ∀ outcome, stage ≠ .answered outcome)
    (hbookings : t.bookings = s.bookings)
    (hreqs : t.requests = update s.requests q (some (call, .answered .failed))) :
    ∃ l', AtomicRun (bookings fns) l l' ∧
      Shows (createPortrait fns) (t, history ++ [.ret q .failed]) l' := by
  have hshown : AtomicStep (bookings fns) l (l.finish q call .failed) →
      ∃ l', AtomicRun (bookings fns) l l' ∧
        Shows (createPortrait fns) (t, history ++ [.ret q .failed]) l' :=
    fun hstep => h.finish hstep hbookings hreqs (CreationStands.answered .failed)
  have hstands : CreationStands fns (s.requests q) (l.calls q) := h.calls q
  rw [hreq] at hstands
  generalize hcalls : l.calls q = status at hstands
  cases hstands with
  | starting => exact hshown (.drop hcalls)
  | inserting => exact hshown (.drop hcalls)
  | storing _ => exact hshown (.drop hcalls)
  | replaying => exact hshown (.lose hcalls trivial)
  | answered _ => exact absurd rfl (hopen _)

/-- The SELECT of a creation is matched: it is executed there when it will be a replay or
a 409. -/
theorem shows_lookup (h : Shows (createPortrait fns) (s, history) l)
    (hstep : createStep fns s (.lookup q) = some t) :
    ∃ l', AtomicRun (bookings fns) l l' ∧
      Shows (createPortrait fns) (t, history ++ creationsSeen s (.lookup q) t) l' := by
  obtain ⟨call, hreq, rfl⟩ := create_lookup hstep
  have hcall : l.calls q = some (.called call) := by
    have hstands : CreationStands fns (s.requests q) (l.calls q) := h.calls q
    rw [hreq] at hstands
    generalize l.calls q = status at hstands
    cases hstands
    rfl
  have hcached := bookings_cached s call
  cases hfound : s.cached call with
  | none =>
      rw [creation_works rfl hreq (update_self q _ s.requests) rfl, List.append_nil]
      exact ⟨l, .refl, h.work hcall rfl rfl .inserting⟩
  | some cached =>
      rw [hfound, Option.map_some] at hcached
      by_cases hreused : cached.requestFingerprint ≠ fns.fingerprint call.payload
      · have hafter : afterLookup fns call (some cached) = .answered (.rejected keyReused) :=
          if_pos hreused
        rw [hafter, creation_answered rfl hreq (update_self q _ s.requests)]
        have halone :
            createRideAlone fns call 0 s.bookings = (.rejected keyReused, s.bookings) := by
          simp only [createRideAlone, hcached]
          exact if_pos hreused
        have hexec : Bookings.Exec fns s.bookings call (.rejected keyReused) s.bookings :=
          ⟨⟨0, halone⟩, by simp⟩
        exact h.answer hcall hexec rfl (CreationStands.answered (.rejected keyReused))
      · have hafter : afterLookup fns call (some cached) = .replaying cached.responseBody :=
          if_neg hreused
        rw [hafter, creation_works rfl hreq (update_self q _ s.requests) rfl, List.append_nil]
        have halone : createRideAlone fns call 0 s.bookings =
            (.replayed cached.responseBody, s.bookings) := by
          simp only [createRideAlone, hcached]
          exact if_neg hreused
        have hexec : Bookings.Exec fns s.bookings call (.replayed cached.responseBody)
            s.bookings := ⟨⟨0, halone⟩, by simp⟩
        exact h.execute hcall hexec rfl .replaying

/-- **A COMMIT of a new ride is the whole creation, run alone.** -/
theorem shows_publish (h : Shows (createPortrait fns) (s, history) l) {ride : Ride}
    (hrides : CreationsOf (fun _ => True) s) (hreq : s.requests q = some (call, .storing ride))
    (hfree : s.cached call = none) :
    ∃ l', AtomicRun (bookings fns) l l' ∧ Shows (createPortrait fns)
      (s.publish q call ride (pendingRecords fns call ride),
        history ++ [.ret q (.created (rideOut ride))]) l' := by
  have hstands : CreationStands fns (s.requests q) (l.calls q) := h.calls q
  rw [hreq] at hstands
  generalize hcall : l.calls q = status at hstands
  cases hstands with
  | @storing _ id hshort =>
      have hcached : s.bookings.cached call = none := by
        rw [bookings_cached, hfree]
        rfl
      have hkept : ∀ record ∈ pendingRecords fns call (insertedRide fns call id),
          record.content = record := fun record hmem => by
        rw [IdempotencyRecord.content, ← pendingRecords_kept hmem]
      have hrecords : (pendingRecords fns call (insertedRide fns call id)).map
          IdempotencyRecord.content = pendingRecords fns call (insertedRide fns call id) :=
        (List.map_congr_left hkept).trans (List.map_id _)
      have halone : createRideAlone fns call id s.bookings =
          (.made (rideOut (insertedRide fns call id)),
            (s.publish q call (insertedRide fns call id)
              (pendingRecords fns call (insertedRide fns call id))).bookings) := by
        simp only [createRideAlone, hcached, hshort, Bool.false_eq_true, if_false]
        simp only [CreateState.bookings, CreateState.publish, List.map_append, hrecords]
      have hfresh := (hrides.storing q call _ hreq).2.2.2
      have hexec : Bookings.Exec fns s.bookings call
          (.made (rideOut (insertedRide fns call id)))
          (s.publish q call (insertedRide fns call id)
            (pendingRecords fns call (insertedRide fns call id))).bookings := by
        refine ⟨⟨id, halone⟩, fun response hmade ride hmem => ?_⟩
        cases hmade
        exact hfresh ride hmem
      exact h.answer hcall hexec rfl
        (CreationStands.answered (.made (rideOut (insertedRide fns call id))))

/-- Its COMMIT is matched by the creation, run alone. -/
theorem shows_commitCreation (h : Shows (createPortrait fns) (s, history) l)
    (hrides : CreationsOf (fun _ => True) s) (hstep : createStep fns s (.commit q) = some t) :
    ∃ l', AtomicRun (bookings fns) l l' ∧
      Shows (createPortrait fns) (t, history ++ creationsSeen s (.commit q) t) l' := by
  obtain ⟨call, ⟨ride, hreq, ⟨hfree, rfl⟩ | ⟨_, _, rfl⟩⟩ | ⟨response, hreq, rfl⟩⟩ :=
    create_commit hstep
  · rw [creation_answered rfl hreq (update_self q _ s.requests)]
    exact shows_publish h hrides hreq hfree
  · rw [creation_answered rfl hreq (update_self q _ s.requests)]
    exact creation_fails h hreq (by simp) rfl rfl
  · rw [creation_answered rfl hreq (update_self q _ s.requests)]
    have hstands : CreationStands fns (s.requests q) (l.calls q) := h.calls q
    rw [hreq] at hstands
    generalize hcall : l.calls q = status at hstands
    cases hstands with
    | replaying =>
        exact h.finish (.ret hcall) rfl rfl (CreationStands.answered (.replayed response))

/-- The records that a cleanup removes are old. -/
theorem bookings_forget {c : CleanupId} (haged : RecordsAged s)
    (hrides : t.rides = s.rides) (hclock : t.clock = s.clock)
    (hrecords : t.records = s.records.filter fun record => record.deletedBy ≠ some c) :
    s.bookings.Ages t.bookings where
  rides := hrides
  clock := hclock.ge
  records := by
    have hsub : t.records.Sublist s.records := hrecords ▸ List.filter_sublist
    exact hsub.map IdempotencyRecord.content
  forgotten := by
    intro record hmem hgone
    obtain ⟨kept, hkept, rfl⟩ := List.mem_map.mp hmem
    have hdeleted : kept.deletedBy = some c := by
      by_contra hother
      refine hgone (List.mem_map_of_mem ?_)
      rw [hrecords]
      exact List.mem_filter.mpr ⟨hkept, decide_eq_true hother⟩
    have hexpired := haged.deleted kept hkept (by simp [hdeleted])
    exact (congrArg (kept.expired ·) hclock).trans hexpired

/-- **Every step of the creations is matched by the atomic system.** -/
theorem step_shows_creation (h : Shows (createPortrait fns) (s, history) l)
    (hrides : CreationsOf (fun _ => True) s) (haged : RecordsAged s)
    (hstep : createStep fns s a = some t) :
    ∃ l', AtomicRun (bookings fns) l l' ∧
      Shows (createPortrait fns) (t, history ++ creationsSeen s a t) l' := by
  cases a with
  | begin q user payload key =>
      obtain ⟨hnone, _, _, rfl⟩ := create_begin hstep
      have hcall : l.calls q = none := by
        have hstands : CreationStands fns (s.requests q) (l.calls q) := h.calls q
        rw [hnone] at hstands
        generalize l.calls q = status at hstands
        cases hstands
        rfl
      rw [creation_arrives rfl hnone (update_self q _ s.requests)]
      exact h.call hcall rfl rfl .starting
  | lookup q => exact shows_lookup h hstep
  | insert q id =>
      obtain ⟨call, hreq, _, ⟨_, rfl⟩ | ⟨hshort, rfl⟩⟩ := create_insert hstep
      · rw [creation_answered rfl hreq (update_self q _ s.requests)]
        exact creation_fails h hreq (by simp) rfl rfl
      · rw [creation_works rfl hreq (update_self q _ s.requests) rfl, List.append_nil]
        have hstands : CreationStands fns (s.requests q) (l.calls q) := h.calls q
        rw [hreq] at hstands
        generalize hcall : l.calls q = status at hstands
        cases hstands with
        | inserting => exact ⟨l, .refl, h.work hcall rfl rfl (.storing hshort)⟩
  | commit q => exact shows_commitCreation h hrides hstep
  | abort q =>
      obtain ⟨call, stage, hreq, hopen, rfl⟩ := create_abort hstep
      rw [creation_answered rfl hreq (update_self q _ s.requests)]
      exact creation_fails h hreq hopen rfl rfl
  | beginCleanup c =>
      obtain ⟨_, rfl⟩ := create_beginCleanup hstep
      rw [creation_hidden rfl, List.append_nil]
      exact ⟨l, .refl, h.silent rfl rfl⟩
  | deleteRecords c =>
      obtain ⟨_, _, _, rfl⟩ := create_deleteRecords hstep
      rw [creation_hidden rfl, List.append_nil]
      refine ⟨l, .refl, h.silent (creations_same_records ?_ rfl rfl rfl) rfl⟩
      intro record
      split <;> rfl
  | commitCleanup c =>
      obtain ⟨_, rfl⟩ := create_commitCleanup hstep
      rw [creation_hidden rfl, List.append_nil]
      exact h.env (bookings_forget haged rfl rfl rfl) rfl
  | abortCleanup c =>
      obtain ⟨_, _, rfl⟩ := create_abortCleanup hstep
      rw [creation_hidden rfl, List.append_nil]
      refine ⟨l, .refl, h.silent (creations_same_records ?_ rfl rfl rfl) rfl⟩
      intro record
      split <;> rfl
  | advance seconds =>
      obtain rfl := create_advance hstep
      rw [creation_hidden rfl, List.append_nil]
      exact h.env ⟨rfl, Nat.le_add_right _ _, List.Sublist.refl _,
        fun record hmem hgone => absurd hmem hgone⟩ rfl

end Simulation

section Runs

variable {fns : BodyFunctions} {acts more : List CreateAction}
  {s t : CreateState × List CreateEvent}

/-- Rides have ids of their own, and deleted records are old. -/
def CreationsStand (s : CreateState) : Prop :=
  CreationsOf (fun _ => True) s ∧ RecordsAged s

/-- One step keeps what the simulation needs. -/
theorem creationsStand_kept {s t : CreateState} {a : CreateAction} (h : CreationsStand s)
    (hstep : createStep fns s a = some t) : CreationsStand t :=
  ⟨step_creationsOf h.1 (fun _ _ _ _ _ => trivial) hstep, step_recordsAged h.2 hstep⟩

/-- It holds at first. -/
theorem creationsStand_init : CreationsStand .init := by
  constructor <;> constructor <;> simp [CreateState.init]

/-- A run goes on in the atomic system as it goes on among the creations. -/
theorem run_shows_creations {l : BookingRun} (h : Shows (createPortrait fns) s l)
    (hs : CreationsStand s.1) (hrun : Steps (observedCreations fns) free s acts t) :
    ∃ l', AtomicRun (bookings fns) l l' ∧ Shows (createPortrait fns) t l' :=
  h.run free hrun CreationsStand hs (fun _ _ _ hu _ hstep => creationsStand_kept hu hstep)
    fun _ _ _ _ _ hu hk _ hstep => step_shows_creation hk hu.1 hu.2 hstep

/-- At first there is nothing to show. -/
theorem shows_no_creations :
    Shows (createPortrait fns) (.init, []) (.start CreateState.init.bookings) where
  object := rfl
  history := rfl
  calls := fun _ => .unknown

/-- Who was answered has returned. -/
theorem creation_returned {l : BookingRun} (h : Shows (createPortrait fns) s l) {q : CreateId}
    {call : CreateCall} {outcome : CreateOutcome}
    (hans : s.1.requests q = some (call, .answered outcome)) :
    ∃ answer, l.calls q = some (.returned call answer) ∧ answer.outcome = outcome := by
  have hstands : CreationStands fns (s.1.requests q) (l.calls q) := h.calls q
  rw [hans] at hstands
  generalize l.calls q = status at hstands
  cases hstands with
  | answered answer => exact ⟨answer, rfl, rfl⟩

/-- Who has not arrived has not called. -/
theorem creation_uncalled {l : BookingRun} (h : Shows (createPortrait fns) s l) {q : CreateId}
    (hnone : s.1.requests q = none) : l.calls q = none := by
  have hstands : CreationStands fns (s.1.requests q) (l.calls q) := h.calls q
  rw [hnone] at hstands
  generalize l.calls q = status at hstands
  cases hstands
  rfl

/-- **Creations are linearizable.**  In every interleaving of creations and cleanups
the history of requests and answers, the rides and the records are those of a run of
the atomic object, in which every creation is executed in one step between its call
and its return, and a record is forgotten when it is older than a week.  A request
that was answered before another one arrived is executed before it. -/
theorem creations_linearizable
    (h : Steps (observedCreations fns) free (.init, []) acts s)
    (hmore : Steps (observedCreations fns) free s more t) :
    ∃ l l' : BookingRun,
      AtomicRun (bookings fns) (.start CreateState.init.bookings) l ∧
      AtomicRun (bookings fns) l l' ∧
      (l.object = s.1.bookings ∧ l.history.map (Event.told Answer.outcome) = s.2) ∧
      (l'.object = t.1.bookings ∧ l'.history.map (Event.told Answer.outcome) = t.2) ∧
      ∀ p q callP callQ outcomeP outcomeQ,
        s.1.requests p = some (callP, .answered outcomeP) → outcomeP ≠ .failed →
        s.1.requests q = none →
        t.1.requests q = some (callQ, .answered outcomeQ) → outcomeQ ≠ .failed →
        ∃ front back, l'.order = front ++ back ∧ p ∈ front ∧ q ∈ back := by
  obtain ⟨l, hbefore, hshows⟩ := run_shows_creations shows_no_creations creationsStand_init h
  have hs : CreationsStand s.1 := (unrecorded free h).invariant CreationsStand
    creationsStand_init fun _ _ _ hu _ hstep => creationsStand_kept hu hstep
  obtain ⟨l', hafter, hshows'⟩ := run_shows_creations hshows hs hmore
  refine ⟨l, l', hbefore, hafter, ⟨hshows.object, hshows.history⟩,
    ⟨hshows'.object, hshows'.history⟩, ?_⟩
  intro p q callP callQ outcomeP outcomeQ hp hdone hq hq' hdone'
  have hplaced : Placed (bookings fns) l := hbefore.placed (placed_start _)
  have hplaced' : Placed (bookings fns) l' := hafter.placed hplaced
  obtain ⟨answer, hcall, rfl⟩ := creation_returned hshows hp
  obtain ⟨answer', hcall', rfl⟩ := creation_returned hshows' hq'
  have hkept : answer ≠ .failed := fun hlost => hdone (hlost ▸ rfl)
  have hkept' : answer' ≠ .failed := fun hlost => hdone' (hlost ▸ rfl)
  exact real_time hplaced hafter hcall hkept (creation_uncalled hshows hq)
    (hplaced'.returned q callQ answer' hcall' hkept')

end Runs

/-- The request was answered with a ride. -/
def CreateState.created (s : CreateState) (q : CreateId) : Bool :=
  match s.requests q with
  | some (_, .answered (.created _)) => true
  | _ => false

/-- A request that was answered with a ride did not fail. -/
theorem created_answered {s : CreateState} {q : CreateId} (h : s.created q = true) :
    ∃ call outcome, s.requests q = some (call, .answered outcome) ∧ outcome ≠ .failed := by
  unfold CreateState.created at h
  split at h
  case h_1 call response hreq => exact ⟨call, .created response, hreq, by simp⟩
  case h_2 => cases h

/-- The third creation of `racingCreations` is executed after the first one, whose
answer it gets. -/
theorem creation_executed_before_replay : ∃ (s t : CreateState) (l : BookingRun),
    Steps (createSystem sampleFunctions) free .init (racingCreations.take 8) s ∧
      Steps (createSystem sampleFunctions) free s (racingCreations.drop 8) t ∧
      AtomicRun (bookings sampleFunctions) (.start CreateState.init.bookings) l ∧
      l.object = t.bookings ∧
      ∃ front back, l.order = front ++ back ∧ ⟨1, 0⟩ ∈ front ∧ ⟨1, 2⟩ ∈ back := by
  have hfirst : (exec (createSystem sampleFunctions) .init (racingCreations.take 8)).any
      (fun s => s.created ⟨1, 0⟩ && (s.requests ⟨1, 2⟩).isNone) = true := by decide
  have hboth : (exec (createSystem sampleFunctions) .init
      (racingCreations.take 8 ++ racingCreations.drop 8)).any
      (fun s => s.created ⟨1, 2⟩) = true := by decide
  obtain ⟨s, hbefore, hs⟩ := Steps.of_exec_any hfirst
  obtain ⟨t, hrun, ht⟩ := Steps.of_exec_any hboth
  obtain ⟨s', hbefore', hafter⟩ := hrun.split
  obtain rfl := hbefore'.unique hbefore
  rw [Bool.and_eq_true, Option.isNone_iff_eq_none] at hs
  obtain ⟨callP, outcomeP, hp, hdone⟩ := created_answered hs.1
  obtain ⟨callQ, outcomeQ, hq, hdone'⟩ := created_answered ht
  obtain ⟨seen, hrecorded⟩ := recorded creationsSeen hbefore []
  obtain ⟨seen', hrecorded'⟩ := recorded creationsSeen hafter seen
  obtain ⟨l, l', hl, hl', _, hobject, horder⟩ := creations_linearizable hrecorded hrecorded'
  exact ⟨s', t, l', hbefore, hafter, hl.trans hl', hobject.1,
    horder ⟨1, 0⟩ ⟨1, 2⟩ _ _ _ _ hp hdone hs.2 hq hdone'⟩

end RideFlow
