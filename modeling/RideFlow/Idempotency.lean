import RideFlow.CreateRide
import RideFlow.Library.Tables

/-!
# Idempotent ride creation

Several requests with one key can all miss the record and flush a ride each;
the unique constraint then lets one of them commit.  The books of a state say
so in numbers: the committed rides with a key are as many as the records of
that key, present or deleted by a committed cleanup, and at most one is
present (`create_books_kept`).  Every success response with a key describes
the ride of such a record.
-/

namespace RideFlow

open Tables Function Runs

/-- The record is the one of this key. -/
def IdempotencyRecord.isFor (record : IdempotencyRecord) (key : String) : Bool :=
  record.key = key ∧ record.scope = idempotencyScopeCreate

/-- The committed rides with a key. -/
def CreateState.ridesWith (s : CreateState) (key : String) : Nat :=
  s.rides.countP fun ride => ride.idempotencyKey = some key

/-- The committed deletions of a key's record. -/
def CreateState.deletionsOf (s : CreateState) (key : String) : Nat :=
  s.deleted.countP fun record => record.isFor key

/-- The records ever committed. -/
def CreateState.everStored (s : CreateState) : List IdempotencyRecord :=
  s.records ++ s.deleted

/-- Some record of the key has this response. -/
def Described (s : CreateState) (key : String) (response : RideOut) : Prop :=
  ∃ record ∈ s.everStored, record.isFor key = true ∧ record.responseBody = response

/-- What is known of a request in each stage. -/
def CreateStage.Fine (fns : BodyFunctions) (s : CreateState) (call : CreateCall) :
    CreateStage → Prop
  | .storing ride => ∃ id, ride = insertedRide fns call id
  | .replaying response => ∀ key, call.key? = some key → Described s key response
  | .answered (.created response) => ∀ key, call.key? = some key → Described s key response
  | _ => True

/-- A record was stored by a request that was answered with its response. -/
def StoredBy (fns : BodyFunctions) (s : CreateState) (record : IdempotencyRecord) : Prop :=
  ∃ q call, s.requests q = some (call, .answered (.created record.responseBody)) ∧
    call.key? = some record.key ∧ record.scope = idempotencyScopeCreate ∧
    record.requestFingerprint = fns.fingerprint call.payload ∧
    record.responseBody.passengerId = q.passenger

/-- The books of a state. -/
structure CreateBooks (fns : BodyFunctions) (s : CreateState) : Prop where
  balance : ∀ key, key ≠ "" →
    s.ridesWith key = s.everStored.countP fun record => record.isFor key
  unique : ∀ key, s.records.countP (fun record => record.isFor key) ≤ 1
  caller : ∀ q call stage, s.requests q = some (call, stage) → call.user.id = q.passenger
  fine : ∀ q call stage, s.requests q = some (call, stage) → stage.Fine fns s call
  stored : ∀ record ∈ s.everStored, StoredBy fns s record

section Keep

variable {fns : BodyFunctions} {s t : CreateState} {q : CreateId} {call : CreateCall}
  {stage : CreateStage} {key : String}

/-- A present key is the header, and not empty. -/
theorem key?_eq_some : call.key? = some key ↔ call.idempotencyKey = some key ∧ key ≠ "" := by
  simp [CreateCall.key?, Option.filter_eq_some_iff]

/-- A key under which nothing is cached has no record. -/
theorem no_record (hkey : call.key? = some key) (h : s.cached call = none) :
    s.records.countP (fun record => record.isFor key) = 0 := by
  rw [CreateState.cached, hkey, Option.bind_some] at h
  rw [List.countP_eq_zero]
  intro record hmem hfor
  exact List.find?_eq_none.mp h record hmem hfor

/-- A cached response is that of a record of the request's key. -/
theorem cached_record {record : IdempotencyRecord} (h : s.cached call = some record) :
    record ∈ s.records ∧ ∀ key, call.key? = some key → record.isFor key = true := by
  obtain ⟨key, hkey, hfind⟩ := Option.bind_eq_some_iff.mp h
  refine ⟨List.mem_of_find?_eq_some hfind, ?_⟩
  intro key' hkey'
  obtain rfl : key = key' := Option.some.inj (hkey.symm.trans hkey')
  have hfor := List.find?_some hfind
  exact hfor

/-- Fine requests stay fine while records are kept. -/
theorem CreateStage.Fine.mono
    (hkeep : ∀ key response, Described s key response → Described t key response)
    (h : stage.Fine fns s call) : stage.Fine fns t call := by
  cases stage with
  | starting => trivial
  | inserting => trivial
  | storing ride => exact h
  | replaying response => exact fun key hkey => hkeep key response (h key hkey)
  | answered outcome =>
      cases outcome with
      | created response => exact fun key hkey => hkeep key response (h key hkey)
      | rejected _ => trivial
      | failed => trivial

/-- Books survive a step that moves one unanswered request and stores
nothing. -/
theorem CreateBooks.move (h : CreateBooks fns s)
    (hreq : t.requests = update s.requests q (some (call, stage)))
    (hrides : t.rides = s.rides) (hrecords : t.records = s.records)
    (hdeleted : t.deleted = s.deleted)
    (hopen : ∀ call' outcome, s.requests q ≠ some (call', .answered outcome))
    (hcaller : call.user.id = q.passenger) (hfine : stage.Fine fns s call) :
    CreateBooks fns t := by
  have hstored : t.everStored = s.everStored := by
    rw [CreateState.everStored, hrecords, hdeleted, CreateState.everStored]
  have hkeep : ∀ key response, Described s key response → Described t key response := by
    intro key response hdesc
    rw [Described, hstored]
    exact hdesc
  constructor
  · intro key hkey
    rw [CreateState.ridesWith, hrides, hstored]
    exact h.balance key hkey
  · rw [hrecords]
    exact h.unique
  · intro p call' stage' hp
    rw [hreq] at hp
    rcases update_some_iff.mp hp with ⟨rfl, hnew⟩ | ⟨_, hold⟩
    · cases hnew
      exact hcaller
    · exact h.caller p call' stage' hold
  · intro p call' stage' hp
    rw [hreq] at hp
    rcases update_some_iff.mp hp with ⟨rfl, hnew⟩ | ⟨_, hold⟩
    · cases hnew
      exact hfine.mono hkeep
    · exact (h.fine p call' stage' hold).mono hkeep
  · intro record hmem
    rw [hstored] at hmem
    obtain ⟨p, call', hp, hrest⟩ := h.stored record hmem
    refine ⟨p, call', ?_, hrest⟩
    rw [hreq]
    refine update_some_iff.mpr (Or.inr ⟨?_, hp⟩)
    intro heq
    exact hopen call' _ (heq ▸ hp)

/-- A record without its lock. -/
def IdempotencyRecord.content (record : IdempotencyRecord) : IdempotencyRecord :=
  { record with deletedBy := none }

/-- Counting the records of a key looks at their contents only. -/
theorem countP_content (records : List IdempotencyRecord) (key : String) :
    records.countP (fun record => record.isFor key) =
      (records.map IdempotencyRecord.content).countP fun record => record.isFor key := by
  rw [List.countP_map]
  rfl

/-- Books survive a step that only locks, unlocks or removes records. -/
theorem CreateBooks.reshelve (h : CreateBooks fns s) (hreq : t.requests = s.requests)
    (hrides : t.rides = s.rides)
    (hperm : (t.everStored.map IdempotencyRecord.content).Perm
      (s.everStored.map IdempotencyRecord.content))
    (hunique : ∀ key, t.records.countP (fun record => record.isFor key) ≤
      s.records.countP fun record => record.isFor key) : CreateBooks fns t := by
  have hkeep : ∀ key response, Described s key response → Described t key response := by
    intro key response hdesc
    obtain ⟨record, hmem, hfor, hbody⟩ := hdesc
    have hmem' := hperm.mem_iff.mpr (List.mem_map_of_mem hmem)
    obtain ⟨record', hrecord', hsame⟩ := List.mem_map.mp hmem'
    refine ⟨record', hrecord', ?_, ?_⟩
    · have hfor' : record'.content.isFor key = record.content.isFor key := by rw [hsame]
      exact hfor'.trans hfor
    · have hbody' : record'.content.responseBody = record.content.responseBody := by rw [hsame]
      exact hbody'.trans hbody
  constructor
  · intro key hkey
    rw [CreateState.ridesWith, hrides, countP_content, hperm.countP_eq, ← countP_content]
    exact h.balance key hkey
  · exact fun key => Nat.le_trans (hunique key) (h.unique key)
  · rw [hreq]
    exact h.caller
  · intro q call stage hq
    rw [hreq] at hq
    exact (h.fine q call stage hq).mono hkeep
  · intro record hmem
    have hmem' := hperm.mem_iff.mp (List.mem_map_of_mem hmem)
    obtain ⟨record', hrecord', hsame⟩ := List.mem_map.mp hmem'
    have hstored : StoredBy fns s record'.content := h.stored record' hrecord'
    rw [hsame] at hstored
    obtain ⟨q, call, hq, hrest⟩ := hstored
    exact ⟨q, call, hreq ▸ hq, hrest⟩

/-- Books survive a step that locks or unlocks records in place. -/
theorem CreateBooks.relock (h : CreateBooks fns s) {f : IdempotencyRecord → IdempotencyRecord}
    (hf : ∀ record, (f record).content = record.content) (hreq : t.requests = s.requests)
    (hrides : t.rides = s.rides) (hrecords : t.records = s.records.map f)
    (hdeleted : t.deleted = s.deleted) : CreateBooks fns t := by
  have hmap : t.records.map IdempotencyRecord.content =
      s.records.map IdempotencyRecord.content := by
    rw [hrecords, List.map_map]
    exact List.map_congr_left fun record _ => hf record
  refine h.reshelve hreq hrides ?_ ?_
  · rw [CreateState.everStored, List.map_append, hmap, hdeleted, ← List.map_append]
    rfl
  · intro key
    rw [countP_content, hmap, ← countP_content]

theorem pendingRecords_none {ride : Ride} (hkey : call.key? = none) :
    pendingRecords fns call ride = [] := by
  rw [pendingRecords, hkey]

theorem pendingRecords_some {ride : Ride} (hkey : call.key? = some key) :
    pendingRecords fns call ride =
      [storeResponse fns key idempotencyScopeCreate call.payload 201 (rideOut ride)
        call.startedAt] := by
  rw [pendingRecords, hkey]

/-- The record of a new ride is for the request's key and describes the ride. -/
theorem pendingRecords_describe {ride : Ride} (hkey : call.key? = some key) :
    ∃ record, pendingRecords fns call ride = [record] ∧ record.isFor key = true ∧
      record.responseBody = rideOut ride :=
  ⟨_, pendingRecords_some hkey, decide_eq_true ⟨rfl, rfl⟩, rfl⟩

/-- A request stores one record for its key, and none for any other key. -/
theorem pendingRecords_count {ride : Ride} (hne : key ≠ "") :
    (pendingRecords fns call ride).countP (fun record => record.isFor key) =
      if call.idempotencyKey = some key then 1 else 0 := by
  cases hkey : call.key? with
  | none =>
      have hother : call.idempotencyKey ≠ some key := by
        intro hsome
        rw [key?_eq_some.mpr ⟨hsome, hne⟩] at hkey
        cases hkey
      rw [pendingRecords_none hkey, if_neg hother]
      rfl
  | some key' =>
      rw [pendingRecords_some hkey, (key?_eq_some.mp hkey).1]
      by_cases heq : key' = key
      · simp [heq, IdempotencyRecord.isFor, storeResponse]
      · simp [heq, IdempotencyRecord.isFor, storeResponse]

/-- What is stored where nothing was cached keeps the keys unique. -/
theorem pendingRecords_unique {ride : Ride} (hfree : s.cached call = none)
    (hunique : s.records.countP (fun record => record.isFor key) ≤ 1) :
    (s.records ++ pendingRecords fns call ride).countP (fun record => record.isFor key) ≤ 1 := by
  rw [List.countP_append]
  cases hkey : call.key? with
  | none =>
      rw [pendingRecords_none hkey]
      exact hunique
  | some key' =>
      rw [pendingRecords_some hkey]
      by_cases heq : key' = key
      · subst heq
        rw [no_record hkey hfree, Nat.zero_add]
        exact List.countP_le_length
      · simpa [heq, IdempotencyRecord.isFor, storeResponse] using hunique

theorem everStored_publish {ride : Ride} {new : List IdempotencyRecord}
    {record : IdempotencyRecord} :
    record ∈ (s.publish q call ride new).everStored ↔ record ∈ s.everStored ∨ record ∈ new := by
  simp only [CreateState.publish, CreateState.everStored, List.mem_append]
  exact or_right_comm

/-- Books survive the COMMIT of a new ride. -/
theorem CreateBooks.publish (h : CreateBooks fns s) {ride : Ride}
    (hreq : s.requests q = some (call, .storing ride)) (hfree : s.cached call = none) :
    CreateBooks fns (s.publish q call ride (pendingRecords fns call ride)) := by
  obtain ⟨id, rfl⟩ : ∃ id, ride = insertedRide fns call id := h.fine q call _ hreq
  have hcaller := h.caller q call _ hreq
  constructor
  · intro key hne
    have hbalance := h.balance key hne
    have hride : (insertedRide fns call id).idempotencyKey = call.idempotencyKey := rfl
    simp only [CreateState.ridesWith, CreateState.everStored, CreateState.publish,
      List.countP_append, pendingRecords_count hne, List.countP_singleton, hride,
      decide_eq_true_eq] at hbalance ⊢
    omega
  · exact fun key => pendingRecords_unique hfree (h.unique key)
  · intro p call' stage hp
    rcases update_some_iff.mp hp with ⟨rfl, hnew⟩ | ⟨_, hold⟩
    · cases hnew
      exact hcaller
    · exact h.caller p call' stage hold
  · intro p call' stage hp
    rcases update_some_iff.mp hp with ⟨rfl, hnew⟩ | ⟨_, hold⟩
    · cases hnew
      intro key hkey
      obtain ⟨record, hnew, hfor, hbody⟩ := pendingRecords_describe hkey
      exact ⟨record, everStored_publish.mpr (Or.inr (hnew ▸ List.mem_cons_self)), hfor, hbody⟩
    · refine (h.fine p call' stage hold).mono fun key response hdesc => ?_
      obtain ⟨record, hrecord, hrest⟩ := hdesc
      exact ⟨record, everStored_publish.mpr (Or.inl hrecord), hrest⟩
  · intro record hrecord
    rcases everStored_publish.mp hrecord with hold | hadded
    · obtain ⟨p, call', hp, hrest⟩ := h.stored record hold
      refine ⟨p, call', update_some_iff.mpr (Or.inr ⟨?_, hp⟩), hrest⟩
      intro heq
      rw [heq, hreq] at hp
      cases hp
    · cases hkey : call.key? with
      | none =>
          rw [pendingRecords_none hkey] at hadded
          cases hadded
      | some key =>
          rw [pendingRecords_some hkey] at hadded
          obtain rfl := List.mem_singleton.mp hadded
          exact ⟨q, call, update_some_iff.mpr (Or.inl ⟨rfl, rfl⟩), hkey, rfl, rfl, hcaller⟩

/-- A request in a stage other than `answered` is unanswered. -/
theorem create_unanswered {call' : CreateCall} (hreq : s.requests q = some (call', stage))
    (hne : ∀ outcome, stage ≠ .answered outcome) :
    ∀ call'' outcome, s.requests q ≠ some (call'', .answered outcome) := by
  intro call'' outcome heq
  rw [hreq] at heq
  cases heq
  exact hne outcome rfl

/-- One step keeps the books. -/
theorem step_createBooks {a : CreateAction} (h : CreateBooks fns s)
    (hstep : createStep fns s a = some t) : CreateBooks fns t := by
  cases a with
  | begin q user payload key =>
      obtain ⟨hnone, huser, _, rfl⟩ := create_begin hstep
      exact h.move rfl rfl rfl rfl (fun _ _ heq => by simp [hnone] at heq) huser trivial
  | lookup q =>
      obtain ⟨call, hreq, rfl⟩ := create_lookup hstep
      refine h.move rfl rfl rfl rfl (create_unanswered hreq (by simp))
        (h.caller q call _ hreq) ?_
      cases hcached : s.cached call with
      | none => trivial
      | some cached =>
          obtain ⟨hrecord, hfor⟩ := cached_record hcached
          dsimp only [afterLookup]
          split
          case isTrue => trivial
          case isFalse =>
              exact fun key hkey => ⟨cached, List.mem_append_left _ hrecord, hfor key hkey, rfl⟩
  | insert q id =>
      obtain ⟨call, hreq, _, ⟨_, rfl⟩ | ⟨_, rfl⟩⟩ := create_insert hstep
      · exact h.move rfl rfl rfl rfl (create_unanswered hreq (by simp))
          (h.caller q call _ hreq) trivial
      · exact h.move rfl rfl rfl rfl (create_unanswered hreq (by simp))
          (h.caller q call _ hreq) ⟨id, rfl⟩
  | commit q =>
      obtain ⟨call, ⟨ride, hreq, hcases⟩ | ⟨response, hreq, rfl⟩⟩ := create_commit hstep
      · rcases hcases with ⟨hfree, rfl⟩ | ⟨_, _, rfl⟩
        · exact h.publish hreq hfree
        · exact h.move rfl rfl rfl rfl (create_unanswered hreq (by simp))
            (h.caller q call _ hreq) trivial
      · have hfine := h.fine q call _ hreq
        exact h.move rfl rfl rfl rfl (create_unanswered hreq (by simp))
          (h.caller q call _ hreq) hfine
  | abort q =>
      obtain ⟨call, stage, hreq, hne, rfl⟩ := create_abort hstep
      exact h.move rfl rfl rfl rfl (create_unanswered hreq hne)
        (h.caller q call _ hreq) trivial
  | beginCleanup c =>
      obtain ⟨_, rfl⟩ := create_beginCleanup hstep
      exact h.reshelve rfl rfl (.refl _) fun _ => Nat.le_refl _
  | deleteRecords c =>
      obtain ⟨now, _, _, rfl⟩ := create_deleteRecords hstep
      refine h.relock ?_ rfl rfl rfl rfl
      intro record
      split <;> rfl
  | commitCleanup c =>
      obtain ⟨_, rfl⟩ := create_commitCleanup hstep
      refine h.reshelve rfl rfl (List.Perm.map _ ?_) ?_
      · simp only [CreateState.everStored]
        rw [← List.append_assoc]
        refine List.perm_append_comm.trans ?_
        rw [← List.append_assoc]
        refine List.Perm.append_right _ ?_
        simpa using List.filter_append_perm (fun record => record.deletedBy = some c) s.records
      · exact fun key => List.filter_sublist.countP_le
  | abortCleanup c =>
      obtain ⟨_, _, rfl⟩ := create_abortCleanup hstep
      refine h.relock ?_ rfl rfl rfl rfl
      intro record
      split <;> rfl
  | advance seconds =>
      obtain rfl := create_advance hstep
      exact h.reshelve rfl rfl (.refl _) fun _ => Nat.le_refl _

end Keep

section Runs

variable {fns : BodyFunctions} {ok : CreateState → CreateAction → Prop} {s t : CreateState}
  {acts : List CreateAction}

/-- **The books are kept by every run.** -/
theorem create_books_kept (h : Steps (createSystem fns) ok .init acts s) :
    CreateBooks fns s := by
  refine h.invariant (CreateBooks fns) ?_ fun _ _ _ hs _ hstep => step_createBooks hs hstep
  constructor <;> intros <;>
    simp_all [CreateState.init, CreateState.ridesWith, CreateState.everStored]

/-- The records of a key that was never cleaned up have one response. -/
theorem described_unique (h : CreateBooks fns s) {key : String}
    (hkept : ∀ record ∈ s.deleted, record.isFor key = false) {out out' : RideOut}
    (hout : Described s key out) (hout' : Described s key out') : out = out' := by
  have hpresent : ∀ response, Described s key response → ∃ record ∈ s.records,
      record.isFor key = true ∧ record.responseBody = response := by
    intro response hdesc
    obtain ⟨record, hmem, hfor, hbody⟩ := hdesc
    rcases List.mem_append.mp hmem with hmem | hmem
    · exact ⟨record, hmem, hfor, hbody⟩
    · rw [hkept record hmem] at hfor
      cases hfor
  obtain ⟨record, hmem, hfor, rfl⟩ := hpresent out hout
  obtain ⟨record', hmem', hfor', rfl⟩ := hpresent out' hout'
  have hunique := h.unique key
  rw [List.countP_eq_length_filter] at hunique
  have hin : record ∈ s.records.filter fun record => record.isFor key :=
    List.mem_filter.mpr ⟨hmem, hfor⟩
  have hin' : record' ∈ s.records.filter fun record => record.isFor key :=
    List.mem_filter.mpr ⟨hmem', hfor'⟩
  have hone : (s.records.filter fun record => record.isFor key).length = 1 := by
    have hpos := List.length_pos_of_mem hin
    omega
  obtain ⟨only, hlist⟩ := List.length_eq_one_iff.mp hone
  rw [hlist] at hin hin'
  rw [List.mem_singleton.mp hin, List.mem_singleton.mp hin']

/-- A ride becomes visible only by a COMMIT, and one with a key only together
with the key's record. -/
theorem ride_with_record (h : CreateBooks fns s) {a : CreateAction}
    (hstep : createStep fns s a = some t) :
    t.rides = s.rides ∨ ∃ ride, t.rides = s.rides ++ [ride] ∧
      ∀ key, ride.idempotencyKey = some key → key ≠ "" →
        ∃ record, t.records = s.records ++ [record] ∧ record.isFor key = true ∧
          record.responseBody = rideOut ride := by
  cases a with
  | commit q =>
      obtain ⟨call, ⟨ride, hreq, hcases⟩ | ⟨response, hreq, rfl⟩⟩ := create_commit hstep
      · obtain ⟨id, rfl⟩ : ∃ id, ride = insertedRide fns call id := h.fine q call _ hreq
        rcases hcases with ⟨_, rfl⟩ | ⟨_, _, rfl⟩
        · refine Or.inr ⟨insertedRide fns call id, rfl, ?_⟩
          intro key hride hne
          obtain ⟨record, hnew, hfor, hbody⟩ :=
            pendingRecords_describe (key?_eq_some.mpr ⟨hride, hne⟩)
          exact ⟨record, congrArg (s.records ++ ·) hnew, hfor, hbody⟩
        · exact Or.inl rfl
      · exact Or.inl rfl
  | begin _ _ _ _ =>
      obtain ⟨_, _, _, rfl⟩ := create_begin hstep
      exact Or.inl rfl
  | lookup _ =>
      obtain ⟨_, _, rfl⟩ := create_lookup hstep
      exact Or.inl rfl
  | insert _ _ =>
      obtain ⟨_, _, _, ⟨_, rfl⟩ | ⟨_, rfl⟩⟩ := create_insert hstep
      · exact Or.inl rfl
      · exact Or.inl rfl
  | abort _ =>
      obtain ⟨_, _, _, _, rfl⟩ := create_abort hstep
      exact Or.inl rfl
  | beginCleanup _ =>
      obtain ⟨_, rfl⟩ := create_beginCleanup hstep
      exact Or.inl rfl
  | deleteRecords _ =>
      obtain ⟨_, _, _, rfl⟩ := create_deleteRecords hstep
      exact Or.inl rfl
  | commitCleanup _ =>
      obtain ⟨_, rfl⟩ := create_commitCleanup hstep
      exact Or.inl rfl
  | abortCleanup _ =>
      obtain ⟨_, _, rfl⟩ := create_abortCleanup hstep
      exact Or.inl rfl
  | advance _ =>
      obtain rfl := create_advance hstep
      exact Or.inl rfl

/-- **Idempotent creation is at most once.**  In every interleaving of
creations and cleanups, for every non-empty key:

* the committed rides with the key are at most one more than the committed
  deletions of its record;
* a ride with the key is committed together with the record of the key;
* as long as no deletion of its record was committed, all success responses
  that carry the key describe one ride, whatever their bodies. -/
theorem creation_at_most_once (h : Steps (createSystem fns) free .init acts s) :
    (∀ key, key ≠ "" → s.ridesWith key ≤ 1 + s.deletionsOf key) ∧
    (∀ a t, createStep fns s a = some t → t.rides = s.rides ∨
      ∃ ride, t.rides = s.rides ++ [ride] ∧
        ∀ key, ride.idempotencyKey = some key → key ≠ "" →
          ∃ record, t.records = s.records ++ [record] ∧ record.isFor key = true ∧
            record.responseBody = rideOut ride) ∧
    ∀ key, key ≠ "" → s.deletionsOf key = 0 → ∀ p q callP callQ outP outQ,
      s.requests p = some (callP, .answered (.created outP)) →
      s.requests q = some (callQ, .answered (.created outQ)) →
      callP.idempotencyKey = some key → callQ.idempotencyKey = some key →
      outP = outQ := by
  have hbooks := create_books_kept h
  refine ⟨?_, fun _ _ hstep => ride_with_record hbooks hstep, ?_⟩
  · intro key hne
    have hbalance := hbooks.balance key hne
    have hunique := hbooks.unique key
    rw [CreateState.everStored, List.countP_append] at hbalance
    rw [hbalance, CreateState.deletionsOf]
    omega
  · intro key hne hkept p q callP callQ outP outQ hp hq hkeyP hkeyQ
    have hnone : ∀ record ∈ s.deleted, record.isFor key = false := by
      intro record hmem
      exact Bool.eq_false_iff.mpr (List.countP_eq_zero.mp hkept record hmem)
    exact described_unique hbooks hnone
      (hbooks.fine p callP _ hp key (key?_eq_some.mpr ⟨hkeyP, hne⟩))
      (hbooks.fine q callQ _ hq key (key?_eq_some.mpr ⟨hkeyQ, hne⟩))

end Runs

/-- The hash and the fare of `sampleBody`. -/
def sampleFunctions : BodyFunctions where
  fingerprint := fun _ => "322294c87a84539cbf3e6e266631f398f03ce3c616f21c34399bab93f5386335"
  estimateFare := fun _ => sampleFare

/-- Two requests with one key both miss the record; the second COMMIT fails
on the constraint, and a third request replays the first answer. -/
def racingCreations : List CreateAction :=
  [.begin ⟨1, 0⟩ (sampleUser 1 .passenger) sampleBody (some "k"),
    .begin ⟨1, 1⟩ (sampleUser 1 .passenger) sampleBody (some "k"),
    .lookup ⟨1, 0⟩, .lookup ⟨1, 1⟩, .insert ⟨1, 0⟩ 0, .insert ⟨1, 1⟩ 1,
    .commit ⟨1, 0⟩, .commit ⟨1, 1⟩,
    .begin ⟨1, 2⟩ (sampleUser 1 .passenger) sampleBody (some "k"),
    .lookup ⟨1, 2⟩, .commit ⟨1, 2⟩]

theorem racing_creations_make_one : ∃ s,
    Steps (createSystem sampleFunctions) free .init racingCreations s ∧
      (s.requests ⟨1, 2⟩).isSome ∧ s.ridesWith "k" ≤ 1 + s.deletionsOf "k" := by
  have hreplay : (exec (createSystem sampleFunctions) .init racingCreations).any
      (fun s => (s.requests ⟨1, 2⟩).isSome) = true := by decide
  obtain ⟨s, hrun, hs⟩ := Steps.of_exec_any hreplay
  exact ⟨s, hrun, hs, (creation_at_most_once hrun).1 "k" (by decide)⟩

end RideFlow
