import RideFlow.CreationLinearizability
import RideFlow.RoundTrip
import RideFlow.Server

/-!
# The week of a key

A record is kept for a week at least, and while it is there every creation with its
key is answered from it.  The argument is about the object of atomic creations alone:
what it holds is in order (`Bookings.Ordered`), it has a record of whatever it has
answered in the last week (`Mindful`), and it answers later creations from that record
(`Standing`).  Since creations are linearizable, so do the requests of the server,
however they and the cleanups overlap (`key_stands_for_one_ride`).
-/

namespace RideFlow

open Function Linearization Relation Runs Tables

/-- One record for each key, and as old as the ride that it describes. -/
structure Bookings.Ordered (b : Bookings) : Prop where
  unique : ∀ key, b.records.countP (fun record => record.isFor key) ≤ 1
  dated : ∀ record ∈ b.records, record.createdAt = record.responseBody.createdAt

/-- What is answered with a key is on record, unless it is older than a week. -/
def Mindful (fns : BodyFunctions) (l : BookingRun) : Prop :=
  ∀ q call answer response key, l.Came q call answer → answer.outcome = .created response →
    call.key? = some key →
    l.object.clock ≤ response.createdAt + recordLifetime →
    ∃ record ∈ l.object.records, record.isFor key = true ∧ record.responseBody = response ∧
      record.requestFingerprint = fns.fingerprint call.payload

section Object

variable {fns : BodyFunctions} {b b' : Bookings} {call : CreateCall} {answer : Answer}
  {key : String} {record : IdempotencyRecord} {id : RideId}

/-- With a single record, that is the one that is found. -/
theorem cached_of_unique (hunique : b.records.countP (fun row => row.isFor key) ≤ 1)
    (hmem : record ∈ b.records) (hfor : record.isFor key = true) (hkey : call.key? = some key) :
    b.cached call = some record := by
  have hfind : (b.records.find? fun row => row.isFor key).isSome = true :=
    List.find?_isSome.mpr ⟨record, hmem, hfor⟩
  obtain ⟨found, hfound⟩ := Option.isSome_iff_exists.mp hfind
  have hfoundFor : found.isFor key = true :=
    List.find?_some (p := fun row : IdempotencyRecord => row.isFor key) hfound
  have hsame : found = record :=
    eq_of_countP_le_one hunique (List.mem_of_find?_eq_some hfound) hfoundFor hmem hfor
  rw [Bookings.cached, hkey, Option.bind_some, ← hsame]
  exact hfound

/-- The record that is found is for the key. -/
theorem cached_mem (h : b.cached call = some record) :
    record ∈ b.records ∧ ∀ key, call.key? = some key → record.isFor key = true := by
  obtain ⟨key, hkey, hfind⟩ := Option.bind_eq_some_iff.mp h
  refine ⟨List.mem_of_find?_eq_some hfind, fun key' hkey' => ?_⟩
  obtain rfl : key = key' := Option.some.inj (hkey.symm.trans hkey')
  exact List.find?_some (p := fun row : IdempotencyRecord => row.isFor key) hfind

/-- What a creation that runs alone does. -/
theorem alone_cases (h : createRideAlone fns call id b = (answer, b')) :
    (∃ cached, b.cached call = some cached ∧ b' = b ∧
      (cached.requestFingerprint ≠ fns.fingerprint call.payload ∧
          answer = .rejected keyReused ∨
        cached.requestFingerprint = fns.fingerprint call.payload ∧
          answer = .replayed cached.responseBody)) ∨
    b.cached call = none ∧ (answer = .failed ∧ b' = b ∨
      answer = .made (rideOut (insertedRide fns call id)) ∧
        b'.rides = b.rides ++ [insertedRide fns call id] ∧ b'.clock = b.clock ∧
        b'.records = b.records ++ pendingRecords fns call (insertedRide fns call id)) := by
  unfold createRideAlone at h
  split at h
  case h_1 cached hcached =>
      refine Or.inl ⟨cached, hcached, ?_⟩
      split at h
      case isTrue hreused =>
          obtain ⟨rfl, rfl⟩ := Prod.mk.inj h
          exact ⟨rfl, Or.inl ⟨hreused, rfl⟩⟩
      case isFalse hsame =>
          obtain ⟨rfl, rfl⟩ := Prod.mk.inj h
          exact ⟨rfl, Or.inr ⟨not_not.mp hsame, rfl⟩⟩
  case h_2 hcached =>
      refine Or.inr ⟨hcached, ?_⟩
      split at h
      case isTrue =>
          obtain ⟨rfl, rfl⟩ := Prod.mk.inj h
          exact Or.inl ⟨rfl, rfl⟩
      case isFalse =>
          obtain ⟨rfl, rfl⟩ := Prod.mk.inj h
          exact Or.inr ⟨rfl, rfl, rfl, rfl⟩

end Object

section Order

variable {fns : BodyFunctions} {b b' : Bookings} {call : CreateCall} {answer : Answer}

theorem Bookings.Ordered.ages (h : b.Ordered) (hages : b.Ages b') : b'.Ordered where
  unique key := (hages.records.countP_le).trans (h.unique key)
  dated record hmem := h.dated record (hages.records.subset hmem)

theorem Bookings.Ordered.exec (h : b.Ordered) (hexec : Bookings.Exec fns b call answer b') :
    b'.Ordered := by
  obtain ⟨id, halone⟩ := hexec.alone
  rcases alone_cases halone with ⟨_, _, rfl, _⟩ | ⟨hfree, ⟨_, rfl⟩ | ⟨_, _, _, hrecords⟩⟩
  · exact h
  · exact h
  · refine ⟨fun key => ?_, fun record hmem => ?_⟩
    · rw [hrecords, List.countP_append]
      cases hkey : call.key? with
      | none =>
          rw [pendingRecords_none hkey]
          exact h.unique key
      | some own =>
          rw [pendingRecords_some hkey]
          by_cases hsame : own = key
          · subst hsame
            have hnone : b.records.countP (fun record => record.isFor own) = 0 := by
              rw [List.countP_eq_zero]
              rw [Bookings.cached, hkey, Option.bind_some] at hfree
              exact fun record hmem hfor => List.find?_eq_none.mp hfree record hmem hfor
            rw [hnone, Nat.zero_add]
            exact List.countP_le_length
          · simpa [hsame, IdempotencyRecord.isFor, storeResponse] using h.unique key
    · rw [hrecords] at hmem
      rcases List.mem_append.mp hmem with hold | hnew
      · exact h.dated record hold
      · unfold pendingRecords at hnew
        split at hnew
        · cases hnew
        · obtain rfl := List.mem_singleton.mp hnew
          rfl

theorem atomicStep_ordered {l l' : BookingRun} (hstep : AtomicStep (bookings fns) l l')
    (h : l.object.Ordered) : l'.object.Ordered := by
  cases hstep with
  | env henv => exact h.ages henv
  | execute _ hexec => exact h.exec hexec
  | _ => exact h

end Order

/-- How a creation with the key of a record is answered from it. -/
def AnsweredFrom (fns : BodyFunctions) (record : IdempotencyRecord) (call : CreateCall)
    (answer : Answer) : Prop :=
  answer = .failed ∨
    (fns.fingerprint call.payload = record.requestFingerprint ∧
      answer = .replayed record.responseBody) ∨
    (fns.fingerprint call.payload ≠ record.requestFingerprint ∧ answer = .rejected keyReused)

/-- The rides with a key. -/
def Bookings.ridesWith (b : Bookings) (key : String) : Nat :=
  b.rides.countP fun ride => ride.idempotencyKey = some key

section Window

variable {fns : BodyFunctions} {b b' : Bookings} {l l' : BookingRun} {call : CreateCall}
  {answer : Answer} {key : String} {record : IdempotencyRecord}

/-- A creation that runs alone forgets nothing, and takes no time. -/
theorem Bookings.Exec.grows (h : Bookings.Exec fns b call answer b') :
    b.records ⊆ b'.records ∧ b'.clock = b.clock := by
  obtain ⟨id, halone⟩ := h.alone
  rcases alone_cases halone with ⟨_, _, rfl, _⟩ | ⟨_, ⟨_, rfl⟩ | ⟨_, _, hclock, hrecords⟩⟩
  · exact ⟨List.Subset.refl _, rfl⟩
  · exact ⟨List.Subset.refl _, rfl⟩
  · exact ⟨hrecords ▸ List.subset_append_left _ _, hclock⟩

/-- A ride that a creation with a key is answered with is on record. -/
theorem Bookings.Exec.recorded (h : Bookings.Exec fns b call answer b') {response : RideOut}
    (hanswer : answer.outcome = .created response) (hkey : call.key? = some key) :
    ∃ record ∈ b'.records, record.isFor key = true ∧ record.responseBody = response ∧
      record.requestFingerprint = fns.fingerprint call.payload := by
  obtain ⟨id, halone⟩ := h.alone
  rcases alone_cases halone with ⟨cached, hcached, rfl, ⟨_, rfl⟩ | ⟨hsame, rfl⟩⟩ |
    ⟨_, ⟨rfl, _⟩ | ⟨rfl, _, _, hrecords⟩⟩
  · cases hanswer
  · cases hanswer
    obtain ⟨hmem, hfor⟩ := cached_mem hcached
    exact ⟨cached, hmem, hfor key hkey, rfl, hsame⟩
  · cases hanswer
  · cases hanswer
    rw [hrecords, pendingRecords_some hkey]
    exact ⟨_, List.mem_append_right _ List.mem_cons_self, decide_eq_true ⟨rfl, rfl⟩, rfl, rfl⟩

/-- **One step keeps the memory.** -/
theorem atomicStep_mindful (hstep : AtomicStep (bookings fns) l l')
    (hordered : l.object.Ordered) (h : Mindful fns l) : Mindful fns l' := by
  intro p call answer response key hcame hanswer hkey hyoung
  cases hstep with
  | @env x henv =>
      have henv : l.object.Ages x := henv
      obtain ⟨record, hmem, hfor, hbody, hfingerprint⟩ :=
        h p call answer response key hcame hanswer hkey (henv.clock.trans hyoung)
      refine ⟨record, ?_, hfor, hbody, hfingerprint⟩
      by_contra hgone
      have hexpired := of_decide_eq_true (henv.forgotten record hmem hgone)
      rw [hordered.dated record hmem, hbody] at hexpired
      exact absurd hyoung (Nat.not_le.mpr hexpired)
  | call _ =>
      rcases came_put hcame with ⟨_, hstatus | hstatus⟩ | ⟨_, hold⟩
      · cases hstatus
      · cases hstatus
      · exact h p call answer response key hold hanswer hkey hyoung
  | @execute q op ret x _ hexec =>
      have hexec : Bookings.Exec fns l.object op ret x := hexec
      rcases came_put hcame with ⟨_, hstatus | hstatus⟩ | ⟨_, hold⟩
      · cases hstatus
        exact hexec.recorded hanswer hkey
      · cases hstatus
      · have hyoung : l.object.clock ≤ response.createdAt + recordLifetime :=
          hexec.grows.2 ▸ hyoung
        obtain ⟨record, hmem, hrest⟩ := h p call answer response key hold hanswer hkey hyoung
        exact ⟨record, hexec.grows.1 hmem, hrest⟩
  | ret hcall =>
      rcases came_finish hcame with ⟨rfl, rfl, rfl⟩ | ⟨_, hold⟩
      · exact h p _ _ response key (Or.inl hcall) hanswer hkey hyoung
      · exact h p call answer response key hold hanswer hkey hyoung
  | drop _ =>
      rcases came_finish hcame with ⟨_, _, rfl⟩ | ⟨_, hold⟩
      · cases hanswer
      · exact h p call answer response key hold hanswer hkey hyoung
  | lose _ _ =>
      rcases came_finish hcame with ⟨_, _, rfl⟩ | ⟨_, hold⟩
      · cases hanswer
      · exact h p call answer response key hold hanswer hkey hyoung

theorem atomicStep_clock (hstep : AtomicStep (bookings fns) l l') :
    l.object.clock ≤ l'.object.clock := by
  cases hstep with
  | @env x henv => exact (show l.object.Ages x from henv).clock
  | @execute q op ret x _ hexec =>
      exact (show Bookings.Exec fns l.object op ret x from hexec).grows.2.ge
  | _ => exact le_rfl

theorem atomicRun_clock (hrun : AtomicRun (bookings fns) l l') :
    l.object.clock ≤ l'.object.clock := by
  induction hrun with
  | refl => exact le_rfl
  | tail _ hstep ih => exact ih.trans (atomicStep_clock hstep)

/-- The object stays in order and mindful. -/
theorem atomicRun_mindful (hrun : AtomicRun (bookings fns) l l') (hordered : l.object.Ordered)
    (h : Mindful fns l) : l'.object.Ordered ∧ Mindful fns l' := by
  induction hrun with
  | refl => exact ⟨hordered, h⟩
  | tail _ hstep ih => exact ⟨atomicStep_ordered hstep ih.1, atomicStep_mindful hstep ih.1 ih.2⟩

/-- What has happened since `l`, where the record of `key` was there. -/
structure Standing (fns : BodyFunctions) (key : String) (record : IdempotencyRecord)
    (l l' : BookingRun) : Prop where
  kept : record ∈ l'.object.records
  rides : l'.object.ridesWith key = l.object.ridesWith key
  answers : ∀ q call answer, l.calls q = none → l'.Came q call answer →
    call.key? = some key → AnsweredFrom fns record call answer

theorem standing_refl (hmem : record ∈ l.object.records) : Standing fns key record l l where
  kept := hmem
  rides := rfl
  answers q call answer hnone hcame := by
    rcases hcame with hcall | hcall
    · rw [hnone] at hcall
      cases hcall
    · rw [hnone] at hcall
      cases hcall

/-- While the record is there no creation with its key makes a ride. -/
theorem Bookings.Exec.standing (hexec : Bookings.Exec fns b call answer b')
    (hordered : b.Ordered) (hmem : record ∈ b.records) (hfor : record.isFor key = true)
    (hne : key ≠ "") :
    b'.ridesWith key = b.ridesWith key ∧
      (call.key? = some key → AnsweredFrom fns record call answer) := by
  obtain ⟨id, halone⟩ := hexec.alone
  by_cases hkey : call.key? = some key
  · have hcached := cached_of_unique (hordered.unique key) hmem hfor hkey
    rcases alone_cases halone with ⟨cached, hfound, rfl, hcases⟩ | ⟨hfree, _⟩
    · obtain rfl : record = cached := Option.some.inj (hcached.symm.trans hfound)
      refine ⟨rfl, fun _ => Or.inr ?_⟩
      rcases hcases with ⟨hreused, hanswer⟩ | ⟨hsame, hanswer⟩
      · exact Or.inr ⟨fun heq => hreused heq.symm, hanswer⟩
      · exact Or.inl ⟨hsame.symm, hanswer⟩
    · rw [hcached] at hfree
      cases hfree
  · refine ⟨?_, fun hsame => absurd hsame hkey⟩
    rcases alone_cases halone with ⟨_, _, rfl, _⟩ | ⟨_, ⟨_, rfl⟩ | ⟨_, hrides, _, _⟩⟩
    · rfl
    · rfl
    · have hother : (insertedRide fns call id).idempotencyKey ≠ some key :=
        fun hown => hkey (key?_eq_some.mpr ⟨hown, hne⟩)
      simp [Bookings.ridesWith, hrides, hother]

/-- **One step keeps the answers to one ride**, until the record is too old. -/
theorem Standing.step {m : BookingRun} (h : Standing fns key record l m)
    (hstep : AtomicStep (bookings fns) m l') (hordered : m.object.Ordered)
    (hfor : record.isFor key = true) (hne : key ≠ "")
    (hyoung : l'.object.clock ≤ record.createdAt + recordLifetime) :
    Standing fns key record l l' := by
  cases hstep with
  | @env x henv =>
      have henv : m.object.Ages x := henv
      refine ⟨?_, ?_, h.answers⟩
      · by_contra hgone
        have hexpired := of_decide_eq_true (henv.forgotten record h.kept hgone)
        exact absurd hyoung (Nat.not_le.mpr hexpired)
      · have hsame : x.ridesWith key = m.object.ridesWith key := by
          rw [Bookings.ridesWith, henv.rides]
          rfl
        exact hsame.trans h.rides
  | call _ =>
      refine ⟨h.kept, h.rides, fun p call answer hnone hcame hkey => ?_⟩
      rcases came_put hcame with ⟨_, hstatus | hstatus⟩ | ⟨_, hold⟩
      · cases hstatus
      · cases hstatus
      · exact h.answers p call answer hnone hold hkey
  | @execute q op ret x _ hexec =>
      have hexec : Bookings.Exec fns m.object op ret x := hexec
      obtain ⟨hrides, hanswered⟩ := hexec.standing hordered h.kept hfor hne
      refine ⟨hexec.grows.1 h.kept, hrides.trans h.rides, fun p call answer hnone hcame hkey => ?_⟩
      rcases came_put hcame with ⟨_, hstatus | hstatus⟩ | ⟨_, hold⟩
      · cases hstatus
        exact hanswered hkey
      · cases hstatus
      · exact h.answers p call answer hnone hold hkey
  | ret hcall =>
      refine ⟨h.kept, h.rides, fun p call answer hnone hcame hkey => ?_⟩
      rcases came_finish hcame with ⟨rfl, rfl, rfl⟩ | ⟨_, hold⟩
      · exact h.answers p _ _ hnone (Or.inl hcall) hkey
      · exact h.answers p call answer hnone hold hkey
  | drop _ =>
      refine ⟨h.kept, h.rides, fun p call answer hnone hcame hkey => ?_⟩
      rcases came_finish hcame with ⟨_, _, rfl⟩ | ⟨_, hold⟩
      · exact Or.inl rfl
      · exact h.answers p call answer hnone hold hkey
  | lose _ _ =>
      refine ⟨h.kept, h.rides, fun p call answer hnone hcame hkey => ?_⟩
      rcases came_finish hcame with ⟨_, _, rfl⟩ | ⟨_, hold⟩
      · exact Or.inl rfl
      · exact h.answers p call answer hnone hold hkey

/-- **A record answers for a week.** -/
theorem atomicRun_standing (hrun : AtomicRun (bookings fns) l l') (hordered : l.object.Ordered)
    (hmem : record ∈ l.object.records) (hfor : record.isFor key = true) (hne : key ≠ "")
    (hyoung : l'.object.clock ≤ record.createdAt + recordLifetime) :
    l'.object.Ordered ∧ Standing fns key record l l' := by
  induction hrun with
  | refl => exact ⟨hordered, standing_refl hmem⟩
  | tail _ hstep ih =>
      obtain ⟨hmid, hstanding⟩ := ih ((atomicStep_clock hstep).trans hyoung)
      exact ⟨atomicStep_ordered hstep hmid, hstanding.step hstep hmid hfor hne hyoung⟩

end Window

section Server

variable {cfg : Settings} {fns : ServerFunctions} {users : List User}
  {acts more : List ServerAction} {s t : ServerState}

/-- The rides and the records of a server are those of its atomic bookings, which have
answered what it has answered. -/
theorem server_shows_creations (h : Steps (serverSystem cfg fns) free (.init users) acts s)
    (hmore : Steps (serverSystem cfg fns) free s more t) :
    ∃ (seen seen' : List CreateEvent) (l l' : BookingRun),
      AtomicRun (bookings fns.body) (.start CreateState.init.bookings) l ∧
      AtomicRun (bookings fns.body) l l' ∧
      Shows (createPortrait fns.body) (s.creates, seen) l ∧
      Shows (createPortrait fns.body) (t.creates, seen') l' := by
  obtain ⟨_, hbefore⟩ := creates_run h
  obtain ⟨_, hafter⟩ := creates_run hmore
  have hstand : CreationsStand s.creates := hbefore.invariant CreationsStand creationsStand_init
    fun _ _ _ hu _ hstep => creationsStand_kept hu hstep
  obtain ⟨seen, hrecorded⟩ := recorded creationsSeen hbefore []
  obtain ⟨seen', hrecorded'⟩ := recorded creationsSeen hafter seen
  obtain ⟨l, hl, hshows⟩ :=
    run_shows_creations shows_no_creations creationsStand_init hrecorded
  obtain ⟨l', hl', hshows'⟩ := run_shows_creations hshows hstand hrecorded'
  exact ⟨seen, seen', l, l', hl, hl', hshows, hshows'⟩

theorem ordered_start : CreateState.init.bookings.Ordered :=
  ⟨fun _ => Nat.zero_le _, fun _ hmem => by cases hmem⟩

theorem mindful_start (fns : BodyFunctions) :
    Mindful fns (.start CreateState.init.bookings) := by
  intro q call answer response key hcame
  rcases hcame with hcall | hcall
  · cases hcall
  · cases hcall

/-- **For a week a key stands for one ride.**  Where a creation with a key was answered
with a ride, no ride with this key is committed for a week after the time that the ride
was created at, and every creation with the key that arrives in that week and is
answered is answered with this ride, when its body has the fingerprint of that of the
first one, and with a 409 when it has another one; or it fails. -/
theorem key_stands_for_one_ride (h : Steps (serverSystem cfg fns) free (.init users) acts s)
    (hmore : Steps (serverSystem cfg fns) free s more t) {p : CreateId} {call : CreateCall}
    {response : RideOut} {key : String}
    (hp : s.creates.requests p = some (call, .answered (.created response)))
    (hkey : call.key? = some key)
    (hyoung : t.creates.clock ≤ response.createdAt + recordLifetime) :
    t.creates.ridesWith key = s.creates.ridesWith key ∧
    ∀ q call' outcome, s.creates.requests q = none →
      t.creates.requests q = some (call', .answered outcome) → call'.key? = some key →
      outcome = .failed ∨
        (fns.body.fingerprint call'.payload = fns.body.fingerprint call.payload ∧
          outcome = .created response) ∨
        (fns.body.fingerprint call'.payload ≠ fns.body.fingerprint call.payload ∧
          outcome = .rejected keyReused) := by
  obtain ⟨_, _, l, l', hbefore, hafter, hshows, hshows'⟩ := server_shows_creations h hmore
  obtain ⟨hordered, hmindful⟩ := atomicRun_mindful hbefore ordered_start (mindful_start fns.body)
  have hclock : l'.object.clock = t.creates.clock := congrArg Bookings.clock hshows'.object
  have hearlier : l.object.clock ≤ response.createdAt + recordLifetime := by
    exact (atomicRun_clock hafter).trans (hclock ▸ hyoung)
  obtain ⟨answer, hcall, hanswer⟩ := creation_returned hshows hp
  obtain ⟨record, hmem, hfor, hbody, hfingerprint⟩ :=
    hmindful p call answer response key (Or.inr hcall) hanswer hkey hearlier
  have hyoung' : l'.object.clock ≤ record.createdAt + recordLifetime := by
    rw [hordered.dated record hmem, hbody, hclock]
    exact hyoung
  obtain ⟨_, hstanding⟩ :=
    atomicRun_standing hafter hordered hmem hfor (key?_eq_some.mp hkey).2 hyoung'
  constructor
  · have hrides := hstanding.rides
    rw [hshows.object, hshows'.object] at hrides
    exact hrides
  · intro q call' outcome hnone hq hkey'
    obtain ⟨answer', hcall', rfl⟩ := creation_returned hshows' hq
    rw [← hfingerprint, ← hbody]
    rcases hstanding.answers q call' answer' (creation_uncalled hshows hnone) (Or.inr hcall')
      hkey' with rfl | ⟨hsame, rfl⟩ | ⟨hother, rfl⟩
    · exact Or.inl rfl
    · exact Or.inr (Or.inl ⟨hsame, rfl⟩)
    · exact Or.inr (Or.inr ⟨hother, rfl⟩)

end Server

/-- A passenger creates a ride with a key. -/
def createdWithKey : List ServerAction :=
  [.arrive (.createRide ⟨2, 0⟩ sampleBody (some "k")) otherAccessToken,
    .create (.lookup ⟨2, 0⟩), .create (.insert ⟨2, 0⟩ 0), .create (.commit ⟨2, 0⟩)]

/-- The passenger asks again, while a cleanup is at work. -/
def askedAgain : List ServerAction :=
  [.arrive (.createRide ⟨2, 1⟩ sampleBody (some "k")) otherAccessToken,
    .create (.beginCleanup 0), .create (.deleteRecords 0), .create (.lookup ⟨2, 1⟩),
    .create (.commitCleanup 0), .create (.commit ⟨2, 1⟩)]

/-- The body of a creation, and the answer that it got. -/
def CreateState.answerTo (s : CreateState) (q : CreateId) :
    Option (RideCreateRequest × Option String × CreateOutcome) :=
  match s.requests q with
  | some (call, .answered outcome) => some (call.payload, call.key?, outcome)
  | _ => none

theorem answerTo_eq_some {s : CreateState} {q : CreateId} {payload : RideCreateRequest}
    {key : Option String} {outcome : CreateOutcome}
    (h : s.answerTo q = some (payload, key, outcome)) :
    ∃ call, s.requests q = some (call, .answered outcome) ∧ call.payload = payload ∧
      call.key? = key := by
  unfold CreateState.answerTo at h
  split at h
  case h_1 call outcome' hreq =>
      cases h
      exact ⟨call, hreq, rfl, rfl⟩
  case h_2 => cases h

/-- The second answer is the first one. -/
theorem asked_again_answered_alike : ∃ s t response,
    Steps (serverSystem {} sampleTown) free (.init townUsers) createdWithKey s ∧
      Steps (serverSystem {} sampleTown) free s askedAgain t ∧
      s.creates.answerTo ⟨2, 0⟩ = some (sampleBody, some "k", .created response) ∧
      t.creates.answerTo ⟨2, 1⟩ = some (sampleBody, some "k", .created response) ∧
      t.creates.ridesWith "k" = s.creates.ridesWith "k" := by
  have hfirst : (exec (serverSystem {} sampleTown) (.init townUsers) createdWithKey).any (fun s =>
      s.creates.answerTo ⟨2, 0⟩ = some (sampleBody, some "k", .created (rideOut
        { townRide with idempotencyKey := some "k" })) ∧
      s.creates.requests ⟨2, 1⟩ = none) = true := by decide +kernel
  have hboth : (exec (serverSystem {} sampleTown) (.init townUsers)
      (createdWithKey ++ askedAgain)).any (fun t =>
      (t.creates.answerTo ⟨2, 1⟩).any (fun answer => answer.1 = sampleBody ∧
        answer.2.1 = some "k" ∧ answer.2.2 ≠ .failed) ∧ t.creates.clock = 0) = true := by
    decide +kernel
  obtain ⟨s, hbefore, hs⟩ := Steps.of_exec_any hfirst
  obtain ⟨t, hrun, ht⟩ := Steps.of_exec_any hboth
  obtain ⟨s', hbefore', hafter⟩ := hrun.split
  obtain rfl := hbefore'.unique hbefore
  obtain ⟨hanswer, hnone⟩ := of_decide_eq_true hs
  obtain ⟨hagain, hclock⟩ := of_decide_eq_true ht
  obtain ⟨⟨payload, key, outcome⟩, hanswer', hgiven⟩ := (Option.any_eq_true _ _).mp hagain
  obtain ⟨rfl, rfl, hdone⟩ := of_decide_eq_true hgiven
  obtain ⟨call, hp, hbody, hkey⟩ := answerTo_eq_some hanswer
  obtain ⟨call', hq, hbody', hkey'⟩ := answerTo_eq_some hanswer'
  obtain ⟨hrides, halike⟩ := key_stands_for_one_ride hbefore hafter hp hkey (by simp [hclock])
  refine ⟨s', t, _, hbefore, hafter, hanswer, ?_, hrides⟩
  rcases halike _ call' _ hnone hq hkey' with hfailed | ⟨_, hsame⟩ | ⟨hother, _⟩
  · exact absurd hfailed hdone
  · rw [hanswer', hsame]
  · exact absurd (by rw [hbody, hbody']) hother

end RideFlow
