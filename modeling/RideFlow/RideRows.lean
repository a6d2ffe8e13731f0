import RideFlow.Library.RowLocks
import RideFlow.TransitionRide

/-!
# The ride table as a store of locked rows

Seen through `store`, every step of the ride system is a move of the generic
row-lock store: rides are the rows, an applied transition is an update from
the row it replaced to the row it wrote, and the requests in `holding` are the
open transactions (`step_move`).  So every run keeps the store sound and
ordered (`rides_sound`), under whatever is known of the updates it makes:
`Adds s a e` lists the two ways in which a step can make the update `e`.
-/

namespace RideFlow

open RowLocks Trails Tables Function Runs

/-- Rides keyed by their id, applied transitions as updates. -/
def rideSchema : Schema RideId Ride Applied where
  key := Ride.id
  src := Applied.replaced
  tgt := Applied.written
  stamp := Applied.effectAt
  key_tgt := by
    intro a
    rw [a.spec.2.2.1]
    rfl

/-- The uncommitted row of a request and what led to it. -/
def Stage.opened : Stage → Option (Ride × List Applied)
  | .holding ride pending _ => some (ride, pending)
  | _ => none

/-- The row that a request has updated, with its updates. -/
def RideState.opened (s : RideState) (q : ReqId) : Option (Ride × List Applied) :=
  (s.requests q).bind fun c => c.2.opened

/-- The ride table, its locks, open transactions and log. -/
def RideState.store (s : RideState) : Store RideId Ride Applied ReqId :=
  ⟨s.rides, s.locks, s.opened, s.log, s.effects⟩

/-- A ride as `create_ride` commits it. -/
def Born (ride : Ride) : Prop :=
  ride.status = .requested ∧ ride.version = 1 ∧ ride.driverId = none

/-- The two calls of `apply_transition` that a step can make: the first one of
a request, on the ride it read, and the second one of the matching branch, on
the row that the request itself wrote. -/
inductive Adds (s : RideState) : RideAction → Applied → Prop
  | first {q : ReqId} {call : TransitionCall} {ride : Ride} {a : Applied}
      (hreq : s.requests q = some (call, .updating ride))
      (hrow : s.rides ride.id = some a.replaced) (hq : a.request = q)
      (hchecked : a.checked = ride) (htarget : a.target = call.payload.targetStatus)
      (hexpected : a.expected = call.payload.expectedVersion) (hextra : a.extra = none) :
      Adds s (.update q) a
  | second {q : ReqId} {call : TransitionCall} {ride : Ride} {pending : List Applied}
      {driverId : Option UserId} {a : Applied}
      (hreq : s.requests q = some (call, .holding ride pending (.resolve driverId)))
      (hq : a.request = q) (hchecked : a.checked = ride) (hrow : a.replaced = ride)
      (htarget : a.target = (resolution driverId).1)
      (hextra : a.extra = (resolution driverId).2) :
      Adds s (.resolve q) a

section Store

variable {s : RideState} {q : ReqId} {call : TransitionCall}

/-- It is that of the request's stage. -/
theorem opened_of_requests {stage : Stage} (h : s.requests q = some (call, stage)) :
    s.opened q = stage.opened := by
  simp [RideState.opened, h]

/-- A request that moves on changes what it has in hand alone. -/
theorem opened_update {requests : ReqId → Option (TransitionCall × Stage)} (stage : Stage) :
    (fun p => (update requests q (some (call, stage)) p).bind fun c => c.2.opened) =
      update (fun p => (requests p).bind fun c => c.2.opened) q stage.opened := by
  funext p
  by_cases hp : p = q
  · subst hp
    simp
  · simp [hp]

/-- A step that keeps what the request holds is invisible in the store. -/
theorem store_at {stage : Stage} (h : s.opened q = stage.opened) :
    (s.at_ q call stage).store = s.store := by
  have hsame : (s.at_ q call stage).opened = s.opened := by
    unfold RideState.at_ RideState.opened
    rw [opened_update, ← h]
    exact update_eq_self q s.opened
  simp only [RideState.store, hsame]
  rfl

/-- Going on without touching the held row is no move at all. -/
theorem move_at {good : Applied → Prop} {call' : TransitionCall} {stage stage' : Stage}
    (hreq : s.requests q = some (call', stage')) (h : stage'.opened = stage.opened) :
    Move rideSchema Born good s.store (s.at_ q call stage).store := by
  rw [store_at ((opened_of_requests hreq).trans h)]
  exact .silent

/-- A rollback of the request is one of the store. -/
theorem store_rollback {outcome : Outcome} :
    (s.rollback q call outcome).store =
      { s.store with
        locks := release s.store.locks q
        opened := update s.store.opened q none } := by
  unfold RideState.rollback RideState.store RideState.opened
  rw [opened_update]
  rfl

/-- A COMMIT of the request is one of the store. -/
theorem store_commit {ride : Ride} {pending : List Applied} :
    (s.commit q call ride pending).store =
      { s.store with
        rows := update s.store.rows (rideSchema.key ride) (some ride)
        locks := release s.store.locks q
        opened := update s.store.opened q none
        log := s.store.log ++ pending } := by
  unfold RideState.commit RideState.store RideState.opened
  rw [opened_update]
  rfl

/-- An UPDATE of the request is one of the store. -/
theorem store_hold {done : Applied} {pending : List Applied} {todo : Todo} :
    (s.hold q call done pending todo).store =
      { s.store with
        locks := update s.store.locks (rideSchema.key (rideSchema.tgt done)) (some q)
        opened := update s.store.opened q (some (rideSchema.tgt done, pending ++ [done]))
        now := s.store.now + 1 } := by
  unfold RideState.hold RideState.store RideState.opened
  rw [opened_update]
  rfl

end Store

section Steps

variable {cfg : Settings} {good : Applied → Prop} {s t : RideState} {a : RideAction}

/-- **Every step is a move of the row-lock store.** -/
theorem step_move (hsound : Sound rideSchema Born good s.store)
    (hgood : ∀ e, Adds s a e → good e) (h : rideStep cfg s a = some t) :
    Move rideSchema Born good s.store t.store := by
  cases a with
  | create id user payload fare key =>
      obtain ⟨_, hfresh, rfl⟩ := step_create h
      have hborn : Born (newRide id user payload fare key s.clock) := ⟨rfl, rfl, rfl⟩
      exact .insert hborn hfresh
  | begin q user rideId payload =>
      obtain ⟨hnone, rfl⟩ := step_begin h
      rw [store_at (by simp [RideState.opened, hnone, Stage.opened])]
      exact .silent
  | read q =>
      obtain ⟨call, hreq, ⟨error, rfl⟩ | ⟨ride, _, _, rfl⟩⟩ := step_read h
      · rw [store_rollback]
        exact .rollback q
      · exact move_at hreq rfl
  | update q =>
      obtain ⟨call, ride, hreq, ⟨e, _, rfl⟩ | ⟨done, hdone, hfree, rfl⟩⟩ := step_update h
      · rw [store_rollback]
        exact .rollback q
      · obtain ⟨hrow, hq, hat, hchecked, htarget, hexpected, hextra, _⟩ :=
          attemptTransition_ok hdone
        have hkey : done.replaced.id = ride.id := hsound.row_key _ _ hrow
        rw [store_hold, rideSchema.key_tgt]
        refine .update (hgood done (.first hreq hrow hq hchecked htarget hexpected hextra))
          hat (opened_of_requests hreq) ?_ ?_
        · change s.locks done.replaced.id = none
          rw [hkey]
          exact hfree
        · change s.rides done.replaced.id = some done.replaced
          rw [hkey]
          exact hrow
  | search q candidates =>
      obtain ⟨call, ride, pending, hreq, rfl⟩ := step_search h
      exact move_at hreq rfl
  | reserve q =>
      obtain ⟨call, ride, pending, candidates, hreq, hcases⟩ := step_reserve h
      rcases hcases with ⟨_, rfl⟩ | ⟨d, rest, _, _, rfl⟩ | ⟨d, rest, _, _, rfl⟩
      · exact move_at hreq rfl
      · exact move_at hreq rfl
      · change Move _ _ _ s.store
          (s.at_ q call (.holding ride pending (.resolve (some d)))).store
        exact move_at hreq rfl
  | resolve q =>
      obtain ⟨call, ride, pending, driverId, hreq, ⟨e, _, rfl⟩ | ⟨done, hdone, rfl⟩⟩ :=
        step_resolve h
      · rw [store_rollback]
        exact .rollback q
      · obtain ⟨hrow, hq, hat, hchecked, htarget, _, hextra, _⟩ := attemptTransition_ok hdone
        obtain rfl : ride = done.replaced := Option.some.inj hrow
        have hopen : s.store.opened q = some (done.replaced, pending) :=
          opened_of_requests hreq
        have hlock := hsound.open_lock q _ _ hopen
        rw [store_hold, rideSchema.key_tgt]
        change Move rideSchema Born good s.store { s.store with
          locks := Function.update s.store.locks (rideSchema.key done.replaced) (some q)
          opened := _, now := _ }
        rw [← hlock, Function.update_eq_self]
        exact .again (hgood done (.second hreq hq hchecked rfl htarget hextra)) hat hopen
  | getKey q =>
      obtain ⟨call, ride, pending, d, hreq, _, ⟨_, rfl⟩ | ⟨_, rfl⟩⟩ := step_getKey h
      · exact move_at hreq rfl
      · exact move_at hreq rfl
  | deleteKey q =>
      obtain ⟨call, ride, pending, d, hreq, _, rfl⟩ := step_deleteKey h
      change Move _ _ _ s.store (s.at_ q call (.holding ride pending .commit)).store
      exact move_at hreq rfl
  | commit q =>
      obtain ⟨call, ride, pending, hreq, rfl⟩ := step_commit h
      rw [store_commit]
      exact .commit (opened_of_requests hreq)
  | abort q =>
      obtain ⟨call, stage, _, _, rfl⟩ := step_abort h
      rw [store_rollback]
      exact .rollback q
  | expire d =>
      obtain ⟨key, _, _, rfl⟩ := step_expire h
      exact .silent
  | advance seconds =>
      obtain rfl := step_advance h
      exact .silent

/-- Every applied transition adds one to the version. -/
theorem version_climbs (e : Applied) : e.written.version = e.replaced.version + 1 := by
  rw [e.spec.2.2.1]
  rfl

/-- The store is sound at first. -/
theorem sound_init : Sound rideSchema Born good RideState.init.store := by
  constructor <;> intros <;> simp_all [RideState.init, RideState.store, RideState.opened, logOf]

/-- It is in order at first. -/
theorem ordered_init : Ordered rideSchema RideState.init.store := by
  constructor <;> intros <;> simp_all [RideState.init, RideState.store, RideState.opened, logOf]

variable {ok : RideState → RideAction → Prop} {acts : List RideAction}

/-- **Every run keeps the ride store sound and ordered**, with everything
known of its updates that an invariant `I` of the run lets one conclude. -/
theorem rides_sound_under (I : RideState → Prop)
    (hI : ∀ s a t, Sound rideSchema Born good s.store → I s → ok s a →
      rideStep cfg s a = some t → I t)
    (hadds : ∀ s a e, Sound rideSchema Born good s.store → I s → ok s a → Adds s a e → good e)
    (hinit : I .init) (h : Steps (rideSystem cfg) ok .init acts t) :
    Sound rideSchema Born good t.store ∧ Ordered rideSchema t.store ∧ I t := by
  refine h.invariant
    (fun s => Sound rideSchema Born good s.store ∧ Ordered rideSchema s.store ∧ I s)
    ⟨sound_init, ordered_init, hinit⟩ ?_
  intro s a t hs hok hstep
  obtain ⟨hsound, hordered, hinv⟩ := hs
  have hmove := step_move hsound (fun e he => hadds s a e hsound hinv hok he) hstep
  exact ⟨hmove.sound hsound, hmove.ordered hsound hordered, hI s a t hsound hinv hok hstep⟩

/-- Every update is admitted. -/
def anyUpdate (_ : Applied) : Prop := True

/-- Every run keeps the ride store sound and ordered. -/
theorem rides_sound (h : Steps (rideSystem cfg) ok .init acts t) :
    Sound rideSchema Born anyUpdate t.store ∧ Ordered rideSchema t.store := by
  obtain ⟨hsound, hordered, _⟩ := rides_sound_under (fun _ => True)
    (fun _ _ _ _ _ _ _ => trivial) (fun _ _ _ _ _ _ _ => trivial) trivial h
  exact ⟨hsound, hordered⟩

/-- Every run keeps the effects distinct. -/
theorem rides_distinct (h : Steps (rideSystem cfg) ok .init acts t) :
    Distinct rideSchema t.store := by
  have hinit : Distinct rideSchema RideState.init.store := by
    constructor <;> intros <;> simp_all [RideState.init, RideState.store, RideState.opened]
  refine h.invariant_under
    (fun s => Sound rideSchema Born anyUpdate s.store ∧ Ordered rideSchema s.store)
    (fun s => Distinct rideSchema s.store) ⟨sound_init, ordered_init⟩ hinit ?_ ?_
  · intro s a t hs hstep
    have hmove := step_move hs.1 (fun _ _ => trivial) hstep
    exact ⟨hmove.sound hs.1, hmove.ordered hs.1 hs.2⟩
  · intro s a t hs hd _ hstep
    exact (step_move hs.1 (fun _ _ => trivial) hstep).distinct hs.2 hd

/-- From one point of a run to a later one, committed rides move along the
applied transitions that the log gains. -/
theorem rides_extend {more : List RideAction} (h : Steps (rideSystem cfg) ok .init acts s)
    (hmore : Steps (rideSystem cfg) ok s more t) : Extends rideSchema s.store t.store := by
  refine hmore.along (fun u v => Extends rideSchema u.store v.store) (fun _ => .refl _)
    (fun _ _ _ => .trans) (fun u => Sound rideSchema Born anyUpdate u.store)
    (rides_sound h).1 ?_ ?_
  · intro u a v hsound _ hstep
    exact (step_move hsound (fun _ _ => trivial) hstep).sound hsound
  · intro u a v hsound _ hstep
    exact (step_move hsound (fun _ _ => trivial) hstep).extends hsound

end Steps

end RideFlow
