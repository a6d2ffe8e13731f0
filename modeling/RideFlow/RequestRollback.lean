import RideFlow.CreateRide
import RideFlow.DriverRequests
import RideFlow.Library.Erasure
import RideFlow.MatchingBranch

/-!
# What a rejected ride or driver request leaves

As in `AccountRollback`, for transitions, for drivers' requests and for the
creation of rides: others act the same without the requests that are gone
(`*_without`), and what those do is not seen (`*_unseen`) until they are spent,
which they remain (`*_spent`).

* A transition is spent once its first `apply_transition` has succeeded.  That
  it cannot be rejected afterwards is where `BranchesFit` comes in.
* A driver's request is spent when its handler has passed.  A profile that it
  has INSERTed before is an uncommitted row that others wait for, and no more.
* A creation is spent when its SELECT has found no other body under its key.
-/

namespace RideFlow

open Function Erasure

/-! ### Transitions -/

/-- The state without the requests that are gone. -/
def RideState.without (gone : ReqId → Bool) (s : RideState) : RideState :=
  { s with
    requests := hide gone s.requests
    locks := unlock gone s.locks }

/-- No longer to be rejected. -/
def Stage.Spent : Stage → Prop
  | .loading => False
  | .updating _ => False
  | .answered (.rejected _) => False
  | _ => True

/-- The request is past the point where it could be rejected. -/
def RideState.Spent (s : RideState) (q : ReqId) : Prop :=
  SpentAt (fun entry => entry.2.Spent) s.requests q

namespace RideState

variable {gone : ReqId → Bool} {s : RideState} {q : ReqId}

/-- There is nothing to forget where nothing was requested. -/
theorem without_quiet (hrequests : s.requests = fun _ => none) (hlocks : s.locks = fun _ => none) :
    s.without gone = s := by
  cases s
  subst hrequests hlocks
  simp only [without, hide_none, unlock_none]

/-- The committed rides are those of the state. -/
@[simp] theorem without_rides : (s.without gone).rides = s.rides := rfl

/-- So are the reservation keys. -/
@[simp] theorem without_reservations : (s.without gone).reservations = s.reservations := rfl

/-- So is the time. -/
@[simp] theorem without_clock : (s.without gone).clock = s.clock := rfl

/-- So is the number of the next effect. -/
@[simp] theorem without_effects : (s.without gone).effects = s.effects := rfl

/-- Requests that are not gone stand where they stood. -/
theorem without_requests (hq : gone q = false) : (s.without gone).requests q = s.requests q :=
  hide_apply hq

/-- A row that nobody holds is free. -/
theorem without_locks {r : RideId} (h : s.locks r = none) : (s.without gone).locks r = none :=
  unlock_apply h

/-- Another request moves on the same way. -/
theorem without_at_ (hq : gone q = false) (call : TransitionCall) (stage : Stage) :
    (s.at_ q call stage).without gone = (s.without gone).at_ q call stage := by
  simp only [without, at_, hide_update hq]

/-- So it does with the keys it has set. -/
theorem without_keys (hq : gone q = false) (call : TransitionCall) (stage : Stage)
    (keys : Reservations) :
    ({ s.at_ q call stage with reservations := keys } : RideState).without gone =
      { (s.without gone).at_ q call stage with reservations := keys } := by
  simp only [without, at_, hide_update hq]

/-- Its rollback is the same. -/
theorem without_rollback (hq : gone q = false) (call : TransitionCall) (outcome : Outcome) :
    (s.rollback q call outcome).without gone = (s.without gone).rollback q call outcome := by
  simp only [without, rollback, hide_update hq, unlock_release hq]
  rfl

/-- It takes its lock the same way. -/
theorem without_hold (hq : gone q = false) (call : TransitionCall) (done : Applied)
    (pending : List Applied) (todo : Todo) :
    (s.hold q call done pending todo).without gone =
      (s.without gone).hold q call done pending todo := by
  simp only [without, hold, hide_update hq, unlock_update hq]

/-- Its COMMIT is the same. -/
theorem without_commit (hq : gone q = false) (call : TransitionCall) (ride : Ride)
    (pending : List Applied) :
    (s.commit q call ride pending).without gone =
      (s.without gone).commit q call ride pending := by
  simp only [without, commit, hide_update hq, unlock_release hq]
  rfl

/-- A request that is gone moves on unseen. -/
theorem without_gone_at (hq : gone q = true) (call : TransitionCall) (stage : Stage) :
    (s.at_ q call stage).without gone = s.without gone := by
  simp only [without, at_, hide_update_gone hq]

/-- So does its rollback go unseen. -/
theorem without_gone_rollback (hq : gone q = true) (call : TransitionCall) (outcome : Outcome) :
    (s.rollback q call outcome).without gone = s.without gone := by
  simp only [without, rollback, hide_update_gone hq]
  exact congrArg (fun locks => { s.without gone with locks := locks }) (unlock_release_absent hq)

end RideState

section Rides

variable {cfg : Settings} {s t : RideState} {a : RideAction} {gone : ReqId → Bool}
  {p q : ReqId}

open RideState

/-- What another request does is the same without those that are gone. -/
theorem ride_without (hother : ∀ q, a.request = some q → gone q = false)
    (h : rideStep cfg s a = some t) :
    rideStep cfg (s.without gone) a = some (t.without gone) := by
  cases a with
  | create id user payload fare key =>
      obtain ⟨hrole, hnone, rfl⟩ := step_create h
      simp only [rideStep, without_rides, hrole, hnone, and_self, if_true]
      rfl
  | begin q user rideId payload =>
      have hq := hother q rfl
      obtain ⟨hnone, rfl⟩ := step_begin h
      simp [rideStep, without_requests hq, hnone, without_at_ hq]
  | read q =>
      have hq := hother q rfl
      revert h
      simp only [rideStep, without_requests hq, without_rides]
      split
      · split
        · rintro ⟨⟩
          rw [without_rollback hq]
        · split
          · rintro ⟨⟩
            rw [without_at_ hq]
          · rintro ⟨⟩
            rw [without_rollback hq]
      · rintro ⟨⟩
  | update q =>
      have hq := hother q rfl
      revert h
      simp only [rideStep, without_requests hq, without_rides, without_effects]
      split
      case h_1 call ride _ =>
          split
          · rintro ⟨⟩
            rw [without_rollback hq]
          · intro h
            by_cases hfree : s.locks ride.id = none
            · rw [if_pos hfree] at h
              cases h
              rw [if_pos (without_locks hfree), without_hold hq]
            · rw [if_neg hfree] at h
              cases h
      case h_2 => rintro ⟨⟩
  | search q candidates =>
      have hq := hother q rfl
      revert h
      simp only [rideStep, without_requests hq]
      split
      · rintro ⟨⟩
        rw [without_at_ hq]
      · rintro ⟨⟩
  | reserve q =>
      have hq := hother q rfl
      revert h
      simp only [rideStep, without_requests hq, without_reservations, without_clock]
      split
      · rintro ⟨⟩
        rw [without_at_ hq]
      · split
        · rintro ⟨⟩
          rw [without_keys hq]
        · rintro ⟨⟩
          rw [without_at_ hq]
      · rintro ⟨⟩
  | resolve q =>
      have hq := hother q rfl
      revert h
      simp only [rideStep, without_requests hq, without_effects]
      split
      · split
        · rintro ⟨⟩
          rw [without_rollback hq]
        · rintro ⟨⟩
          rw [without_hold hq]
      · rintro ⟨⟩
  | getKey q =>
      have hq := hother q rfl
      revert h
      simp only [rideStep, without_requests hq, without_reservations]
      split
      · split
        · rintro ⟨⟩
        · split
          case isTrue hheld =>
              rintro ⟨⟩
              simp only [hheld, if_true, without_at_ hq]
          case isFalse hheld =>
              rintro ⟨⟩
              simp only [hheld, Bool.false_eq_true, if_false, without_at_ hq]
      · rintro ⟨⟩
  | deleteKey q =>
      have hq := hother q rfl
      revert h
      simp only [rideStep, without_requests hq, without_reservations]
      split
      · split
        · rintro ⟨⟩
        · rintro ⟨⟩
          rw [without_keys hq]
      · rintro ⟨⟩
  | commit q =>
      have hq := hother q rfl
      revert h
      simp only [rideStep, without_requests hq]
      split
      · rintro ⟨⟩
        rw [without_commit hq]
      · rintro ⟨⟩
  | abort q =>
      have hq := hother q rfl
      revert h
      simp only [rideStep, without_requests hq]
      split
      · rintro ⟨⟩
      · rintro ⟨⟩
        rw [without_rollback hq]
      · rintro ⟨⟩
  | expire d =>
      obtain ⟨key, hkey, hdue, rfl⟩ := step_expire h
      simp only [rideStep, without_reservations, without_clock, hkey, hdue, if_true]
      rfl
  | advance seconds =>
      cases h
      rfl

/-- A transition that is gone is not seen until it is spent. -/
theorem ride_unseen (hfit : BranchesFit s) (hmine : a.request = some q) (hq : gone q = true)
    (h : rideStep cfg s a = some t) : t.without gone = s.without gone ∨ t.Spent q := by
  cases a with
  | create _ _ _ _ _ => cases hmine
  | begin p user rideId payload =>
      cases hmine
      obtain ⟨_, rfl⟩ := step_begin h
      exact Or.inl (without_gone_at hq _ _)
  | read p =>
      cases hmine
      obtain ⟨_, _, ⟨_, rfl⟩ | ⟨_, _, _, rfl⟩⟩ := step_read h
      · exact Or.inl (without_gone_rollback hq _ _)
      · exact Or.inl (without_gone_at hq _ _)
  | update p =>
      cases hmine
      obtain ⟨_, _, _, ⟨_, _, rfl⟩ | ⟨_, _, _, rfl⟩⟩ := step_update h
      · exact Or.inl (without_gone_rollback hq _ _)
      · exact Or.inr (spentAt_update trivial)
  | search p candidates =>
      cases hmine
      obtain ⟨_, _, _, _, rfl⟩ := step_search h
      exact Or.inr (spentAt_update trivial)
  | reserve p =>
      cases hmine
      obtain ⟨_, _, _, _, _, ⟨_, rfl⟩ | ⟨_, _, _, _, rfl⟩ | ⟨_, _, _, _, rfl⟩⟩ := step_reserve h
      · exact Or.inr (spentAt_update trivial)
      · exact Or.inr (spentAt_update trivial)
      · exact Or.inr (spentAt_update trivial)
  | resolve p =>
      cases hmine
      obtain ⟨_, _, _, _, _, _, _, rfl⟩ := resolve_succeeds hfit h
      exact Or.inr (spentAt_update trivial)
  | getKey p =>
      cases hmine
      obtain ⟨_, _, _, _, _, _, ⟨_, rfl⟩ | ⟨_, rfl⟩⟩ := step_getKey h
      · exact Or.inr (spentAt_update trivial)
      · exact Or.inr (spentAt_update trivial)
  | deleteKey p =>
      cases hmine
      obtain ⟨_, _, _, _, _, _, rfl⟩ := step_deleteKey h
      exact Or.inr (spentAt_update trivial)
  | commit p =>
      cases hmine
      obtain ⟨_, _, _, _, rfl⟩ := step_commit h
      exact Or.inr (spentAt_update trivial)
  | abort p =>
      cases hmine
      obtain ⟨_, _, _, _, rfl⟩ := step_abort h
      exact Or.inr (spentAt_update trivial)
  | expire _ => cases hmine
  | advance _ => cases hmine

/-- A spent transition stays spent. -/
theorem ride_spent (hfit : BranchesFit s) (hs : s.Spent p) (h : rideStep cfg s a = some t) :
    t.Spent p := by
  cases a with
  | create _ _ _ _ _ =>
      obtain ⟨_, _, rfl⟩ := step_create h
      exact hs
  | begin q user rideId payload =>
      obtain ⟨hnone, rfl⟩ := step_begin h
      exact SpentAt.insert hs hnone
  | read q =>
      obtain ⟨_, hreq, ⟨_, rfl⟩ | ⟨_, _, _, rfl⟩⟩ := step_read h
      · exact SpentAt.beside hs hreq id
      · exact SpentAt.beside hs hreq id
  | update q =>
      obtain ⟨_, _, hreq, ⟨_, _, rfl⟩ | ⟨_, _, _, rfl⟩⟩ := step_update h
      · exact SpentAt.beside hs hreq id
      · exact SpentAt.beside hs hreq id
  | search q candidates =>
      obtain ⟨_, _, _, _, rfl⟩ := step_search h
      exact SpentAt.update hs fun _ _ _ => trivial
  | reserve q =>
      obtain ⟨_, _, _, _, _, ⟨_, rfl⟩ | ⟨_, _, _, _, rfl⟩ | ⟨_, _, _, _, rfl⟩⟩ := step_reserve h
      · exact SpentAt.update hs fun _ _ _ => trivial
      · exact SpentAt.update hs fun _ _ _ => trivial
      · exact SpentAt.update hs fun _ _ _ => trivial
  | resolve q =>
      obtain ⟨_, _, _, _, _, _, _, rfl⟩ := resolve_succeeds hfit h
      exact SpentAt.update hs fun _ _ _ => trivial
  | getKey q =>
      obtain ⟨_, _, _, _, _, _, ⟨_, rfl⟩ | ⟨_, rfl⟩⟩ := step_getKey h
      · exact SpentAt.update hs fun _ _ _ => trivial
      · exact SpentAt.update hs fun _ _ _ => trivial
  | deleteKey q =>
      obtain ⟨_, _, _, _, _, _, rfl⟩ := step_deleteKey h
      exact SpentAt.update hs fun _ _ _ => trivial
  | commit q =>
      obtain ⟨_, _, _, _, rfl⟩ := step_commit h
      exact SpentAt.update hs fun _ _ _ => trivial
  | abort q =>
      obtain ⟨_, _, _, _, rfl⟩ := step_abort h
      exact SpentAt.update hs fun _ _ _ => trivial
  | expire _ =>
      obtain ⟨_, _, _, rfl⟩ := step_expire h
      exact hs
  | advance _ =>
      obtain rfl := step_advance h
      exact hs

end Rides

/-! ### Drivers' requests -/

/-- The state without the requests that are gone. -/
def DriverState.without (gone : DriverReqId → Bool) (s : DriverState) : DriverState :=
  { s with
    requests := hide gone s.requests
    inserting := unlock gone s.inserting
    begun := s.begun.filter fun q => !gone q }

/-- No longer to be rejected. -/
def DriverStage.Spent : DriverStage → Prop
  | .starting => False
  | .creating => False
  | .loaded _ _ => False
  | .answered (.rejected _) => False
  | _ => True

/-- The handler has passed, and the request cannot be rejected any more. -/
def DriverState.Spent (s : DriverState) (q : DriverReqId) : Prop :=
  SpentAt (fun entry => entry.2.Spent) s.requests q

namespace DriverState

variable {gone : DriverReqId → Bool} {s : DriverState} {q : DriverReqId}

/-- There is nothing to forget where nothing was requested. -/
theorem without_quiet (hrequests : s.requests = fun _ => none)
    (hinserting : s.inserting = fun _ => none) (hbegun : s.begun = []) : s.without gone = s := by
  cases s
  subst hrequests hinserting hbegun
  simp only [without, hide_none, unlock_none, List.filter_nil]

/-- The pool and the keys are those of the state. -/
@[simp] theorem without_store : (s.without gone).store = s.store := rfl

/-- So are the committed profiles. -/
@[simp] theorem without_rows : (s.without gone).rows = s.rows := rfl

/-- So are the sweeps. -/
@[simp] theorem without_sweeps : (s.without gone).sweeps = s.sweeps := rfl

/-- So is the time. -/
@[simp] theorem without_clock : (s.without gone).clock = s.clock := rfl

/-- Requests that are not gone stand where they stood. -/
theorem without_requests (hq : gone q = false) : (s.without gone).requests q = s.requests q :=
  hide_apply hq

/-- A profile that nobody INSERTs is free to be INSERTed. -/
theorem without_inserting {d : UserId} (h : s.inserting d = none) :
    (s.without gone).inserting d = none :=
  unlock_apply h

/-- Another request moves on the same way. -/
theorem without_at_ (hq : gone q = false) (call : DriverCall) (stage : DriverStage) :
    (s.at_ q call stage).without gone = (s.without gone).at_ q call stage := by
  simp only [without, at_, hide_update hq]

/-- It is answered the same. -/
theorem without_finish (hq : gone q = false) (call : DriverCall) (outcome : DriverOutcome) :
    (s.finish q call outcome).without gone = (s.without gone).finish q call outcome := by
  simp only [without, finish, at_, hide_update hq, unlock_release hq]
  rfl

/-- It INSERTs its profile the same way. -/
theorem without_create (hq : gone q = false) (call : DriverCall) :
    (s.create q call).without gone = (s.without gone).create q call := by
  simp only [without, create, at_, hide_update hq, unlock_update hq]

/-- It sends its command to Redis the same way. -/
theorem without_send (hq : gone q = false) (call : DriverCall) (loaded changed : DriverProfile)
    (fresh : Bool) (pool : GeoPool) :
    (s.send q call loaded changed fresh pool).without gone =
      (s.without gone).send q call loaded changed fresh pool := by
  simp only [without, send, at_, hide_update hq]

/-- Its COMMIT of an UPDATE is the same. -/
theorem without_commitUpdate (hq : gone q = false) (call : DriverCall)
    (loaded changed row : DriverProfile) :
    (s.commitUpdate q call loaded changed row).without gone =
      (s.without gone).commitUpdate q call loaded changed row := by
  simp only [without, commitUpdate, finish, at_, hide_update hq, unlock_release hq]
  rfl

/-- So is its COMMIT of an INSERT. -/
theorem without_commitInsert (hq : gone q = false) (call : DriverCall) (changed : DriverProfile) :
    (s.commitInsert q call changed).without gone =
      (s.without gone).commitInsert q call changed := by
  simp only [without, commitInsert, finish, at_, hide_update hq, unlock_release hq]
  rfl

/-- A request that is gone moves on unseen. -/
theorem without_gone_at (hq : gone q = true) (call : DriverCall) (stage : DriverStage) :
    (s.at_ q call stage).without gone = s.without gone := by
  simp only [without, at_, hide_update_gone hq]

/-- So is its answer unseen. -/
theorem without_gone_finish (hq : gone q = true) (call : DriverCall) (outcome : DriverOutcome) :
    (s.finish q call outcome).without gone = s.without gone := by
  simp only [without, finish, at_, hide_update_gone hq]
  exact congrArg (fun inserting => { s.without gone with inserting := inserting })
    (unlock_release_absent hq)

end DriverState

section Drivers

variable {cfg : Settings} {s t : DriverState} {a : DriverAction} {gone : DriverReqId → Bool}
  {p q : DriverReqId}

open DriverState

/-- What another request, or a sweep, does is the same without those that are
gone. -/
theorem driver_without (hother : ∀ q, a.request = some q → gone q = false)
    (h : driverStep cfg s a = some t) :
    driverStep cfg (s.without gone) a = some (t.without gone) := by
  cases a with
  | begin q user request =>
      have hq := hother q rfl
      obtain ⟨hnone, hrole, rfl⟩ := driver_begin h
      simp only [driverStep, without_requests hq, hnone, hrole, and_self, if_true]
      simp [DriverState.without, DriverState.at_, hide_update hq, hq]
  | read q =>
      have hq := hother q rfl
      revert h
      simp only [driverStep, without_requests hq, without_store]
      split
      · split
        · rintro ⟨⟩
          rw [without_at_ hq]
        · rintro ⟨⟩
          rw [without_at_ hq]
      · rintro ⟨⟩
  | insert q =>
      have hq := hother q rfl
      revert h
      simp only [driverStep, without_requests hq, without_store]
      split
      case h_1 call _ =>
          split
          · rintro ⟨⟩
            rw [without_finish hq]
          · intro h
            by_cases hfree : s.inserting call.user.id = none
            · rw [if_pos hfree] at h
              cases h
              rw [if_pos (without_inserting hfree), without_create hq]
            · rw [if_neg hfree] at h
              cases h
      case h_2 => rintro ⟨⟩
  | handle q =>
      have hq := hother q rfl
      revert h
      simp only [driverStep, without_requests hq, without_clock]
      split
      · split
        · rintro ⟨⟩
          rw [without_finish hq]
        · rintro ⟨⟩
          rw [without_at_ hq]
        · rintro ⟨⟩
          rw [without_at_ hq]
      · rintro ⟨⟩
  | redis q =>
      have hq := hother q rfl
      revert h
      simp only [driverStep, without_requests hq, without_store]
      split
      · split
        · rintro ⟨⟩
          rw [without_send hq]
        · rintro ⟨⟩
          rw [without_finish hq]
      · rintro ⟨⟩
  | commit q =>
      have hq := hother q rfl
      revert h
      simp only [driverStep, without_requests hq, without_store]
      split
      · rintro ⟨⟩
        rw [without_commitInsert hq]
      · split
        · rintro ⟨⟩
          rw [without_commitUpdate hq]
        · rintro ⟨⟩
          rw [without_finish hq]
      · rintro ⟨⟩
  | abort q =>
      have hq := hother q rfl
      revert h
      simp only [driverStep, without_requests hq]
      split
      · rintro ⟨⟩
      · rintro ⟨⟩
        rw [without_finish hq]
      · rintro ⟨⟩
  | beginSweep c =>
      obtain ⟨hnone, rfl⟩ := driver_beginSweep h
      simp only [driverStep, without_sweeps, hnone, if_true]
      rfl
  | selectStale c found =>
      obtain ⟨now, hstarted, hperm, rfl⟩ := driver_selectStale h
      simp only [driverStep, without_sweeps, without_rows, without_store, hstarted, hperm, if_true]
      rfl
  | removeStale c =>
      obtain ⟨now, d, todo, evicted, hsweeping, rfl⟩ := driver_removeStale h
      simp only [driverStep, without_sweeps, hsweeping]
      rfl
  | commitSweep c =>
      obtain ⟨now, evicted, hsweeping, rfl⟩ := driver_commitSweep h
      simp only [driverStep, without_sweeps, hsweeping]
      rfl
  | abortSweep c =>
      revert h
      simp only [driverStep, without_sweeps]
      split
      · rintro ⟨⟩
      · rintro ⟨⟩
        rfl
      · rintro ⟨⟩
  | advance seconds =>
      cases h
      rfl

/-- A driver's request that is gone is not seen until it is spent. -/
theorem driver_unseen (hmine : a.request = some q) (hq : gone q = true)
    (h : driverStep cfg s a = some t) : t.without gone = s.without gone ∨ t.Spent q := by
  cases a with
  | begin p user request =>
      cases hmine
      obtain ⟨_, _, rfl⟩ := driver_begin h
      refine Or.inl ?_
      simp [DriverState.without, DriverState.at_, hide_update_gone hq, hq]
  | read p =>
      cases hmine
      obtain ⟨_, _, ⟨_, _, rfl⟩ | ⟨_, rfl⟩⟩ := driver_read h
      · exact Or.inl (without_gone_at hq _ _)
      · exact Or.inl (without_gone_at hq _ _)
  | insert p =>
      cases hmine
      obtain ⟨_, _, rfl | ⟨_, hfree, rfl⟩⟩ := driver_insert h
      · exact Or.inr (spentAt_update trivial)
      · refine Or.inl ?_
        simp only [DriverState.without, DriverState.create, DriverState.at_, hide_update_gone hq,
          unlock_update_absent hq hfree]
  | handle p =>
      cases hmine
      obtain ⟨_, _, _, _, ⟨_, _, rfl⟩ | ⟨_, _, _, rfl⟩ | ⟨_, _, rfl⟩⟩ := driver_handle h
      · exact Or.inl (without_gone_finish hq _ _)
      · exact Or.inr (spentAt_update trivial)
      · exact Or.inr (spentAt_update trivial)
  | redis p =>
      cases hmine
      obtain ⟨_, _, _, _, _, _, ⟨_, _, rfl⟩ | rfl⟩ := driver_redis h
      · exact Or.inr (spentAt_update trivial)
      · exact Or.inr (spentAt_update trivial)
  | commit p =>
      cases hmine
      obtain ⟨_, _, _, _, _, ⟨_, rfl⟩ | ⟨_, _, _, rfl⟩ | ⟨_, _, rfl⟩⟩ := driver_commit h
      · exact Or.inr (spentAt_update trivial)
      · exact Or.inr (spentAt_update trivial)
      · exact Or.inr (spentAt_update trivial)
  | abort p =>
      cases hmine
      obtain ⟨_, _, _, _, rfl⟩ := driver_abort h
      exact Or.inr (spentAt_update trivial)
  | beginSweep _ => cases hmine
  | selectStale _ _ => cases hmine
  | removeStale _ => cases hmine
  | commitSweep _ => cases hmine
  | abortSweep _ => cases hmine
  | advance _ => cases hmine

/-- A spent request of a driver stays spent. -/
theorem driver_spent (hs : s.Spent p) (h : driverStep cfg s a = some t) : t.Spent p := by
  cases a with
  | begin q user request =>
      obtain ⟨hnone, _, rfl⟩ := driver_begin h
      exact SpentAt.insert hs hnone
  | read q =>
      obtain ⟨_, hreq, ⟨_, _, rfl⟩ | ⟨_, rfl⟩⟩ := driver_read h
      · exact SpentAt.beside hs hreq id
      · exact SpentAt.beside hs hreq id
  | insert q =>
      obtain ⟨_, hreq, rfl | ⟨_, _, rfl⟩⟩ := driver_insert h
      · exact SpentAt.beside hs hreq id
      · exact SpentAt.beside hs hreq id
  | handle q =>
      obtain ⟨_, _, _, hreq, ⟨_, _, rfl⟩ | ⟨_, _, _, rfl⟩ | ⟨_, _, rfl⟩⟩ := driver_handle h
      · exact SpentAt.beside hs hreq id
      · exact SpentAt.beside hs hreq id
      · exact SpentAt.beside hs hreq id
  | redis q =>
      obtain ⟨_, _, _, _, _, _, ⟨_, _, rfl⟩ | rfl⟩ := driver_redis h
      · exact SpentAt.update hs fun _ _ _ => trivial
      · exact SpentAt.update hs fun _ _ _ => trivial
  | commit q =>
      obtain ⟨_, _, _, _, _, ⟨_, rfl⟩ | ⟨_, _, _, rfl⟩ | ⟨_, _, rfl⟩⟩ := driver_commit h
      · exact SpentAt.update hs fun _ _ _ => trivial
      · exact SpentAt.update hs fun _ _ _ => trivial
      · exact SpentAt.update hs fun _ _ _ => trivial
  | abort q =>
      obtain ⟨_, _, _, _, rfl⟩ := driver_abort h
      exact SpentAt.update hs fun _ _ _ => trivial
  | beginSweep _ =>
      obtain ⟨_, rfl⟩ := driver_beginSweep h
      exact hs
  | selectStale _ _ =>
      obtain ⟨_, _, _, rfl⟩ := driver_selectStale h
      exact hs
  | removeStale _ =>
      obtain ⟨_, _, _, _, _, rfl⟩ := driver_removeStale h
      exact hs
  | commitSweep _ =>
      obtain ⟨_, _, _, rfl⟩ := driver_commitSweep h
      exact hs
  | abortSweep _ =>
      obtain ⟨_, _, _, rfl⟩ := driver_abortSweep h
      exact hs
  | advance _ =>
      obtain rfl := driver_advance h
      exact hs

end Drivers

/-! ### The creation of rides -/

/-- The state without the requests that are gone. -/
def CreateState.without (gone : CreateId → Bool) (s : CreateState) : CreateState :=
  { s with requests := hide gone s.requests }

/-- No longer to be rejected. -/
def CreateStage.Spent : CreateStage → Prop
  | .starting => False
  | .answered (.rejected _) => False
  | _ => True

/-- Its SELECT has found no other body under its key. -/
def CreateState.Spent (s : CreateState) (q : CreateId) : Prop :=
  SpentAt (fun entry => entry.2.Spent) s.requests q

namespace CreateState

variable {gone : CreateId → Bool} {s : CreateState} {q : CreateId}

/-- There is nothing to forget where nothing was requested. -/
theorem without_quiet (hrequests : s.requests = fun _ => none) : s.without gone = s := by
  cases s
  subst hrequests
  simp only [without, hide_none]

/-- The records are those of the state. -/
@[simp] theorem without_records : (s.without gone).records = s.records := rfl

/-- So are those that a cleanup holds. -/
@[simp] theorem without_deleted : (s.without gone).deleted = s.deleted := rfl

/-- So are the ids that were drawn. -/
@[simp] theorem without_drawn : (s.without gone).drawn = s.drawn := rfl

/-- So are the cleanups. -/
@[simp] theorem without_cleanups : (s.without gone).cleanups = s.cleanups := rfl

/-- So is the time. -/
@[simp] theorem without_clock : (s.without gone).clock = s.clock := rfl

/-- So is what a request finds under its key. -/
@[simp] theorem without_cached (call : CreateCall) :
    (s.without gone).cached call = s.cached call := rfl

/-- Requests that are not gone stand where they stood. -/
theorem without_requests (hq : gone q = false) : (s.without gone).requests q = s.requests q :=
  hide_apply hq

/-- Another request moves on the same way. -/
theorem without_at_ (hq : gone q = false) (call : CreateCall) (stage : CreateStage) :
    (s.at_ q call stage).without gone = (s.without gone).at_ q call stage := by
  simp only [without, at_, hide_update hq]

/-- So it does with the id it has drawn. -/
theorem without_draw (hq : gone q = false) (call : CreateCall) (stage : CreateStage)
    (drawn : List RideId) :
    ({ s.at_ q call stage with drawn := drawn } : CreateState).without gone =
      { (s.without gone).at_ q call stage with drawn := drawn } := by
  simp only [without, at_, hide_update hq]

/-- Its COMMIT is the same. -/
theorem without_publish (hq : gone q = false) (call : CreateCall) (ride : Ride)
    (records : List IdempotencyRecord) :
    (s.publish q call ride records).without gone =
      (s.without gone).publish q call ride records := by
  simp only [without, publish, hide_update hq]

/-- A request that is gone moves on unseen. -/
theorem without_gone_at (hq : gone q = true) (call : CreateCall) (stage : CreateStage) :
    (s.at_ q call stage).without gone = s.without gone := by
  simp only [without, at_, hide_update_gone hq]

end CreateState

section Creates

variable {fns : BodyFunctions} {s t : CreateState} {a : CreateAction} {gone : CreateId → Bool}
  {p q : CreateId}

open CreateState

/-- What another request, or a cleanup, does is the same without those that are
gone. -/
theorem create_without (hother : ∀ q, a.request = some q → gone q = false)
    (h : createStep fns s a = some t) :
    createStep fns (s.without gone) a = some (t.without gone) := by
  cases a with
  | begin q user payload key =>
      have hq := hother q rfl
      obtain ⟨hnone, hid, hrole, rfl⟩ := create_begin h
      simp only [createStep, without_requests hq, hnone, hid, hrole, and_self, if_true,
        without_clock, without_at_ hq]
  | lookup q =>
      have hq := hother q rfl
      obtain ⟨call, hreq, rfl⟩ := create_lookup h
      simp only [createStep, without_requests hq, hreq, without_cached, without_at_ hq]
  | insert q id =>
      have hq := hother q rfl
      obtain ⟨call, hreq, hfresh, ⟨hlong, rfl⟩ | ⟨hshort, rfl⟩⟩ := create_insert h
      · simp only [createStep, without_requests hq, hreq, without_drawn, hfresh, hlong, if_false,
          if_true, without_at_ hq]
      · simp only [createStep, without_requests hq, hreq, without_drawn, hfresh, hshort, if_false,
          Bool.false_eq_true, without_draw hq]
  | commit q =>
      have hq := hother q rfl
      revert h
      simp only [createStep, without_requests hq, without_cached]
      split
      · split
        · rintro ⟨⟩
          rw [without_publish hq]
        · split
          · rintro ⟨⟩
            rw [without_at_ hq]
          · rintro ⟨⟩
      · rintro ⟨⟩
        rw [without_at_ hq]
      · rintro ⟨⟩
  | abort q =>
      have hq := hother q rfl
      revert h
      simp only [createStep, without_requests hq]
      split
      · rintro ⟨⟩
      · rintro ⟨⟩
        rw [without_at_ hq]
      · rintro ⟨⟩
  | beginCleanup c =>
      obtain ⟨hnone, rfl⟩ := create_beginCleanup h
      simp only [createStep, without_cleanups, hnone, if_true]
      rfl
  | deleteRecords c =>
      revert h
      simp only [createStep, without_cleanups, without_records]
      split
      · intro h
        split at h
        case isTrue hfree =>
            cases h
            simp only [hfree, if_true]
            rfl
        case isFalse => cases h
      · rintro ⟨⟩
  | commitCleanup c =>
      obtain ⟨hdeleting, rfl⟩ := create_commitCleanup h
      simp only [createStep, without_cleanups, hdeleting]
      rfl
  | abortCleanup c =>
      revert h
      simp only [createStep, without_cleanups]
      split
      · rintro ⟨⟩
      · rintro ⟨⟩
        rfl
      · rintro ⟨⟩
  | advance seconds =>
      cases h
      rfl

/-- A creation that is gone is not seen until it is spent. -/
theorem create_unseen (hmine : a.request = some q) (hq : gone q = true)
    (h : createStep fns s a = some t) : t.without gone = s.without gone ∨ t.Spent q := by
  cases a with
  | begin p user payload key =>
      cases hmine
      obtain ⟨_, _, _, rfl⟩ := create_begin h
      exact Or.inl (without_gone_at hq _ _)
  | lookup p =>
      cases hmine
      obtain ⟨_, _, rfl⟩ := create_lookup h
      exact Or.inl (without_gone_at hq _ _)
  | insert p id =>
      cases hmine
      obtain ⟨_, _, _, ⟨_, rfl⟩ | ⟨_, rfl⟩⟩ := create_insert h
      · exact Or.inr (spentAt_update trivial)
      · exact Or.inr (spentAt_update trivial)
  | commit p =>
      cases hmine
      obtain ⟨_, ⟨_, _, ⟨_, rfl⟩ | ⟨_, _, rfl⟩⟩ | ⟨_, _, rfl⟩⟩ := create_commit h
      · exact Or.inr (spentAt_update trivial)
      · exact Or.inr (spentAt_update trivial)
      · exact Or.inr (spentAt_update trivial)
  | abort p =>
      cases hmine
      obtain ⟨_, _, _, _, rfl⟩ := create_abort h
      exact Or.inr (spentAt_update trivial)
  | beginCleanup _ => cases hmine
  | deleteRecords _ => cases hmine
  | commitCleanup _ => cases hmine
  | abortCleanup _ => cases hmine
  | advance _ => cases hmine

/-- A spent creation stays spent. -/
theorem create_spent (hs : s.Spent p) (h : createStep fns s a = some t) : t.Spent p := by
  cases a with
  | begin q user payload key =>
      obtain ⟨hnone, _, _, rfl⟩ := create_begin h
      exact SpentAt.insert hs hnone
  | lookup q =>
      obtain ⟨_, hreq, rfl⟩ := create_lookup h
      exact SpentAt.beside hs hreq id
  | insert q id =>
      obtain ⟨_, _, _, ⟨_, rfl⟩ | ⟨_, rfl⟩⟩ := create_insert h
      · exact SpentAt.update hs fun _ _ _ => trivial
      · exact SpentAt.update hs fun _ _ _ => trivial
  | commit q =>
      obtain ⟨_, ⟨_, _, ⟨_, rfl⟩ | ⟨_, _, rfl⟩⟩ | ⟨_, _, rfl⟩⟩ := create_commit h
      · exact SpentAt.update hs fun _ _ _ => trivial
      · exact SpentAt.update hs fun _ _ _ => trivial
      · exact SpentAt.update hs fun _ _ _ => trivial
  | abort q =>
      obtain ⟨_, _, _, _, rfl⟩ := create_abort h
      exact SpentAt.update hs fun _ _ _ => trivial
  | beginCleanup _ =>
      obtain ⟨_, rfl⟩ := create_beginCleanup h
      exact hs
  | deleteRecords _ =>
      obtain ⟨_, _, _, rfl⟩ := create_deleteRecords h
      exact hs
  | commitCleanup _ =>
      obtain ⟨_, rfl⟩ := create_commitCleanup h
      exact hs
  | abortCleanup _ =>
      obtain ⟨_, _, rfl⟩ := create_abortCleanup h
      exact hs
  | advance _ =>
      obtain rfl := create_advance h
      exact hs

end Creates

end RideFlow
