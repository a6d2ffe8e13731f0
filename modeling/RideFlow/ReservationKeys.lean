import RideFlow.Library.Runs
import RideFlow.Matching

/-!
# The calls on the reservation keys

`find_and_reserve_driver` and `release_driver_reservation` of
`services/matching.py` as the steps of many calls at once on one set of keys.  A
call is cut between its Redis commands: each SET NX of a scan, and the GET and
the DEL of a release.  A scan begins when GEOSEARCH has answered, with any list
of candidates.  A key may go at any moment after its time to live.

A scan that nobody interrupts is `reserveFirst` (`scan_alone`).
-/

namespace RideFlow

open Function Runs Tables

abbrev ScanId := Nat
abbrev ReleaseId := Nat

/-- The candidates before and after the next SET NX, or what was returned. -/
inductive ScanStage
  | trying (tried rest : List UserId)
  | returned (driverId : Option UserId)
  deriving DecidableEq, Repr

/-- A call of `find_and_reserve_driver` whose search was answered. -/
structure Scan where
  rideId : RideId
  candidates : List UserId
  stage : ScanStage
  deriving DecidableEq, Repr

/-- Before the GET, before the DEL, or what was returned. -/
inductive ReleaseStage
  | asking
  | deleting
  | returned (released : Bool)
  deriving DecidableEq, Repr

/-- A call of `release_driver_reservation`. -/
structure Release where
  driverId : UserId
  rideId : RideId
  stage : ReleaseStage
  deriving DecidableEq, Repr

/-- The keys of Redis, the calls on their way, and the time. -/
structure ReservationState where
  keys : Reservations
  scans : ScanId → Option Scan
  releases : ReleaseId → Option Release
  clock : Timestamp

/-- Some keys, and no calls. -/
def ReservationState.start (keys : Reservations) (clock : Timestamp) : ReservationState where
  keys := keys
  scans := fun _ => none
  releases := fun _ => none
  clock := clock

/-- The steps of calls; keys expire, and time passes. -/
inductive ReservationAction
  | find (c : ScanId) (rideId : RideId) (candidates : List UserId)
  | tryReserve (c : ScanId)
  | release (c : ReleaseId) (driverId : UserId) (rideId : RideId)
  | get (c : ReleaseId)
  | delete (c : ReleaseId)
  | expire (driverId : UserId)
  | advance (seconds : Nat)
  deriving DecidableEq, Repr

namespace ReservationState

variable (s : ReservationState)

/-- Put a scan into the table of scans. -/
def setScan (c : ScanId) (scan : Scan) : ReservationState :=
  { s with scans := update s.scans c (some scan) }

/-- Put a release into the table of releases. -/
def setRelease (c : ReleaseId) (release : Release) : ReservationState :=
  { s with releases := update s.releases c (some release) }

end ReservationState

/-- One step of the calls; `none` when the action is not enabled. -/
def reservationStep (cfg : Settings) (s : ReservationState) :
    ReservationAction → Option ReservationState
  | .find c rideId candidates =>
      match s.scans c with
      | some _ => none
      | none => some (s.setScan c ⟨rideId, candidates, .trying [] candidates⟩)
  | .tryReserve c =>
      match s.scans c with
      | some ⟨rideId, candidates, .trying _ []⟩ =>
          some (s.setScan c ⟨rideId, candidates, .returned none⟩)
      | some ⟨rideId, candidates, .trying tried (d :: rest)⟩ =>
          match tryReserveDriver cfg s.keys d rideId s.clock with
          | (true, keys) =>
              some { s.setScan c ⟨rideId, candidates, .returned (some d)⟩ with keys := keys }
          | (false, _) =>
              some (s.setScan c ⟨rideId, candidates, .trying (tried ++ [d]) rest⟩)
      | _ => none
  | .release c driverId rideId =>
      match s.releases c with
      | some _ => none
      | none => some (s.setRelease c ⟨driverId, rideId, .asking⟩)
  | .get c =>
      match s.releases c with
      | some ⟨driverId, rideId, .asking⟩ =>
          if holdsReservation s.keys driverId rideId then
            some (s.setRelease c ⟨driverId, rideId, .deleting⟩)
          else some (s.setRelease c ⟨driverId, rideId, .returned false⟩)
      | _ => none
  | .delete c =>
      match s.releases c with
      | some ⟨driverId, rideId, .deleting⟩ =>
          some { s.setRelease c ⟨driverId, rideId, .returned true⟩ with
            keys := deleteReservation s.keys driverId }
      | _ => none
  | .expire driverId =>
      match s.keys driverId with
      | some key =>
          if key.expiresAt ≤ s.clock then
            some { s with keys := deleteReservation s.keys driverId }
          else none
      | none => none
  | .advance seconds => some { s with clock := s.clock + seconds }

/-- The calls on the reservation keys, in any interleaving. -/
def reservationSystem (cfg : Settings) : System ReservationState ReservationAction :=
  ⟨reservationStep cfg⟩

/-! ### What each step did -/

section Inversion

variable {cfg : Settings} {s t : ReservationState} {c : ScanId}

/-- A call of `find_and_reserve_driver` starts with all its candidates untried. -/
theorem reservation_find {rideId : RideId} {candidates : List UserId}
    (h : reservationStep cfg s (.find c rideId candidates) = some t) :
    s.scans c = none ∧ t = s.setScan c ⟨rideId, candidates, .trying [] candidates⟩ := by
  dsimp only [reservationStep] at h
  split at h
  case h_1 => cases h
  case h_2 hnone => exact ⟨hnone, (Option.some.inj h).symm⟩

/-- The candidates are exhausted, or the next one is reserved, or free. -/
theorem reservation_try (h : reservationStep cfg s (.tryReserve c) = some t) :
    (∃ rideId candidates tried, s.scans c = some ⟨rideId, candidates, .trying tried []⟩ ∧
      t = s.setScan c ⟨rideId, candidates, .returned none⟩) ∨
    ∃ rideId candidates tried d rest,
      s.scans c = some ⟨rideId, candidates, .trying tried (d :: rest)⟩ ∧
      (((s.keys d).isSome ∧
          t = s.setScan c ⟨rideId, candidates, .trying (tried ++ [d]) rest⟩) ∨
        (s.keys d = none ∧
          t = { s.setScan c ⟨rideId, candidates, .returned (some d)⟩ with
            keys := update s.keys d
              (some ⟨rideId, s.clock + cfg.driverReservationTtlSeconds⟩) })) := by
  dsimp only [reservationStep] at h
  split at h
  case h_1 rideId candidates tried hscan =>
      exact Or.inl ⟨rideId, candidates, tried, hscan, (Option.some.inj h).symm⟩
  case h_2 rideId candidates tried d rest hscan =>
      refine Or.inr ⟨rideId, candidates, tried, d, rest, hscan, ?_⟩
      split at h
      case h_1 keys hkeys =>
          rcases tryReserveDriver_eq.mp hkeys with ⟨hfalse, _⟩ | ⟨_, hnone, rfl⟩
          · cases hfalse
          · exact Or.inr ⟨hnone, (Option.some.inj h).symm⟩
      case h_2 keys hkeys =>
          rcases tryReserveDriver_eq.mp hkeys with ⟨_, hsome, _⟩ | ⟨htrue, _⟩
          · exact Or.inl ⟨hsome, (Option.some.inj h).symm⟩
          · cases htrue
  case h_3 => cases h

/-- A call of `release_driver_reservation` starts with its GET. -/
theorem reservation_release {driverId : UserId} {rideId : RideId}
    (h : reservationStep cfg s (.release c driverId rideId) = some t) :
    s.releases c = none ∧ t = s.setRelease c ⟨driverId, rideId, .asking⟩ := by
  dsimp only [reservationStep] at h
  split at h
  case h_1 => cases h
  case h_2 hnone => exact ⟨hnone, (Option.some.inj h).symm⟩

/-- GET finds the key of the ride, or the call returns without releasing anything. -/
theorem reservation_get (h : reservationStep cfg s (.get c) = some t) :
    ∃ driverId rideId, s.releases c = some ⟨driverId, rideId, .asking⟩ ∧
      ((holdsReservation s.keys driverId rideId = true ∧
          t = s.setRelease c ⟨driverId, rideId, .deleting⟩) ∨
        (holdsReservation s.keys driverId rideId = false ∧
          t = s.setRelease c ⟨driverId, rideId, .returned false⟩)) := by
  dsimp only [reservationStep] at h
  split at h
  case h_1 driverId rideId hrelease =>
      refine ⟨driverId, rideId, hrelease, ?_⟩
      split at h
      case isTrue hholds => exact Or.inl ⟨hholds, (Option.some.inj h).symm⟩
      case isFalse hholds =>
          exact Or.inr ⟨Bool.eq_false_iff.mpr hholds, (Option.some.inj h).symm⟩
  case h_2 => cases h

/-- DEL removes the key, whoever holds it by then. -/
theorem reservation_delete (h : reservationStep cfg s (.delete c) = some t) :
    ∃ driverId rideId, s.releases c = some ⟨driverId, rideId, .deleting⟩ ∧
      t = { s.setRelease c ⟨driverId, rideId, .returned true⟩ with
        keys := deleteReservation s.keys driverId } := by
  dsimp only [reservationStep] at h
  split at h
  case h_1 driverId rideId hrelease =>
      exact ⟨driverId, rideId, hrelease, (Option.some.inj h).symm⟩
  case h_2 => cases h

/-- A key expires when its time has come. -/
theorem reservation_expire {d : UserId} (h : reservationStep cfg s (.expire d) = some t) :
    ∃ key, s.keys d = some key ∧ key.expiresAt ≤ s.clock ∧
      t = { s with keys := deleteReservation s.keys d } := by
  dsimp only [reservationStep] at h
  split at h
  case h_1 key hkey =>
      split at h
      case isTrue hdue => exact ⟨key, hkey, hdue, (Option.some.inj h).symm⟩
      case isFalse => cases h
  case h_2 => cases h

/-- Time passes. -/
theorem reservation_advance {seconds : Nat}
    (h : reservationStep cfg s (.advance seconds) = some t) :
    t = { s with clock := s.clock + seconds } :=
  (Option.some.inj h).symm

end Inversion

section Alone

variable {cfg : Settings} {s : ReservationState} {c : ScanId} {rideId : RideId}

/-- What is left of a scan that nobody interrupts. -/
theorem scan_rest {candidates tried rest : List UserId}
    (hscan : s.scans c = some ⟨rideId, candidates, .trying tried rest⟩) :
    ∃ acts t, Steps (reservationSystem cfg) (fun _ a => a = .tryReserve c) s acts t ∧
      t.keys = (reserveFirst cfg rideId s.clock s.keys rest).2 ∧
      t.scans c = some ⟨rideId, candidates,
        .returned (reserveFirst cfg rideId s.clock s.keys rest).1⟩ := by
  induction rest generalizing s tried with
  | nil =>
      have hstep : reservationStep cfg s (.tryReserve c) =
          some (s.setScan c ⟨rideId, candidates, .returned none⟩) := by
        simp [reservationStep, hscan]
      exact ⟨_, _, .single rfl hstep, rfl, update_self ..⟩
  | cons d rest ih =>
      cases hkey : s.keys d with
      | none =>
          have hset : tryReserveDriver cfg s.keys d rideId s.clock = (true, update s.keys d
              (some ⟨rideId, s.clock + cfg.driverReservationTtlSeconds⟩)) :=
            tryReserveDriver_eq.mpr (Or.inr ⟨rfl, hkey, rfl⟩)
          have hstep : reservationStep cfg s (.tryReserve c) =
              some { s.setScan c ⟨rideId, candidates, .returned (some d)⟩ with
                keys := update s.keys d
                  (some ⟨rideId, s.clock + cfg.driverReservationTtlSeconds⟩) } := by
            simp [reservationStep, hscan, hset]
          refine ⟨_, _, .single rfl hstep, ?_, ?_⟩
          · rw [reserveFirst, hset]
          · rw [reserveFirst, hset]
            exact update_self ..
      | some key =>
          have hmiss : tryReserveDriver cfg s.keys d rideId s.clock = (false, s.keys) :=
            tryReserveDriver_eq.mpr (Or.inl ⟨rfl, by rw [hkey]; rfl, rfl⟩)
          have hstep : reservationStep cfg s (.tryReserve c) =
              some (s.setScan c ⟨rideId, candidates, .trying (tried ++ [d]) rest⟩) := by
            simp [reservationStep, hscan, hmiss]
          obtain ⟨acts, t, hrun, hkeys, hreturned⟩ := ih (s := s.setScan c
            ⟨rideId, candidates, .trying (tried ++ [d]) rest⟩) (update_self ..)
          have hfirst : Steps (reservationSystem cfg) (fun _ a => a = .tryReserve c) s
              [.tryReserve c] (s.setScan c ⟨rideId, candidates, .trying (tried ++ [d]) rest⟩) :=
            .single rfl hstep
          rw [reserveFirst, hmiss]
          exact ⟨_, t, hfirst.trans hrun, hkeys, hreturned⟩

/-- **A scan alone.**  From its beginning to its end it does and returns what
`reserveFirst` does and returns. -/
theorem scan_alone {candidates : List UserId} (hnew : s.scans c = none) :
    ∃ acts t, Steps (reservationSystem cfg) free s (.find c rideId candidates :: acts) t ∧
      t.keys = (reserveFirst cfg rideId s.clock s.keys candidates).2 ∧
      t.scans c = some ⟨rideId, candidates,
        .returned (reserveFirst cfg rideId s.clock s.keys candidates).1⟩ := by
  have hfind : reservationStep cfg s (.find c rideId candidates) =
      some (s.setScan c ⟨rideId, candidates, .trying [] candidates⟩) := by
    simp [reservationStep, hnew]
  have hscan : (s.setScan c ⟨rideId, candidates, .trying [] candidates⟩).scans c =
      some ⟨rideId, candidates, .trying [] candidates⟩ := update_self ..
  obtain ⟨acts, t, hrun, hkeys, hreturned⟩ := scan_rest hscan
  have hfirst : Steps (reservationSystem cfg) free s [.find c rideId candidates]
      (s.setScan c ⟨rideId, candidates, .trying [] candidates⟩) := .single trivial hfind
  exact ⟨acts, t, hfirst.trans (hrun.mono fun _ _ _ => trivial), hkeys, hreturned⟩

end Alone

end RideFlow
