import Mathlib.Data.List.Perm.Basic
import RideFlow.Library.Runs
import RideFlow.Drivers

/-!
# Concurrent driver requests and sweeps

`routers/drivers.py` and `evict_stale_drivers` as the steps of many executions
at once against one database and one Redis.  A request is cut at its SELECT of
the profile, at the flush that INSERTs a missing one, before the handler works
on what it has loaded, at its Redis command and at its COMMIT.  A sweep is cut
at its SELECT, at each ZREM and at its COMMIT.

PostgreSQL at READ COMMITTED: a SELECT sees the committed rows and locks none.
The unique `user_id` makes an INSERT wait for another one that is not committed
yet and fail on one that is.  The session does not autoflush: the UPDATE is
sent with the COMMIT, names the row by its primary key and sets the columns
whose value differs from the one that was loaded (`DriverProfile.flush`),
whatever the row holds by then.

A request or a sweep can fail at any moment, which undoes what it did in the
database and leaves what it did in Redis.
-/

namespace RideFlow

open Function

abbrev DriverReqId := Nat
abbrev SweepId := Nat

/-- The requests to `routers/drivers.py`. -/
inductive DriverRequest
  | heartbeat (payload : HeartbeatRequest)
  | setAvailability (isAvailable : Bool)
  | getMyProfile

/-- A request and its authenticated driver. -/
structure DriverCall where
  user : User
  request : DriverRequest

/-- The Redis command of a handler. -/
inductive GeoCommand
  | geoadd (lat lng : Degrees)
  | zrem
  deriving DecidableEq, Repr

/-- The pool after a command; `none` when Redis raises. -/
def GeoCommand.run (pool : GeoPool) (driverId : UserId) : GeoCommand → Option GeoPool
  | .geoadd lat lng => upsertDriverLocation pool driverId lat lng
  | .zrem => some (removeDriverFromPool pool driverId)

/-- The 400 of a driver without a location. -/
def needsHeartbeat : Rejection :=
  ⟨400, "Send a heartbeat with your location before going available"⟩

/-- What a handler makes of the profile it has loaded, and the command that it
sends next. -/
def DriverRequest.handle (profile : DriverProfile) (now : Timestamp) :
    DriverRequest → Except Rejection (DriverProfile × Option GeoCommand)
  | .heartbeat payload =>
      .ok ({ profile with
          lastLat := some payload.lat
          lastLng := some payload.lng
          lastHeartbeatAt := some now },
        if profile.isAvailable then some (.geoadd payload.lat payload.lng) else none)
  | .setAvailability true =>
      match profile.lastLat, profile.lastLng with
      | some lat, some lng => .ok ({ profile with isAvailable := true }, some (.geoadd lat lng))
      | _, _ => .error needsHeartbeat
  | .setAvailability false => .ok ({ profile with isAvailable := false }, some .zrem)
  | .getMyProfile => .ok (profile, none)

/-- The UPDATE of a flush on the stored row: the columns that were changed. -/
def DriverProfile.flush (loaded changed row : DriverProfile) : DriverProfile where
  isAvailable :=
    if changed.isAvailable = loaded.isAvailable then row.isAvailable else changed.isAvailable
  lastLat := if changed.lastLat = loaded.lastLat then row.lastLat else changed.lastLat
  lastLng := if changed.lastLng = loaded.lastLng then row.lastLng else changed.lastLng
  lastHeartbeatAt :=
    if changed.lastHeartbeatAt = loaded.lastHeartbeatAt then row.lastHeartbeatAt
    else changed.lastHeartbeatAt

/-- How such a request is answered. -/
inductive DriverOutcome
  | ok (profile : DriverProfile)
  | rejected (error : Rejection)
  | failed
  deriving DecidableEq, Repr

/-- Where a request stands.  A profile is `fresh` when this request has
INSERTed it; `changed` is what the handler has made of it in memory. -/
inductive DriverStage
  | starting
  | creating
  | loaded (profile : DriverProfile) (fresh : Bool)
  | sending (loaded changed : DriverProfile) (fresh : Bool) (command : GeoCommand)
  | committing (loaded changed : DriverProfile) (fresh : Bool)
  | answered (outcome : DriverOutcome)
  deriving DecidableEq, Repr

/-- Where a sweep stands.  It began at `now`, which fixes its cutoff; of the
drivers that its SELECT found, `evicted` were removed from the pool. -/
inductive SweepStage
  | started (now : Timestamp)
  | sweeping (now : Timestamp) (todo evicted : List UserId)
  | finished
  deriving DecidableEq, Repr

/-- The committed profiles with the drivers that have one, the pool, the rows
INSERTed but not committed, and the executions.  `begun` and `sweepsBegun`
remember which there were. -/
structure DriverState where
  store : DriverStore
  rows : List UserId
  inserting : UserId → Option DriverReqId
  requests : DriverReqId → Option (DriverCall × DriverStage)
  begun : List DriverReqId
  sweeps : SweepId → Option SweepStage
  sweepsBegun : List SweepId
  clock : Timestamp

/-- No driver, and an empty pool. -/
def DriverState.init : DriverState where
  store := .init
  rows := []
  inserting := fun _ => none
  requests := fun _ => none
  begun := []
  sweeps := fun _ => none
  sweepsBegun := []
  clock := 0

/-- The steps of the requests and of the sweeps; time passes. -/
inductive DriverAction
  | begin (q : DriverReqId) (user : User) (request : DriverRequest)
  | read (q : DriverReqId)
  | insert (q : DriverReqId)
  | handle (q : DriverReqId)
  | redis (q : DriverReqId)
  | commit (q : DriverReqId)
  | abort (q : DriverReqId)
  | beginSweep (c : SweepId)
  | selectStale (c : SweepId) (found : List UserId)
  | removeStale (c : SweepId)
  | commitSweep (c : SweepId)
  | abortSweep (c : SweepId)
  | advance (seconds : Nat)

/-- The request that an action serves; a sweep serves none. -/
def DriverAction.request : DriverAction → Option DriverReqId
  | .begin q _ _ => some q
  | .read q => some q
  | .insert q => some q
  | .handle q => some q
  | .redis q => some q
  | .commit q => some q
  | .abort q => some q
  | _ => none

namespace DriverState

variable (s : DriverState)

/-- Put a request into a stage. -/
def at_ (q : DriverReqId) (call : DriverCall) (stage : DriverStage) : DriverState :=
  { s with requests := update s.requests q (some (call, stage)) }

/-- End a transaction: a row that it has INSERTed blocks nobody any more. -/
def finish (q : DriverReqId) (call : DriverCall) (outcome : DriverOutcome) : DriverState :=
  { s.at_ q call (.answered outcome) with
    inserting := fun d => if s.inserting d = some q then none else s.inserting d }

/-- The INSERT of a profile with the defaults. -/
def create (q : DriverReqId) (call : DriverCall) : DriverState :=
  { s.at_ q call (.loaded {} true) with
    inserting := update s.inserting call.user.id (some q) }

/-- Redis has answered with this pool. -/
def send (q : DriverReqId) (call : DriverCall) (loaded changed : DriverProfile) (fresh : Bool)
    (pool : GeoPool) : DriverState :=
  { s.at_ q call (.committing loaded changed fresh) with store := { s.store with pool := pool } }

/-- COMMIT of a request on an existing row. -/
def commitUpdate (q : DriverReqId) (call : DriverCall) (loaded changed row : DriverProfile) :
    DriverState :=
  { s.finish q call (.ok changed) with
    store := { s.store with
      profiles := update s.store.profiles call.user.id (some (loaded.flush changed row)) } }

/-- COMMIT of a request that has INSERTed its row. -/
def commitInsert (q : DriverReqId) (call : DriverCall) (changed : DriverProfile) : DriverState :=
  { s.finish q call (.ok changed) with
    store := { s.store with profiles := update s.store.profiles call.user.id (some changed) }
    rows := s.rows ++ [call.user.id] }

/-- Put a sweep into a stage. -/
def setSweep (c : SweepId) (stage : SweepStage) : DriverState :=
  { s with sweeps := update s.sweeps c (some stage) }

/-- ZREM of the next driver of a sweep. -/
def evict (c : SweepId) (now : Timestamp) (d : UserId) (todo evicted : List UserId) :
    DriverState :=
  { s.setSweep c (.sweeping now todo (evicted ++ [d])) with
    store := { s.store with pool := removeDriverFromPool s.store.pool d } }

/-- COMMIT of a sweep: its drivers become unavailable. -/
def commitSweep (c : SweepId) (evicted : List UserId) : DriverState :=
  { s.setSweep c .finished with
    store := { s.store with
      profiles := fun d =>
        if d ∈ evicted then (s.store.profiles d).map fun row => { row with isAvailable := false }
        else s.store.profiles d } }

end DriverState

/-- One step of the system; `none` when the action is not enabled. -/
def driverStep (cfg : Settings) (s : DriverState) : DriverAction → Option DriverState
  | .begin q user request =>
      if s.requests q = none ∧ user.role = .driver then
        some { s.at_ q ⟨user, request⟩ .starting with begun := q :: s.begun }
      else none
  | .read q =>
      match s.requests q with
      | some (call, .starting) =>
          match s.store.profiles call.user.id with
          | some profile => some (s.at_ q call (.loaded profile false))
          | none => some (s.at_ q call .creating)
      | _ => none
  | .insert q =>
      match s.requests q with
      | some (call, .creating) =>
          match s.store.profiles call.user.id with
          | some _ => some (s.finish q call .failed)
          | none =>
              -- another INSERT of the same user_id that is not committed
              if s.inserting call.user.id = none then some (s.create q call) else none
      | _ => none
  | .handle q =>
      match s.requests q with
      | some (call, .loaded profile fresh) =>
          match call.request.handle profile s.clock with
          | .error e => some (s.finish q call (.rejected e))
          | .ok (changed, some command) =>
              some (s.at_ q call (.sending profile changed fresh command))
          | .ok (changed, none) => some (s.at_ q call (.committing profile changed fresh))
      | _ => none
  | .redis q =>
      match s.requests q with
      | some (call, .sending loaded changed fresh command) =>
          match command.run s.store.pool call.user.id with
          | some pool => some (s.send q call loaded changed fresh pool)
          | none => some (s.finish q call .failed)
      | _ => none
  | .commit q =>
      match s.requests q with
      | some (call, .committing _ changed true) => some (s.commitInsert q call changed)
      | some (call, .committing loaded changed false) =>
          match s.store.profiles call.user.id with
          | some row => some (s.commitUpdate q call loaded changed row)
          | none => some (s.finish q call .failed)
      | _ => none
  | .abort q =>
      match s.requests q with
      | some (_, .answered _) => none
      | some (call, _) => some (s.finish q call .failed)
      | none => none
  | .beginSweep c =>
      if s.sweeps c = none then
        some { s.setSweep c (.started s.clock) with sweepsBegun := c :: s.sweepsBegun }
      else none
  | .selectStale c found =>
      match s.sweeps c with
      | some (.started now) =>
          if found.Perm (s.rows.filter fun d => s.store.isStale cfg now d) then
            some (s.setSweep c (.sweeping now found []))
          else none
      | _ => none
  | .removeStale c =>
      match s.sweeps c with
      | some (.sweeping now (d :: todo) evicted) => some (s.evict c now d todo evicted)
      | _ => none
  | .commitSweep c =>
      match s.sweeps c with
      | some (.sweeping _ [] evicted) => some (s.commitSweep c evicted)
      | _ => none
  | .abortSweep c =>
      match s.sweeps c with
      | some .finished => none
      | some _ => some (s.setSweep c .finished)
      | none => none
  | .advance seconds => some { s with clock := s.clock + seconds }

/-- The system of concurrent driver requests and sweeps. -/
def driverSystem (cfg : Settings) : Runs.System DriverState DriverAction := ⟨driverStep cfg⟩

/-! ### What each step did -/

/-- What a handler has made of a profile, and what it sends, by request. -/
theorem handle_ok {request : DriverRequest} {profile changed : DriverProfile} {now : Timestamp}
    {command : Option GeoCommand}
    (h : request.handle profile now = .ok (changed, command)) :
    (∃ payload, request = .heartbeat payload ∧
      changed = { profile with
        lastLat := some payload.lat
        lastLng := some payload.lng
        lastHeartbeatAt := some now } ∧
      command = if profile.isAvailable then some (.geoadd payload.lat payload.lng) else none) ∨
    (∃ lat lng, request = .setAvailability true ∧
      profile.lastLat = some lat ∧ profile.lastLng = some lng ∧
      changed = { profile with isAvailable := true } ∧ command = some (.geoadd lat lng)) ∨
    (request = .setAvailability false ∧ changed = { profile with isAvailable := false } ∧
      command = some .zrem) ∨
    (request = .getMyProfile ∧ changed = profile ∧ command = none) := by
  match request, h with
  | .heartbeat payload, h =>
      obtain ⟨hchanged, hcommand⟩ := Prod.mk.inj (Except.ok.inj h)
      exact Or.inl ⟨payload, rfl, hchanged.symm, hcommand.symm⟩
  | .setAvailability true, h =>
      dsimp only [DriverRequest.handle] at h
      split at h
      case h_1 lat lng hlat hlng =>
          cases h
          exact Or.inr (Or.inl ⟨lat, lng, rfl, hlat, hlng, rfl, rfl⟩)
      case h_2 => cases h
  | .setAvailability false, h =>
      cases h
      exact Or.inr (Or.inr (Or.inl ⟨rfl, rfl, rfl⟩))
  | .getMyProfile, h =>
      cases h
      exact Or.inr (Or.inr (Or.inr ⟨rfl, rfl, rfl⟩))

/-- A handler rejects only a driver without a location. -/
theorem handle_error {request : DriverRequest} {profile : DriverProfile} {now : Timestamp}
    {e : Rejection} (h : request.handle profile now = .error e) : e = needsHeartbeat := by
  unfold DriverRequest.handle at h
  split at h
  case h_2 =>
      split at h
      case h_1 => cases h
      case h_2 => exact (Except.error.inj h).symm
  all_goals cases h

section Inversion

variable {cfg : Settings} {s t : DriverState} {q : DriverReqId} {c : SweepId}

/-- A request of a driver arrives under a new name. -/
theorem driver_begin {user : User} {request : DriverRequest}
    (h : driverStep cfg s (.begin q user request) = some t) :
    s.requests q = none ∧ user.role = .driver ∧
      t = { s.at_ q ⟨user, request⟩ .starting with begun := q :: s.begun } := by
  dsimp only [driverStep] at h
  split at h
  case isTrue hopen => exact ⟨hopen.1, hopen.2, (Option.some.inj h).symm⟩
  case isFalse => cases h

/-- The SELECT of a request finds the profile of its driver, or none. -/
theorem driver_read (h : driverStep cfg s (.read q) = some t) :
    ∃ call, s.requests q = some (call, .starting) ∧
      ((∃ profile, s.store.profiles call.user.id = some profile ∧
        t = s.at_ q call (.loaded profile false)) ∨
      (s.store.profiles call.user.id = none ∧ t = s.at_ q call .creating)) := by
  dsimp only [driverStep] at h
  split at h
  case h_1 call hreq =>
      refine ⟨call, hreq, ?_⟩
      split at h
      case h_1 profile hrow => exact Or.inl ⟨profile, hrow, (Option.some.inj h).symm⟩
      case h_2 hnone => exact Or.inr ⟨hnone, (Option.some.inj h).symm⟩
  case h_2 => cases h

/-- The INSERT of a profile stands uncommitted, or fails on another one. -/
theorem driver_insert (h : driverStep cfg s (.insert q) = some t) :
    ∃ call, s.requests q = some (call, .creating) ∧
      (t = s.finish q call .failed ∨
      (s.store.profiles call.user.id = none ∧ s.inserting call.user.id = none ∧
        t = s.create q call)) := by
  dsimp only [driverStep] at h
  split at h
  case h_1 call hreq =>
      refine ⟨call, hreq, ?_⟩
      split at h
      case h_1 => exact Or.inl (Option.some.inj h).symm
      case h_2 hnone =>
          split at h
          case isTrue hfree => exact Or.inr ⟨hnone, hfree, (Option.some.inj h).symm⟩
          case isFalse => cases h
  case h_2 => cases h

/-- The handler raises, has a command for Redis, or goes on to its COMMIT. -/
theorem driver_handle (h : driverStep cfg s (.handle q) = some t) :
    ∃ call profile fresh, s.requests q = some (call, .loaded profile fresh) ∧
      ((∃ e, call.request.handle profile s.clock = .error e ∧
        t = s.finish q call (.rejected e)) ∨
      (∃ changed command, call.request.handle profile s.clock = .ok (changed, some command) ∧
        t = s.at_ q call (.sending profile changed fresh command)) ∨
      ∃ changed, call.request.handle profile s.clock = .ok (changed, none) ∧
        t = s.at_ q call (.committing profile changed fresh)) := by
  dsimp only [driverStep] at h
  split at h
  case h_1 call profile fresh hreq =>
      refine ⟨call, profile, fresh, hreq, ?_⟩
      split at h
      case h_1 e herr => exact Or.inl ⟨e, herr, (Option.some.inj h).symm⟩
      case h_2 changed command hok =>
          exact Or.inr (Or.inl ⟨changed, command, hok, (Option.some.inj h).symm⟩)
      case h_3 changed hok => exact Or.inr (Or.inr ⟨changed, hok, (Option.some.inj h).symm⟩)
  case h_2 => cases h

/-- Redis takes the command, or answers with an error. -/
theorem driver_redis (h : driverStep cfg s (.redis q) = some t) :
    ∃ call loaded changed fresh command,
      s.requests q = some (call, .sending loaded changed fresh command) ∧
      ((∃ pool, command.run s.store.pool call.user.id = some pool ∧
        t = s.send q call loaded changed fresh pool) ∨
      t = s.finish q call .failed) := by
  dsimp only [driverStep] at h
  split at h
  case h_1 call loaded changed fresh command hreq =>
      refine ⟨call, loaded, changed, fresh, command, hreq, ?_⟩
      split at h
      case h_1 pool hpool => exact Or.inl ⟨pool, hpool, (Option.some.inj h).symm⟩
      case h_2 => exact Or.inr (Option.some.inj h).symm
  case h_2 => cases h

/-- The COMMIT stores a new profile, or the changes to the row that is there. -/
theorem driver_commit (h : driverStep cfg s (.commit q) = some t) :
    ∃ call loaded changed fresh,
      s.requests q = some (call, .committing loaded changed fresh) ∧
      ((fresh = true ∧ t = s.commitInsert q call changed) ∨
      (fresh = false ∧ ∃ row, s.store.profiles call.user.id = some row ∧
        t = s.commitUpdate q call loaded changed row) ∨
      (fresh = false ∧ s.store.profiles call.user.id = none ∧ t = s.finish q call .failed)) := by
  dsimp only [driverStep] at h
  split at h
  case h_1 call loaded changed hreq =>
      exact ⟨call, loaded, changed, true, hreq, Or.inl ⟨rfl, (Option.some.inj h).symm⟩⟩
  case h_2 call loaded changed hreq =>
      refine ⟨call, loaded, changed, false, hreq, Or.inr ?_⟩
      split at h
      case h_1 row hrow => exact Or.inl ⟨rfl, row, hrow, (Option.some.inj h).symm⟩
      case h_2 hnone => exact Or.inr ⟨rfl, hnone, (Option.some.inj h).symm⟩
  case h_3 => cases h

/-- A request that is not answered can fail. -/
theorem driver_abort (h : driverStep cfg s (.abort q) = some t) :
    ∃ call stage, s.requests q = some (call, stage) ∧
      (∀ outcome, stage ≠ .answered outcome) ∧ t = s.finish q call .failed := by
  dsimp only [driverStep] at h
  split at h
  case h_1 => cases h
  case h_2 call stage hne hreq => exact ⟨call, stage, hreq, hne, (Option.some.inj h).symm⟩
  case h_3 => cases h

/-- A sweep starts, and looks at the clock. -/
theorem driver_beginSweep (h : driverStep cfg s (.beginSweep c) = some t) :
    s.sweeps c = none ∧
      t = { s.setSweep c (.started s.clock) with sweepsBegun := c :: s.sweepsBegun } := by
  dsimp only [driverStep] at h
  split at h
  case isTrue hnone => exact ⟨hnone, (Option.some.inj h).symm⟩
  case isFalse => cases h

/-- The SELECT of a sweep finds the stale drivers, in some order. -/
theorem driver_selectStale {found : List UserId}
    (h : driverStep cfg s (.selectStale c found) = some t) :
    ∃ now, s.sweeps c = some (.started now) ∧
      found.Perm (s.rows.filter fun d => s.store.isStale cfg now d) ∧
      t = s.setSweep c (.sweeping now found []) := by
  dsimp only [driverStep] at h
  split at h
  case h_1 now hsweep =>
      split at h
      case isTrue hperm => exact ⟨now, hsweep, hperm, (Option.some.inj h).symm⟩
      case isFalse => cases h
  case h_2 => cases h

/-- A sweep removes the next driver from the pool. -/
theorem driver_removeStale (h : driverStep cfg s (.removeStale c) = some t) :
    ∃ now d todo evicted, s.sweeps c = some (.sweeping now (d :: todo) evicted) ∧
      t = s.evict c now d todo evicted := by
  dsimp only [driverStep] at h
  split at h
  case h_1 now d todo evicted hsweep =>
      exact ⟨now, d, todo, evicted, hsweep, (Option.some.inj h).symm⟩
  case h_2 => cases h

/-- The COMMIT of a sweep clears the drivers that it has removed. -/
theorem driver_commitSweep (h : driverStep cfg s (.commitSweep c) = some t) :
    ∃ now evicted, s.sweeps c = some (.sweeping now [] evicted) ∧
      t = s.commitSweep c evicted := by
  dsimp only [driverStep] at h
  split at h
  case h_1 now evicted hsweep => exact ⟨now, evicted, hsweep, (Option.some.inj h).symm⟩
  case h_2 => cases h

/-- A sweep that is not over can fail. -/
theorem driver_abortSweep (h : driverStep cfg s (.abortSweep c) = some t) :
    ∃ stage, s.sweeps c = some stage ∧ stage ≠ .finished ∧ t = s.setSweep c .finished := by
  dsimp only [driverStep] at h
  split at h
  case h_1 => cases h
  case h_2 stage hne hsweep => exact ⟨stage, hsweep, hne, (Option.some.inj h).symm⟩
  case h_3 => cases h

/-- Time passes. -/
theorem driver_advance {seconds : Nat} (h : driverStep cfg s (.advance seconds) = some t) :
    t = { s with clock := s.clock + seconds } :=
  (Option.some.inj h).symm

end Inversion

/-! ### What a request holds -/

/-- The profile that a request works on is one that it has INSERTed itself, so
that nobody else can, or one that was committed. -/
def DriverState.Holds (s : DriverState) (q : DriverReqId) (d : UserId)
    (profile : DriverProfile) (fresh : Bool) : Prop :=
  if fresh then profile = {} ∧ s.store.profiles d = none ∧ s.inserting d = some q
  else s.store.profiles d ≠ none

/-- What the stage of a request says about the database and its handler. -/
def DriverStage.Fine (s : DriverState) (q : DriverReqId) (call : DriverCall) :
    DriverStage → Prop
  | .loaded profile fresh => s.Holds q call.user.id profile fresh
  | .sending profile changed fresh command =>
      s.Holds q call.user.id profile fresh ∧
        ∃ now, call.request.handle profile now = .ok (changed, some command)
  | .committing profile changed fresh =>
      s.Holds q call.user.id profile fresh ∧
        ∃ now command, call.request.handle profile now = .ok (changed, command)
  | _ => True

/-- What the requests have in hand agrees with the rows. -/
structure DriverBooks (s : DriverState) : Prop where
  known : ∀ {q call stage}, s.requests q = some (call, stage) → q ∈ s.begun
  swept : ∀ {c stage}, s.sweeps c = some stage → c ∈ s.sweepsBegun
  fine : ∀ {q call stage}, s.requests q = some (call, stage) → stage.Fine s q call

/-- The books are in order at first. -/
theorem driverBooks_init : DriverBooks .init where
  known := by intro q call stage h; cases h
  swept := by intro c stage h; cases h
  fine := by intro q call stage h; cases h

/-- Rows stay, and an INSERT that is under way stays alone: what a step must
leave to the request `q`. -/
structure DriverState.Leaves (s t : DriverState) (q : DriverReqId) : Prop where
  row : ∀ d, s.store.profiles d ≠ none → t.store.profiles d ≠ none
  inserting : ∀ d, s.store.profiles d = none → s.inserting d = some q →
    t.store.profiles d = none ∧ t.inserting d = some q

/-- What leaves the rows alone leaves every driver's alone. -/
theorem DriverState.Leaves.of_same {s t : DriverState} {q : DriverReqId}
    (hrows : t.store.profiles = s.store.profiles) (hins : t.inserting = s.inserting) :
    s.Leaves t q where
  row _ h := hrows ▸ h
  inserting _ hnone h := ⟨hrows ▸ hnone, hins ▸ h⟩

/-- A request still holds what others leave alone. -/
theorem DriverState.Holds.left {s t : DriverState} {q : DriverReqId} {d : UserId}
    {profile : DriverProfile} {fresh : Bool} (hs : s.Leaves t q)
    (h : s.Holds q d profile fresh) : t.Holds q d profile fresh := by
  cases fresh with
  | false => exact hs.row d h
  | true =>
      obtain ⟨hprofile, hnone, hins⟩ := h
      exact ⟨hprofile, hs.inserting d hnone hins⟩

/-- A stage stays fine when others leave its driver's row alone. -/
theorem DriverStage.Fine.left {s t : DriverState} {q : DriverReqId} {call : DriverCall}
    {stage : DriverStage} (hs : s.Leaves t q) (h : stage.Fine s q call) :
    stage.Fine t q call := by
  cases stage with
  | loaded profile fresh => exact DriverState.Holds.left hs h
  | sending loaded changed fresh command => exact ⟨h.1.left hs, h.2⟩
  | committing loaded changed fresh => exact ⟨h.1.left hs, h.2⟩
  | starting => trivial
  | creating => trivial
  | answered outcome => trivial

section Books

variable {s t : DriverState} {q : DriverReqId} {call : DriverCall} {old stage : DriverStage}

/-- One request moves to a stage that is fine, the others keep what they have. -/
theorem DriverBooks.move (h : DriverBooks s)
    (hreqs : t.requests = update s.requests q (some (call, stage)))
    (hbegun : q ∈ t.begun) (hsub : ∀ p ∈ s.begun, p ∈ t.begun)
    (hsweeps : t.sweeps = s.sweeps) (hswept : t.sweepsBegun = s.sweepsBegun)
    (hleaves : ∀ p, p ≠ q → s.Leaves t p) (hfine : stage.Fine t q call) : DriverBooks t where
  known := by
    intro p call' stage' hp
    rw [hreqs, Tables.update_some_iff] at hp
    rcases hp with ⟨rfl, _⟩ | ⟨_, hp⟩
    · exact hbegun
    · exact hsub p (h.known hp)
  swept := by
    intro c stage' hc
    rw [hsweeps] at hc
    rw [hswept]
    exact h.swept hc
  fine := by
    intro p call' stage' hp
    rw [hreqs, Tables.update_some_iff] at hp
    rcases hp with ⟨rfl, hhere⟩ | ⟨hne, hp⟩
    · cases hhere
      exact hfine
    · exact (h.fine hp).left (hleaves p hne)

/-- A request that moves to a fine stage keeps the books. -/
theorem DriverBooks.at_ (h : DriverBooks s) (hq : s.requests q = some (call, old))
    (hfine : stage.Fine s q call) : DriverBooks (s.at_ q call stage) :=
  h.move rfl (h.known hq) (fun _ hp => hp) rfl rfl (fun _ _ => .of_same rfl rfl) hfine

/-- A transaction that ends leaves the INSERTs of the others alone. -/
theorem leaves_finish {outcome : DriverOutcome} {p : DriverReqId} (hp : p ≠ q) :
    s.Leaves (s.finish q call outcome) p where
  row _ h := h
  inserting d hnone hins := by
    have hother : s.inserting d ≠ some q := fun hsame => hp (Option.some.inj (hins ▸ hsame))
    exact ⟨hnone, (if_neg hother).trans hins⟩

/-- So does one that is answered. -/
theorem DriverBooks.finish {outcome : DriverOutcome} (h : DriverBooks s)
    (hq : s.requests q = some (call, old)) : DriverBooks (s.finish q call outcome) :=
  h.move rfl (h.known hq) (fun _ hp => hp) rfl rfl (fun _ => leaves_finish) trivial

/-- Writing the row of the request's driver, when nobody else INSERTs it. -/
theorem DriverBooks.write {outcome : DriverOutcome} {profile : DriverProfile}
    (h : DriverBooks s) (hq : s.requests q = some (call, old))
    (hown : s.store.profiles call.user.id = none → s.inserting call.user.id = some q)
    (hreqs : t.requests = (s.finish q call outcome).requests)
    (hrest : t.begun = s.begun ∧ t.sweeps = s.sweeps ∧ t.sweepsBegun = s.sweepsBegun)
    (hins : t.inserting = (s.finish q call outcome).inserting)
    (hrows : t.store.profiles = update s.store.profiles call.user.id (some profile)) :
    DriverBooks t := by
  obtain ⟨hbegun, hsweeps, hswept⟩ := hrest
  refine h.move hreqs (hbegun ▸ h.known hq) (fun _ hp => hbegun ▸ hp) hsweeps hswept ?_ trivial
  intro p hp
  constructor
  · intro d hd
    rw [hrows, Ne, Tables.update_some_eq_none]
    exact fun hnone => hd hnone.2
  · intro d hnone hd
    have hother : d ≠ call.user.id := by
      rintro rfl
      exact hp (Option.some.inj (hd.symm.trans (hown hnone)))
    rw [hrows, hins, Tables.update_some_eq_none]
    exact ⟨⟨hother, hnone⟩, ((leaves_finish hp).inserting d hnone hd).2⟩

/-- A sweep moves and leaves the rows, maybe marked. -/
theorem DriverBooks.sweep (h : DriverBooks s) {c : SweepId}
    {stage : SweepStage} (hsweeps : t.sweeps = update s.sweeps c (some stage))
    (hc : c ∈ t.sweepsBegun) (hsub : ∀ b ∈ s.sweepsBegun, b ∈ t.sweepsBegun)
    (hreqs : t.requests = s.requests) (hbegun : t.begun = s.begun)
    (hins : t.inserting = s.inserting)
    (hrows : ∀ d, t.store.profiles d = none ↔ s.store.profiles d = none) : DriverBooks t where
  known := by
    intro q call stage' hq
    rw [hbegun]
    exact h.known (hreqs ▸ hq)
  swept := by
    intro b stage' hb
    rw [hsweeps, Tables.update_some_iff] at hb
    rcases hb with ⟨rfl, _⟩ | ⟨_, hb⟩
    · exact hc
    · exact hsub b (h.swept hb)
  fine := by
    intro q call stage' hq
    refine (h.fine (hreqs ▸ hq)).left ⟨?_, ?_⟩
    · intro d hd
      rwa [Ne, hrows d]
    · intro d hnone hd
      exact ⟨(hrows d).mpr hnone, hins ▸ hd⟩

end Books

/-- The COMMIT of a sweep neither makes nor deletes a profile. -/
theorem DriverState.commitSweep_none {s : DriverState} {c : SweepId} {evicted : List UserId}
    (d : UserId) :
    (s.commitSweep c evicted).store.profiles d = none ↔ s.store.profiles d = none := by
  by_cases hd : d ∈ evicted
  · simp [DriverState.commitSweep, hd]
  · simp [DriverState.commitSweep, hd]

/-- Every step keeps the books. -/
theorem step_driverBooks {cfg : Settings} {s t : DriverState} {a : DriverAction}
    (hs : DriverBooks s) (h : driverStep cfg s a = some t) : DriverBooks t := by
  cases a with
  | begin q user request =>
      obtain ⟨_, _, rfl⟩ := driver_begin h
      exact hs.move rfl (List.mem_cons_self ..) (fun _ hp => List.mem_cons_of_mem _ hp) rfl rfl
        (fun _ _ => .of_same rfl rfl) trivial
  | read q =>
      obtain ⟨call, hreq, ⟨profile, hrow, rfl⟩ | ⟨_, rfl⟩⟩ := driver_read h
      · refine hs.at_ hreq ?_
        change s.store.profiles call.user.id ≠ none
        simp [hrow]
      · exact hs.at_ hreq trivial
  | insert q =>
      obtain ⟨call, hreq, rfl | ⟨hnone, hfree, rfl⟩⟩ := driver_insert h
      · exact hs.finish hreq
      · refine hs.move rfl (hs.known hreq) (fun _ hp => hp) rfl rfl ?_ ?_
        · intro p _
          refine ⟨fun _ hd => hd, ?_⟩
          intro d hd hins
          have hother : d ≠ call.user.id := by
            rintro rfl
            rw [hfree] at hins
            cases hins
          exact ⟨hd, (update_of_ne hother _ _).trans hins⟩
        · exact ⟨rfl, hnone, update_self ..⟩
  | handle q =>
      obtain ⟨call, profile, fresh, hreq, hcase⟩ := driver_handle h
      have hfine : s.Holds q call.user.id profile fresh := hs.fine hreq
      rcases hcase with ⟨e, _, rfl⟩ | ⟨changed, command, hok, rfl⟩ | ⟨changed, hok, rfl⟩
      · exact hs.finish hreq
      · exact hs.at_ hreq ⟨hfine, _, hok⟩
      · exact hs.at_ hreq ⟨hfine, _, _, hok⟩
  | redis q =>
      obtain ⟨call, loaded, changed, fresh, command, hreq, ⟨pool, _, rfl⟩ | rfl⟩ :=
        driver_redis h
      · obtain ⟨hholds, now, hok⟩ := hs.fine hreq
        exact hs.move rfl (hs.known hreq) (fun _ hp => hp) rfl rfl
          (fun _ _ => .of_same rfl rfl) ⟨hholds, now, _, hok⟩
      · exact hs.finish hreq
  | commit q =>
      obtain ⟨call, loaded, changed, fresh, hreq, hcase⟩ := driver_commit h
      obtain ⟨hholds, _⟩ := hs.fine hreq
      rcases hcase with ⟨rfl, rfl⟩ | ⟨rfl, row, hrow, rfl⟩ | ⟨_, _, rfl⟩
      · exact hs.write hreq (fun _ => hholds.2.2) rfl ⟨rfl, rfl, rfl⟩ rfl rfl
      · exact hs.write hreq (fun hnone => absurd hnone hholds) rfl ⟨rfl, rfl, rfl⟩ rfl rfl
      · exact hs.finish hreq
  | abort q =>
      obtain ⟨call, stage, hreq, _, rfl⟩ := driver_abort h
      exact hs.finish hreq
  | beginSweep c =>
      obtain ⟨_, rfl⟩ := driver_beginSweep h
      exact hs.sweep rfl (List.mem_cons_self ..) (fun _ hb => List.mem_cons_of_mem _ hb) rfl rfl
        rfl fun _ => Iff.rfl
  | selectStale c found =>
      obtain ⟨now, hsweep, _, rfl⟩ := driver_selectStale h
      exact hs.sweep rfl (hs.swept hsweep) (fun _ hb => hb) rfl rfl rfl fun _ => Iff.rfl
  | removeStale c =>
      obtain ⟨now, d, todo, evicted, hsweep, rfl⟩ := driver_removeStale h
      exact hs.sweep rfl (hs.swept hsweep) (fun _ hb => hb) rfl rfl rfl fun _ => Iff.rfl
  | commitSweep c =>
      obtain ⟨now, evicted, hsweep, rfl⟩ := driver_commitSweep h
      exact hs.sweep rfl (hs.swept hsweep) (fun _ hb => hb) rfl rfl rfl
        DriverState.commitSweep_none
  | abortSweep c =>
      obtain ⟨stage, hsweep, _, rfl⟩ := driver_abortSweep h
      exact hs.sweep rfl (hs.swept hsweep) (fun _ hb => hb) rfl rfl rfl fun _ => Iff.rfl
  | advance seconds =>
      obtain rfl := driver_advance h
      exact ⟨hs.known, hs.swept, fun hq => (hs.fine hq).left (.of_same rfl rfl)⟩

end RideFlow
