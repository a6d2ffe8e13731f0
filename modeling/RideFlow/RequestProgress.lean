import Mathlib.Data.Fintype.EquivFin
import RideFlow.Library.Workers
import RideFlow.Accounts
import RideFlow.CreateRide
import RideFlow.DriverRequests

/-!
# Every other request has a next step

The same as for the transitions, for logins, refreshes and logouts, registrations,
drivers' requests, creations and cleanups.  They wait for the lock of a refresh
token, for an email or a driver's `user_id` in a unique index, and for an
idempotency record that a cleanup has deleted; who holds one of them is past the
point where it may have to wait.

A refresh token, like an id, is drawn afresh; that there is one left to draw is an
assumption on the hash (`FreshTokens`).
-/

namespace RideFlow

open Function Workers Tables

/-- However many tokens have been drawn, there is another one. -/
def FreshTokens (fns : SecurityFunctions) : Prop :=
  ∀ drawn : List TokenHash, ∃ raw, fns.hashRefreshToken raw ∉ drawn

/-- However many ids have been drawn, there is another one. -/
theorem exists_fresh (drawn : List Nat) : ∃ id, id ∉ drawn := by
  obtain ⟨id, hid⟩ := Infinite.exists_notMem_finset drawn.toFinset
  exact ⟨id, by simpa using hid⟩

section Auth

/-- The steps that a request has left at most. -/
def AuthStage.cost : AuthStage → Nat
  | .starting => 4
  | .checking _ => 3
  | .revoking _ _ => 2
  | .issuing _ => 1
  | .holding _ _ => 1
  | .leaving _ => 1
  | .answered _ => 0

/-- The steps that a login, refresh or logout has still to take. -/
def AuthState.left (s : AuthState) : AuthId → Nat := leftIn 5 (fun c => c.2.cost) s.requests

variable {cfg : Settings} {fns : SecurityFunctions} {s t : AuthState} {a : AuthAction} {q : AuthId}
  {request : AuthRequest} {stage : AuthStage}

/-- A request that is not answered has a step left. -/
theorem AuthStage.cost_pos (hopen : ∀ outcome, stage ≠ .answered outcome) : 0 < stage.cost := by
  cases stage with
  | answered outcome => exact absurd rfl (hopen outcome)
  | _ => simp [AuthStage.cost]

/-- A logout has fewer steps left after its SELECT than before. -/
theorem afterLogoutRead_cost (row : Option RefreshToken) : (afterLogoutRead row).cost < 4 := by
  unfold afterLogoutRead
  split
  · simp [AuthStage.cost]
  · split
    · simp [AuthStage.cost]
    · simp [AuthStage.cost]

/-- Every step of a request leaves it one step less. -/
theorem auth_movesOn (hstep : authStep cfg fns s a = some t) :
    MovesOn 5 (fun c => c.2.cost) s.requests t.requests a.request := by
  cases a with
  | begin p request =>
      obtain ⟨hnone, rfl⟩ := auth_begin hstep
      exact begins hnone (by simp [AuthStage.cost])
  | read p =>
      obtain ⟨raw, ⟨hreq, rfl | ⟨stored, _, rfl⟩⟩ | ⟨hreq, rfl⟩⟩ := auth_read hstep
      · exact moves_on hreq (by simp [AuthStage.cost])
      · exact moves_on hreq (by simp [AuthStage.cost])
      · exact moves_on hreq (afterLogoutRead_cost _)
  | check p raw =>
      rcases auth_check hstep with ⟨_, _, _, hreq, hopen, rfl⟩ |
        ⟨_, _, user, hreq, _, ⟨_, _, rfl, rfl, rfl⟩ | ⟨stored, rfl, _, _, rfl⟩⟩
      · exact moves_on hreq (AuthStage.cost_pos hopen)
      · exact moves_on hreq (by simp [AuthStage.cost])
      · exact moves_on hreq (by simp [AuthStage.cost])
  | update p =>
      obtain ⟨_, stored, pair, hreq, rfl | ⟨row, _, _, rfl⟩⟩ := auth_update hstep
      · exact moves_on hreq (by simp [AuthStage.cost])
      · exact moves_on hreq (by simp [AuthStage.cost])
  | commit p =>
      obtain ⟨_, ⟨_, hreq, rfl⟩ | ⟨_, _, hreq, rfl⟩ | ⟨_, hreq, rfl⟩⟩ := auth_commit hstep
      · exact moves_on hreq (by simp [AuthStage.cost])
      · exact moves_on hreq (by simp [AuthStage.cost])
      · exact moves_on hreq (by simp [AuthStage.cost])
  | abort p =>
      obtain ⟨_, _, hreq, hopen, rfl⟩ := auth_abort hstep
      exact moves_on hreq (AuthStage.cost_pos hopen)
  | advance _ =>
      obtain rfl := auth_advance hstep
      exact .idle

/-- A step of the handler. -/
def AuthAction.plain : AuthAction → Bool
  | .read _ => true
  | .check _ _ => true
  | .update _ => true
  | .commit _ => true
  | _ => false

/-- The request has a next step. -/
def AuthState.Moves (cfg : Settings) (fns : SecurityFunctions) (s : AuthState) (q : AuthId) :
    Prop :=
  ∃ a : AuthAction, a.request = some q ∧ a.plain = true ∧ (authStep cfg fns s a).isSome = true

/-- **A login, refresh or logout moves, or waits for the lock of its token.** -/
theorem auth_moves (hfresh : FreshTokens fns) (hreq : s.requests q = some (request, stage))
    (hopen : ∀ outcome, stage ≠ .answered outcome) :
    s.Moves cfg fns q ∨ ∃ token p, s.locks token = some p := by
  obtain ⟨raw, hraw⟩ := hfresh s.drawn
  cases stage with
  | answered outcome => exact absurd rfl (hopen outcome)
  | starting =>
      left
      cases request with
      | login email password =>
          refine ⟨.check q raw, rfl, rfl, ?_⟩
          cases hcheck : checkLogin fns s.users email password with
          | error e => simp [authStep, hreq, hcheck]
          | ok user => simp [authStep, hreq, hcheck, hraw]
      | refresh token =>
          refine ⟨.read q, rfl, rfl, ?_⟩
          cases htoken : s.tokens (fns.hashRefreshToken token) with
          | none => simp [authStep, hreq, htoken]
          | some stored => simp [authStep, hreq, htoken]
      | logout token => exact ⟨.read q, rfl, rfl, by simp [authStep, hreq]⟩
  | checking stored =>
      left
      refine ⟨.check q raw, rfl, rfl, ?_⟩
      cases hcheck : checkRefresh s.users stored s.clock with
      | error e => cases request <;> simp [authStep, hreq, hcheck]
      | ok user => cases request <;> simp [authStep, hreq, hcheck, hraw]
  | revoking stored pair =>
      cases hlock : s.locks stored.tokenHash with
      | some p => exact Or.inr ⟨stored.tokenHash, p, hlock⟩
      | none =>
          refine Or.inl ⟨.update q, rfl, rfl, ?_⟩
          cases hrow : s.tokens stored.tokenHash with
          | none => simp [authStep, hreq, hrow]
          | some row => simp [authStep, hreq, hrow, hlock]
  | issuing pair => exact Or.inl ⟨.commit q, rfl, rfl, by simp [authStep, hreq]⟩
  | holding replaced pair => exact Or.inl ⟨.commit q, rfl, rfl, by simp [authStep, hreq]⟩
  | leaving stored => exact Or.inl ⟨.commit q, rfl, rfl, by simp [authStep, hreq]⟩

/-- The request has overwritten its row and not ended. -/
def AuthStage.holds : AuthStage → Bool
  | .holding _ _ => true
  | _ => false

/-- Every token that is locked is held by a request that is past its UPDATE. -/
def TokenLocksHeld (s : AuthState) : Prop := HeldBy s.locks s.requests fun c => c.2.holds

/-- Who holds a token can COMMIT. -/
theorem AuthStage.holding_moves {c : AuthRequest × AuthStage} (hreq : s.requests q = some c)
    (hholds : c.2.holds = true) : s.Moves cfg fns q := by
  obtain ⟨request, stage⟩ := c
  cases stage with
  | holding replaced pair => exact ⟨.commit q, rfl, rfl, by simp [authStep, hreq]⟩
  | _ => cases hholds

/-- One step keeps the locks held. -/
theorem step_tokenLocksHeld (h : TokenLocksHeld s) (hstep : authStep cfg fns s a = some t) :
    TokenLocksHeld t := by
  cases a with
  | begin p request =>
      obtain ⟨hnone, rfl⟩ := auth_begin hstep
      exact HeldBy.stay h fun hbusy => absurd hbusy (not_busy_none hnone)
  | read p =>
      obtain ⟨raw, ⟨hreq, rfl | ⟨stored, _, rfl⟩⟩ | ⟨hreq, rfl⟩⟩ := auth_read hstep
      · exact HeldBy.release h _
      · exact HeldBy.stay h fun hbusy => absurd hbusy (not_busy hreq rfl)
      · exact HeldBy.stay h fun hbusy => absurd hbusy (not_busy hreq rfl)
  | check p raw =>
      rcases auth_check hstep with ⟨_, _, _, hreq, _, rfl⟩ |
        ⟨_, _, user, hreq, _, ⟨_, _, rfl, rfl, rfl⟩ | ⟨stored, rfl, _, _, rfl⟩⟩
      · exact HeldBy.release h _
      · exact HeldBy.stay h fun hbusy => absurd hbusy (not_busy hreq rfl)
      · exact HeldBy.stay h fun hbusy => absurd hbusy (not_busy hreq rfl)
  | update p =>
      obtain ⟨_, stored, pair, hreq, rfl | ⟨row, _, _, rfl⟩⟩ := auth_update hstep
      · exact HeldBy.release h _
      · exact HeldBy.take h rfl
  | commit p =>
      obtain ⟨_, ⟨_, hreq, rfl⟩ | ⟨_, _, hreq, rfl⟩ | ⟨_, hreq, rfl⟩⟩ := auth_commit hstep
      · exact HeldBy.release h _
      · exact HeldBy.release h _
      · exact HeldBy.release h _
  | abort p =>
      obtain ⟨_, _, hreq, _, rfl⟩ := auth_abort hstep
      exact HeldBy.release h _
  | advance _ =>
      obtain rfl := auth_advance hstep
      exact h

end Auth

section Register

/-- The steps that a registration has left at most. -/
def RegisterStage.cost : RegisterStage → Nat
  | .starting => 3
  | .inserting => 2
  | .flushed _ => 1
  | .answered _ => 0

/-- The steps that a registration has still to take. -/
def AccountState.left (s : AccountState) : RegisterId → Nat :=
  leftIn 4 (fun c => c.2.cost) s.registers

variable {fns : AccountFunctions} {s t : AccountState} {a : RegisterAction} {q : RegisterId}
  {request : RegisterRequest} {stage : RegisterStage}

/-- A registration that is not answered has a step left. -/
theorem RegisterStage.cost_pos (hopen : ∀ outcome, stage ≠ .answered outcome) :
    0 < stage.cost := by
  cases stage with
  | answered outcome => exact absurd rfl (hopen outcome)
  | _ => simp [RegisterStage.cost]

/-- Every step of a registration leaves it one step less. -/
theorem register_movesOn (hstep : registerStep fns s a = some t) :
    MovesOn 4 (fun c => c.2.cost) s.registers t.registers (some a.request) := by
  cases a with
  | begin q request =>
      obtain ⟨hnone, rfl⟩ := register_begin hstep
      exact begins hnone (by simp [RegisterStage.cost])
  | select q =>
      obtain ⟨_, hreq, rfl | rfl⟩ := register_select hstep
      · exact moves_on hreq (by simp [RegisterStage.cost])
      · exact moves_on hreq (by simp [RegisterStage.cost])
  | insert q id salt =>
      obtain ⟨_, hreq, _, rfl | ⟨_, rfl⟩⟩ := register_insert hstep
      · exact moves_on hreq (by simp [RegisterStage.cost])
      · exact moves_on hreq (by simp [RegisterStage.cost])
  | commit q =>
      obtain ⟨_, _, hreq, rfl⟩ := register_commit hstep
      exact moves_on hreq (by simp [RegisterStage.cost])
  | abort q =>
      obtain ⟨_, _, hreq, hopen, rfl⟩ := register_abort hstep
      exact moves_on hreq (RegisterStage.cost_pos hopen)

/-- A step of the handler. -/
def RegisterAction.plain : RegisterAction → Bool
  | .select _ => true
  | .insert _ _ _ => true
  | .commit _ => true
  | _ => false

/-- The registration has a next step. -/
def AccountState.Moves (fns : AccountFunctions) (s : AccountState) (q : RegisterId) : Prop :=
  ∃ a : RegisterAction, a.request = q ∧ a.plain = true ∧ (registerStep fns s a).isSome = true

/-- **A registration moves, or waits for its email.** -/
theorem register_moves (hreq : s.registers q = some (request, stage))
    (hopen : ∀ outcome, stage ≠ .answered outcome) :
    s.Moves fns q ∨ ∃ email p, s.taken email = some p := by
  cases stage with
  | answered outcome => exact absurd rfl (hopen outcome)
  | starting =>
      refine Or.inl ⟨.select q, rfl, rfl, ?_⟩
      cases hfound : findByEmail s.auth.users request.email with
      | none => simp [registerStep, hreq, hfound]
      | some user => simp [registerStep, hreq, hfound]
  | inserting =>
      obtain ⟨id, hid⟩ := exists_fresh s.drawnIds
      cases htaken : s.taken request.email with
      | some p => exact Or.inr ⟨request.email, p, htaken⟩
      | none =>
          refine Or.inl ⟨.insert q id "", rfl, rfl, ?_⟩
          cases hfound : findByEmail s.auth.users request.email with
          | none => simp [registerStep, hreq, hid, hfound, htaken]
          | some user => simp [registerStep, hreq, hid, hfound]
  | flushed user => exact Or.inl ⟨.commit q, rfl, rfl, by simp [registerStep, hreq]⟩

/-- The stage in which an email is held. -/
def RegisterStage.holds : RegisterStage → Bool
  | .flushed _ => true
  | _ => false

/-- Every email that is taken is held by a registration that has INSERTed it. -/
def EmailsHeld (s : AccountState) : Prop := HeldBy s.taken s.registers fun c => c.2.holds

/-- Who holds an email can COMMIT. -/
theorem RegisterStage.holding_moves {c : RegisterRequest × RegisterStage}
    (hreq : s.registers q = some c) (hholds : c.2.holds = true) : s.Moves fns q := by
  obtain ⟨request, stage⟩ := c
  cases stage with
  | flushed user => exact ⟨.commit q, rfl, rfl, by simp [registerStep, hreq]⟩
  | _ => cases hholds

/-- One step keeps the emails held. -/
theorem step_emailsHeld (h : EmailsHeld s) (hstep : registerStep fns s a = some t) :
    EmailsHeld t := by
  cases a with
  | begin q request =>
      obtain ⟨hnone, rfl⟩ := register_begin hstep
      exact HeldBy.stay h fun hbusy => absurd hbusy (not_busy_none hnone)
  | select q =>
      obtain ⟨_, hreq, rfl | rfl⟩ := register_select hstep
      · exact HeldBy.release h _
      · exact HeldBy.stay h fun hbusy => absurd hbusy (not_busy hreq rfl)
  | insert q id salt =>
      obtain ⟨_, hreq, _, rfl | ⟨_, rfl⟩⟩ := register_insert hstep
      · exact HeldBy.release h _
      · exact HeldBy.take h rfl
  | commit q =>
      obtain ⟨_, _, hreq, rfl⟩ := register_commit hstep
      exact HeldBy.release h _
  | abort q =>
      obtain ⟨_, _, hreq, _, rfl⟩ := register_abort hstep
      exact HeldBy.release h _

end Register

section Drivers

/-- The steps that a driver's request has left at most. -/
def DriverStage.cost : DriverStage → Nat
  | .starting => 5
  | .creating => 4
  | .loaded _ _ => 3
  | .sending _ _ _ _ => 2
  | .committing _ _ _ => 1
  | .answered _ => 0

/-- The steps that a driver's request has still to take. -/
def DriverState.left (s : DriverState) : DriverReqId → Nat :=
  leftIn 6 (fun c => c.2.cost) s.requests

variable {cfg : Settings} {s t : DriverState} {a : DriverAction} {q : DriverReqId}
  {call : DriverCall} {stage : DriverStage}

/-- A driver's request that is not answered has a step left. -/
theorem DriverStage.cost_pos (hopen : ∀ outcome, stage ≠ .answered outcome) : 0 < stage.cost := by
  cases stage with
  | answered outcome => exact absurd rfl (hopen outcome)
  | _ => simp [DriverStage.cost]

/-- Every step of a driver's request leaves it one step less. -/
theorem driver_movesOn (hstep : driverStep cfg s a = some t) :
    MovesOn 6 (fun c => c.2.cost) s.requests t.requests a.request := by
  cases a with
  | begin p user request =>
      obtain ⟨hnone, _, rfl⟩ := driver_begin hstep
      exact begins hnone (by simp [DriverStage.cost])
  | read p =>
      obtain ⟨_, hreq, ⟨_, _, rfl⟩ | ⟨_, rfl⟩⟩ := driver_read hstep
      · exact moves_on hreq (by simp [DriverStage.cost])
      · exact moves_on hreq (by simp [DriverStage.cost])
  | insert p =>
      obtain ⟨_, hreq, rfl | ⟨_, _, rfl⟩⟩ := driver_insert hstep
      · exact moves_on hreq (by simp [DriverStage.cost])
      · exact moves_on hreq (by simp [DriverStage.cost])
  | handle p =>
      obtain ⟨_, _, _, hreq, ⟨_, _, rfl⟩ | ⟨_, _, _, rfl⟩ | ⟨_, _, rfl⟩⟩ := driver_handle hstep
      · exact moves_on hreq (by simp [DriverStage.cost])
      · exact moves_on hreq (by simp [DriverStage.cost])
      · exact moves_on hreq (by simp [DriverStage.cost])
  | redis p =>
      obtain ⟨_, _, _, _, _, hreq, ⟨_, _, rfl⟩ | rfl⟩ := driver_redis hstep
      · exact moves_on hreq (by simp [DriverStage.cost])
      · exact moves_on hreq (by simp [DriverStage.cost])
  | commit p =>
      obtain ⟨_, _, _, _, hreq, ⟨_, rfl⟩ | ⟨_, _, _, rfl⟩ | ⟨_, _, rfl⟩⟩ := driver_commit hstep
      · exact moves_on hreq (by simp [DriverStage.cost])
      · exact moves_on hreq (by simp [DriverStage.cost])
      · exact moves_on hreq (by simp [DriverStage.cost])
  | abort p =>
      obtain ⟨_, _, hreq, hopen, rfl⟩ := driver_abort hstep
      exact moves_on hreq (DriverStage.cost_pos hopen)
  | beginSweep _ =>
      obtain ⟨_, rfl⟩ := driver_beginSweep hstep
      exact .idle
  | selectStale _ _ =>
      obtain ⟨_, _, _, rfl⟩ := driver_selectStale hstep
      exact .idle
  | removeStale _ =>
      obtain ⟨_, _, _, _, _, rfl⟩ := driver_removeStale hstep
      exact .idle
  | commitSweep _ =>
      obtain ⟨_, _, _, rfl⟩ := driver_commitSweep hstep
      exact .idle
  | abortSweep _ =>
      obtain ⟨_, _, _, rfl⟩ := driver_abortSweep hstep
      exact .idle
  | advance _ =>
      obtain rfl := driver_advance hstep
      exact .idle

/-- A step of the handler. -/
def DriverAction.plain : DriverAction → Bool
  | .read _ => true
  | .insert _ => true
  | .handle _ => true
  | .redis _ => true
  | .commit _ => true
  | _ => false

/-- The driver's request has a next step. -/
def DriverState.Moves (cfg : Settings) (s : DriverState) (q : DriverReqId) : Prop :=
  ∃ a : DriverAction, a.request = some q ∧ a.plain = true ∧ (driverStep cfg s a).isSome = true

/-- The request has loaded or INSERTed its profile and not ended. -/
def DriverStage.holds : DriverStage → Bool
  | .loaded _ _ => true
  | .sending _ _ _ _ => true
  | .committing _ _ _ => true
  | _ => false

/-- Who has INSERTed a profile can go on to its COMMIT. -/
theorem DriverStage.holding_moves {c : DriverCall × DriverStage} (hreq : s.requests q = some c)
    (hholds : c.2.holds = true) : s.Moves cfg q := by
  obtain ⟨call, stage⟩ := c
  cases stage with
  | loaded profile fresh =>
      refine ⟨.handle q, rfl, rfl, ?_⟩
      rcases hhandle : call.request.handle profile s.clock with e | ⟨changed, _ | command⟩
      · simp [driverStep, hreq, hhandle]
      · simp [driverStep, hreq, hhandle]
      · simp [driverStep, hreq, hhandle]
  | sending loaded changed fresh command =>
      refine ⟨.redis q, rfl, rfl, ?_⟩
      cases hrun : command.run s.store.pool call.user.id with
      | none => simp [driverStep, hreq, hrun]
      | some pool => simp [driverStep, hreq, hrun]
  | committing loaded changed fresh =>
      refine ⟨.commit q, rfl, rfl, ?_⟩
      cases fresh with
      | true => simp [driverStep, hreq]
      | false =>
          cases hrow : s.store.profiles call.user.id with
          | none => simp [driverStep, hreq, hrow]
          | some row => simp [driverStep, hreq, hrow]
  | _ => cases hholds

/-- **A driver's request moves, or waits for the row of its driver.** -/
theorem driver_moves (hreq : s.requests q = some (call, stage))
    (hopen : ∀ outcome, stage ≠ .answered outcome) :
    s.Moves cfg q ∨ ∃ d p, s.inserting d = some p := by
  cases stage with
  | answered outcome => exact absurd rfl (hopen outcome)
  | starting =>
      refine Or.inl ⟨.read q, rfl, rfl, ?_⟩
      cases hrow : s.store.profiles call.user.id with
      | none => simp [driverStep, hreq, hrow]
      | some profile => simp [driverStep, hreq, hrow]
  | creating =>
      cases hinsert : s.inserting call.user.id with
      | some p => exact Or.inr ⟨call.user.id, p, hinsert⟩
      | none =>
          refine Or.inl ⟨.insert q, rfl, rfl, ?_⟩
          cases hrow : s.store.profiles call.user.id with
          | none => simp [driverStep, hreq, hrow, hinsert]
          | some profile => simp [driverStep, hreq, hrow]
  | loaded _ _ => exact Or.inl (DriverStage.holding_moves hreq rfl)
  | sending _ _ _ _ => exact Or.inl (DriverStage.holding_moves hreq rfl)
  | committing _ _ _ => exact Or.inl (DriverStage.holding_moves hreq rfl)

/-- Every profile that is being INSERTed is held by a request that has done so. -/
def ProfilesHeld (s : DriverState) : Prop := HeldBy s.inserting s.requests fun c => c.2.holds

/-- One step keeps the profiles held. -/
theorem step_profilesHeld (h : ProfilesHeld s) (hstep : driverStep cfg s a = some t) :
    ProfilesHeld t := by
  cases a with
  | begin p user request =>
      obtain ⟨hnone, _, rfl⟩ := driver_begin hstep
      exact HeldBy.stay h fun hbusy => absurd hbusy (not_busy_none hnone)
  | read p =>
      obtain ⟨_, hreq, ⟨_, _, rfl⟩ | ⟨_, rfl⟩⟩ := driver_read hstep
      · exact HeldBy.stay h fun _ => rfl
      · exact HeldBy.stay h fun hbusy => absurd hbusy (not_busy hreq rfl)
  | insert p =>
      obtain ⟨_, hreq, rfl | ⟨_, _, rfl⟩⟩ := driver_insert hstep
      · exact HeldBy.release h _
      · exact HeldBy.take h rfl
  | handle p =>
      obtain ⟨_, _, _, hreq, ⟨_, _, rfl⟩ | ⟨_, _, _, rfl⟩ | ⟨_, _, rfl⟩⟩ := driver_handle hstep
      · exact HeldBy.release h _
      · exact HeldBy.stay h fun _ => rfl
      · exact HeldBy.stay h fun _ => rfl
  | redis p =>
      obtain ⟨_, _, _, _, _, hreq, ⟨_, _, rfl⟩ | rfl⟩ := driver_redis hstep
      · exact HeldBy.stay h fun _ => rfl
      · exact HeldBy.release h _
  | commit p =>
      obtain ⟨_, _, _, _, hreq, ⟨_, rfl⟩ | ⟨_, _, _, rfl⟩ | ⟨_, _, rfl⟩⟩ := driver_commit hstep
      · exact HeldBy.release h _
      · exact HeldBy.release h _
      · exact HeldBy.release h _
  | abort p =>
      obtain ⟨_, _, hreq, _, rfl⟩ := driver_abort hstep
      exact HeldBy.release h _
  | beginSweep _ =>
      obtain ⟨_, rfl⟩ := driver_beginSweep hstep
      exact h
  | selectStale _ _ =>
      obtain ⟨_, _, _, rfl⟩ := driver_selectStale hstep
      exact h
  | removeStale _ =>
      obtain ⟨_, _, _, _, _, rfl⟩ := driver_removeStale hstep
      exact h
  | commitSweep _ =>
      obtain ⟨_, _, _, rfl⟩ := driver_commitSweep hstep
      exact h
  | abortSweep _ =>
      obtain ⟨_, _, _, rfl⟩ := driver_abortSweep hstep
      exact h
  | advance _ =>
      obtain rfl := driver_advance hstep
      exact h

end Drivers

section Creates

/-- The steps that a creation has left at most. -/
def CreateStage.cost : CreateStage → Nat
  | .starting => 3
  | .inserting => 2
  | .storing _ => 1
  | .replaying _ => 1
  | .answered _ => 0

/-- The steps that a cleanup has left at most. -/
def CleanupStage.cost : CleanupStage → Nat
  | .started _ => 2
  | .deleting => 1
  | .finished => 0

/-- The steps that a creation has still to take. -/
def CreateState.left (s : CreateState) : CreateId → Nat := leftIn 4 (fun c => c.2.cost) s.requests

/-- The steps that a cleanup has still to take. -/
def CreateState.cleanupLeft (s : CreateState) : CleanupId → Nat :=
  leftIn 3 CleanupStage.cost s.cleanups

variable {fns : BodyFunctions} {s t : CreateState} {a : CreateAction} {q : CreateId}
  {c : CleanupId} {call : CreateCall} {stage : CreateStage}

/-- A creation that is not answered has a step left. -/
theorem CreateStage.cost_pos (hopen : ∀ outcome, stage ≠ .answered outcome) : 0 < stage.cost := by
  cases stage with
  | answered outcome => exact absurd rfl (hopen outcome)
  | _ => simp [CreateStage.cost]

/-- A creation has fewer steps left after its SELECT than before. -/
theorem afterLookup_cost (call : CreateCall) (cached : Option IdempotencyRecord) :
    (afterLookup fns call cached).cost < 3 := by
  unfold afterLookup
  split
  · simp [CreateStage.cost]
  · split
    · simp [CreateStage.cost]
    · simp [CreateStage.cost]

/-- Every step of a creation leaves it one step less. -/
theorem create_movesOn (hstep : createStep fns s a = some t) :
    MovesOn 4 (fun c => c.2.cost) s.requests t.requests a.request := by
  cases a with
  | begin p user payload key =>
      obtain ⟨hnone, _, _, rfl⟩ := create_begin hstep
      exact begins hnone (by simp [CreateStage.cost])
  | lookup p =>
      obtain ⟨call, hreq, rfl⟩ := create_lookup hstep
      exact moves_on hreq (afterLookup_cost call _)
  | insert p id =>
      obtain ⟨_, hreq, _, ⟨_, rfl⟩ | ⟨_, rfl⟩⟩ := create_insert hstep
      · exact moves_on hreq (by simp [CreateStage.cost])
      · exact moves_on hreq (by simp [CreateStage.cost])
  | commit p =>
      obtain ⟨_, ⟨_, hreq, ⟨_, rfl⟩ | ⟨_, _, rfl⟩⟩ | ⟨_, hreq, rfl⟩⟩ := create_commit hstep
      · exact moves_on hreq (by simp [CreateStage.cost])
      · exact moves_on hreq (by simp [CreateStage.cost])
      · exact moves_on hreq (by simp [CreateStage.cost])
  | abort p =>
      obtain ⟨_, _, hreq, hopen, rfl⟩ := create_abort hstep
      exact moves_on hreq (CreateStage.cost_pos hopen)
  | beginCleanup _ =>
      obtain ⟨_, rfl⟩ := create_beginCleanup hstep
      exact .idle
  | deleteRecords _ =>
      obtain ⟨_, _, _, rfl⟩ := create_deleteRecords hstep
      exact .idle
  | commitCleanup _ =>
      obtain ⟨_, rfl⟩ := create_commitCleanup hstep
      exact .idle
  | abortCleanup _ =>
      obtain ⟨_, _, rfl⟩ := create_abortCleanup hstep
      exact .idle
  | advance _ =>
      obtain rfl := create_advance hstep
      exact .idle

/-- The cleanup that an action serves. -/
def CreateAction.cleanup : CreateAction → Option CleanupId
  | .beginCleanup c => some c
  | .deleteRecords c => some c
  | .commitCleanup c => some c
  | .abortCleanup c => some c
  | _ => none

/-- Every step of a cleanup leaves it one step less. -/
theorem cleanup_movesOn (hstep : createStep fns s a = some t) :
    MovesOn 3 CleanupStage.cost s.cleanups t.cleanups a.cleanup := by
  cases a with
  | begin _ _ _ _ =>
      obtain ⟨_, _, _, rfl⟩ := create_begin hstep
      exact .idle
  | lookup _ =>
      obtain ⟨_, _, rfl⟩ := create_lookup hstep
      exact .idle
  | insert _ _ =>
      obtain ⟨_, _, _, ⟨_, rfl⟩ | ⟨_, rfl⟩⟩ := create_insert hstep
      · exact .idle
      · exact .idle
  | commit _ =>
      obtain ⟨_, ⟨_, _, ⟨_, rfl⟩ | ⟨_, _, rfl⟩⟩ | ⟨_, _, rfl⟩⟩ := create_commit hstep
      · exact .idle
      · exact .idle
      · exact .idle
  | abort _ =>
      obtain ⟨_, _, _, _, rfl⟩ := create_abort hstep
      exact .idle
  | beginCleanup c =>
      obtain ⟨hnone, rfl⟩ := create_beginCleanup hstep
      exact begins hnone (by simp [CleanupStage.cost])
  | deleteRecords c =>
      obtain ⟨now, hstage, _, rfl⟩ := create_deleteRecords hstep
      exact moves_on hstage (by simp [CleanupStage.cost])
  | commitCleanup c =>
      obtain ⟨hstage, rfl⟩ := create_commitCleanup hstep
      exact moves_on hstage (by simp [CleanupStage.cost])
  | abortCleanup c =>
      dsimp only [createStep] at hstep
      split at hstep
      case h_1 => cases hstep
      case h_2 stage hne hstage =>
          cases hstep
          refine moves_on hstage ?_
          cases stage with
          | finished => exact absurd rfl hne
          | started _ => simp [CleanupStage.cost]
          | deleting => simp [CleanupStage.cost]
      case h_3 => cases hstep
  | advance _ =>
      obtain rfl := create_advance hstep
      exact .idle

/-- A step of the handler. -/
def CreateAction.plain : CreateAction → Bool
  | .lookup _ => true
  | .insert _ _ => true
  | .commit _ => true
  | _ => false

/-- The creation has a next step. -/
def CreateState.Moves (fns : BodyFunctions) (s : CreateState) (q : CreateId) : Prop :=
  ∃ a : CreateAction, a.request = some q ∧ a.plain = true ∧ (createStep fns s a).isSome = true

/-- Some cleanup has deleted a record and not committed. -/
def CreateState.DeletedBy (s : CreateState) (c : CleanupId) : Prop :=
  ∃ record ∈ s.records, record.deletedBy = some c

/-- **A creation moves, or waits for a cleanup.** -/
theorem create_moves (hreq : s.requests q = some (call, stage))
    (hopen : ∀ outcome, stage ≠ .answered outcome) :
    s.Moves fns q ∨ ∃ c, s.DeletedBy c := by
  cases stage with
  | answered outcome => exact absurd rfl (hopen outcome)
  | starting => exact Or.inl ⟨.lookup q, rfl, rfl, by simp [createStep, hreq]⟩
  | inserting =>
      obtain ⟨id, hid⟩ := exists_fresh s.drawn
      refine Or.inl ⟨.insert q id, rfl, rfl, ?_⟩
      cases hlong : call.keyTooLong with
      | true => simp [createStep, hreq, hid, hlong]
      | false => simp [createStep, hreq, hid, hlong]
  | storing ride =>
      cases hcached : s.cached call with
      | none => exact Or.inl ⟨.commit q, rfl, rfl, by simp [createStep, hreq, hcached]⟩
      | some conflicting =>
          cases hdeleted : conflicting.deletedBy with
          | none =>
              exact Or.inl ⟨.commit q, rfl, rfl, by simp [createStep, hreq, hcached, hdeleted]⟩
          | some c =>
              obtain ⟨key, _, hfound⟩ := Option.bind_eq_some_iff.mp hcached
              exact Or.inr ⟨c, conflicting, List.mem_of_find?_eq_some hfound, hdeleted⟩
  | replaying response => exact Or.inl ⟨.commit q, rfl, rfl, by simp [createStep, hreq]⟩

/-- The cleanup has a next step. -/
def CreateState.CleanupMoves (fns : BodyFunctions) (s : CreateState) (c : CleanupId) : Prop :=
  (createStep fns s (.deleteRecords c)).isSome = true ∨
    (createStep fns s (.commitCleanup c)).isSome = true

/-- **A cleanup moves, or waits for another one.** -/
theorem cleanup_moves {stage : CleanupStage} (hc : s.cleanups c = some stage)
    (hopen : stage ≠ .finished) : s.CleanupMoves fns c ∨ ∃ d, s.DeletedBy d := by
  cases stage with
  | finished => exact absurd rfl hopen
  | deleting => exact Or.inl (Or.inr (by simp [createStep, hc]))
  | started now =>
      by_cases hfree : ∀ record ∈ s.records, record.expired now → record.deletedBy = none
      · have hall : (s.records.all fun record =>
            decide (record.expired now = true → record.deletedBy = none)) = true :=
          List.all_eq_true.mpr fun record hmem => decide_eq_true (hfree record hmem)
        exact Or.inl (Or.inl (by simp only [createStep, hc, hall, if_true, Option.isSome_some]))
      · push Not at hfree
        obtain ⟨record, hmem, _, hdeleted⟩ := hfree
        obtain ⟨d, hd⟩ := Option.ne_none_iff_exists'.mp hdeleted
        exact Or.inr ⟨d, record, hmem, hd⟩

/-- Records are deleted by cleanups that are about to commit. -/
def RecordsHeld (s : CreateState) : Prop :=
  ∀ c, s.DeletedBy c → s.cleanups c = some .deleting

/-- Records stay held where neither they nor the cleanups change. -/
theorem RecordsHeld.same (h : RecordsHeld s) (hrecords : t.records = s.records)
    (hcleanups : t.cleanups = s.cleanups) : RecordsHeld t := by
  rintro c ⟨record, hmem, hdeleted⟩
  rw [hcleanups]
  exact h c ⟨record, hrecords ▸ hmem, hdeleted⟩

/-- One step keeps the records held. -/
theorem step_recordsHeld (h : RecordsHeld s) (hstep : createStep fns s a = some t) :
    RecordsHeld t := by
  cases a with
  | begin _ _ _ _ =>
      obtain ⟨_, _, _, rfl⟩ := create_begin hstep
      exact h.same rfl rfl
  | lookup _ =>
      obtain ⟨_, _, rfl⟩ := create_lookup hstep
      exact h.same rfl rfl
  | insert _ _ =>
      obtain ⟨_, _, _, ⟨_, rfl⟩ | ⟨_, rfl⟩⟩ := create_insert hstep
      · exact h.same rfl rfl
      · exact h.same rfl rfl
  | commit _ =>
      obtain ⟨call, ⟨ride, _, ⟨_, rfl⟩ | ⟨_, _, rfl⟩⟩ | ⟨_, _, rfl⟩⟩ := create_commit hstep
      · rintro c ⟨record, hmem, hdeleted⟩
        rcases List.mem_append.mp hmem with hold | hnew
        · exact h c ⟨record, hold, hdeleted⟩
        · unfold pendingRecords at hnew
          split at hnew
          · cases hnew
          · obtain rfl := List.mem_singleton.mp hnew
            cases hdeleted
      · exact h.same rfl rfl
      · exact h.same rfl rfl
  | abort _ =>
      obtain ⟨_, _, _, _, rfl⟩ := create_abort hstep
      exact h.same rfl rfl
  | beginCleanup c =>
      obtain ⟨hnone, rfl⟩ := create_beginCleanup hstep
      intro d hd
      have hdeleting := h d hd
      refine update_some_iff.mpr (Or.inr ⟨?_, hdeleting⟩)
      rintro rfl
      rw [hnone] at hdeleting
      cases hdeleting
  | deleteRecords c =>
      obtain ⟨now, hc, _, rfl⟩ := create_deleteRecords hstep
      rintro d ⟨record, hmem, hdeleted⟩
      obtain ⟨old, hold, rfl⟩ := List.mem_map.mp hmem
      split at hdeleted
      · obtain rfl : c = d := Option.some.inj hdeleted
        exact update_self _ _ _
      · have hdeleting := h d ⟨old, hold, hdeleted⟩
        refine update_some_iff.mpr (Or.inr ⟨?_, hdeleting⟩)
        rintro rfl
        rw [hc] at hdeleting
        cases hdeleting
  | commitCleanup c =>
      obtain ⟨_, rfl⟩ := create_commitCleanup hstep
      rintro d ⟨record, hmem, hdeleted⟩
      obtain ⟨hold, hother⟩ := List.mem_filter.mp hmem
      refine update_some_iff.mpr (Or.inr ⟨?_, h d ⟨record, hold, hdeleted⟩⟩)
      rintro rfl
      simp [hdeleted] at hother
  | abortCleanup c =>
      obtain ⟨_, _, rfl⟩ := create_abortCleanup hstep
      rintro d ⟨record, hmem, hdeleted⟩
      obtain ⟨old, hold, rfl⟩ := List.mem_map.mp hmem
      split at hdeleted
      case isTrue => cases hdeleted
      case isFalse hother =>
          refine update_some_iff.mpr (Or.inr ⟨?_, h d ⟨old, hold, hdeleted⟩⟩)
          rintro rfl
          exact hother hdeleted
  | advance _ =>
      obtain rfl := create_advance hstep
      exact h.same rfl rfl

end Creates

end RideFlow
