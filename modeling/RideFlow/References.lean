import RideFlow.Idempotency
import RideFlow.MatchingBranch
import RideFlow.RoundTrip
import RideFlow.Server
import RideFlow.TokenProvenance

/-!
# Every reference resolves

The tables, the GEO pool and the reservation keys name users and rides by their ids.
In every reachable state each of these names somebody who is registered, with the
role that the name calls for, or a ride that exists: the passenger of a ride is a
passenger, its driver, the owner of a profile, a member of the pool and the holder of
a reservation are drivers, and an event or a cached response is about a ride of the
passenger whom it names (`references_resolve`).

The database checks less: it has foreign keys from rides, tokens and profiles to
users, without the roles, and none to rides.  What carries the rest is that
`require_roles` stands before the handlers, that a candidate of a search comes out
of the pool, and that nobody is removed or changes roles.
-/

namespace RideFlow

open Function Runs Tables

/-- A user of this role has the id. -/
def Registered (users : List User) (role : UserRole) (id : UserId) : Prop :=
  ∃ user ∈ users, user.id = id ∧ user.role = role

/-- Who is registered stays so when others register. -/
theorem Registered.grows {users : List User} {role : UserRole} {id : UserId}
    (h : Registered users role id) (added : List User) : Registered (users ++ added) role id := by
  obtain ⟨user, hmem, hid, hrole⟩ := h
  exact ⟨user, List.mem_append_left added hmem, hid, hrole⟩

section Drivers

/-- Drivers only have profiles, are in the pool and come to the handlers. -/
structure OnlyDrivers (D : UserId → Prop) (s : DriverState) : Prop where
  callers : ∀ q call stage, s.requests q = some (call, stage) → D call.user.id
  profiles : ∀ d profile, s.store.profiles d = some profile → D d
  pool : ∀ m ∈ s.store.pool, D m.driverId

variable {D D' : UserId → Prop} {cfg : Settings} {s t : DriverState} {a : DriverAction}
  {q : DriverReqId} {call : DriverCall} {old stage : DriverStage}

/-- The same with more people for drivers. -/
theorem OnlyDrivers.mono (h : OnlyDrivers D s) (hD : ∀ d, D d → D' d) : OnlyDrivers D' s where
  callers q call stage hreq := hD _ (h.callers q call stage hreq)
  profiles d profile hrow := hD _ (h.profiles d profile hrow)
  pool m hm := hD _ (h.pool m hm)

/-- One request moves, with the same call. -/
theorem OnlyDrivers.move (h : OnlyDrivers D s) (hreq : s.requests q = some (call, old))
    (hreqs : t.requests = update s.requests q (some (call, stage)))
    (hprofiles : ∀ d profile, t.store.profiles d = some profile → D d)
    (hpool : ∀ m ∈ t.store.pool, D m.driverId) : OnlyDrivers D t where
  callers p call' stage' hp := by
    obtain ⟨before, hbefore⟩ := first_of_update hreq (hreqs ▸ hp)
    exact h.callers p call' before hbefore
  profiles := hprofiles
  pool := hpool

/-- A command of a driver leaves only drivers in the pool. -/
theorem run_onlyDrivers {command : GeoCommand} {pool new : GeoPool} {d : UserId}
    (h : ∀ m ∈ pool, D m.driverId) (hd : D d) (hrun : command.run pool d = some new) :
    ∀ m ∈ new, D m.driverId := by
  cases command with
  | zrem =>
      obtain rfl := Option.some.inj hrun
      exact fun m hm => h m (List.mem_filter.mp hm).1
  | geoadd lat lng =>
      dsimp only [GeoCommand.run, upsertDriverLocation] at hrun
      split at hrun
      case isTrue =>
          obtain rfl := Option.some.inj hrun
          intro m hm
          rcases List.mem_cons.mp hm with rfl | hold
          · exact hd
          · exact h m (List.mem_filter.mp hold).1
      case isFalse => cases hrun

/-- One step leaves only drivers among profiles, pool and requests. -/
theorem step_onlyDrivers (h : OnlyDrivers D s)
    (hbegin : ∀ q user request, a = .begin q user request → D user.id)
    (hstep : driverStep cfg s a = some t) : OnlyDrivers D t := by
  cases a with
  | begin q user request =>
      obtain ⟨_, _, rfl⟩ := driver_begin hstep
      refine ⟨fun p call stage hp => ?_, h.profiles, h.pool⟩
      rcases update_some_iff.mp hp with ⟨_, hnew⟩ | ⟨_, hold⟩
      · cases hnew
        exact hbegin q user request rfl
      · exact h.callers p call stage hold
  | read q =>
      obtain ⟨_, hreq, ⟨_, _, rfl⟩ | ⟨_, rfl⟩⟩ := driver_read hstep
      · exact h.move hreq rfl h.profiles h.pool
      · exact h.move hreq rfl h.profiles h.pool
  | insert q =>
      obtain ⟨_, hreq, rfl | ⟨_, _, rfl⟩⟩ := driver_insert hstep
      · exact h.move hreq rfl h.profiles h.pool
      · exact h.move hreq rfl h.profiles h.pool
  | handle q =>
      obtain ⟨_, _, _, hreq, ⟨_, _, rfl⟩ | ⟨_, _, _, rfl⟩ | ⟨_, _, rfl⟩⟩ := driver_handle hstep
      · exact h.move hreq rfl h.profiles h.pool
      · exact h.move hreq rfl h.profiles h.pool
      · exact h.move hreq rfl h.profiles h.pool
  | redis q =>
      obtain ⟨call, _, _, _, _, hreq, ⟨pool, hrun, rfl⟩ | rfl⟩ := driver_redis hstep
      · exact h.move hreq rfl h.profiles
          (run_onlyDrivers h.pool (h.callers q call _ hreq) hrun)
      · exact h.move hreq rfl h.profiles h.pool
  | commit q =>
      obtain ⟨call, _, _, _, hreq, hcases⟩ := driver_commit hstep
      have hcaller := h.callers q call _ hreq
      rcases hcases with ⟨_, rfl⟩ | ⟨_, _, _, rfl⟩ | ⟨_, _, rfl⟩
      · refine h.move hreq rfl (fun d profile hrow => ?_) h.pool
        rcases update_some_iff.mp hrow with ⟨rfl, _⟩ | ⟨_, hold⟩
        · exact hcaller
        · exact h.profiles d profile hold
      · refine h.move hreq rfl (fun d profile hrow => ?_) h.pool
        rcases update_some_iff.mp hrow with ⟨rfl, _⟩ | ⟨_, hold⟩
        · exact hcaller
        · exact h.profiles d profile hold
      · exact h.move hreq rfl h.profiles h.pool
  | abort q =>
      obtain ⟨_, _, hreq, _, rfl⟩ := driver_abort hstep
      exact h.move hreq rfl h.profiles h.pool
  | beginSweep _ =>
      obtain ⟨_, rfl⟩ := driver_beginSweep hstep
      exact ⟨h.callers, h.profiles, h.pool⟩
  | selectStale _ _ =>
      obtain ⟨_, _, _, rfl⟩ := driver_selectStale hstep
      exact ⟨h.callers, h.profiles, h.pool⟩
  | removeStale _ =>
      obtain ⟨_, _, _, _, _, rfl⟩ := driver_removeStale hstep
      exact ⟨h.callers, h.profiles, fun m hm => h.pool m (List.mem_filter.mp hm).1⟩
  | commitSweep _ =>
      obtain ⟨_, evicted, _, rfl⟩ := driver_commitSweep hstep
      refine ⟨h.callers, fun d profile hrow => ?_, h.pool⟩
      simp only [DriverState.commitSweep] at hrow
      split at hrow
      · obtain ⟨old, hold, _⟩ := Option.map_eq_some_iff.mp hrow
        exact h.profiles d old hold
      · exact h.profiles d profile hrow
  | abortSweep _ =>
      obtain ⟨_, _, _, rfl⟩ := driver_abortSweep hstep
      exact ⟨h.callers, h.profiles, h.pool⟩
  | advance _ =>
      obtain rfl := driver_advance hstep
      exact ⟨h.callers, h.profiles, h.pool⟩

end Drivers

section Tokens

/-- The users of the rows that a request has read or put into its session. -/
def AuthStage.Owners (U : UserId → Prop) : AuthStage → Prop
  | .checking stored => U stored.userId
  | .issuing pair => U pair.row.userId
  | .revoking stored pair => U stored.userId ∧ ∀ issued, pair = some issued → U issued.row.userId
  | .holding replaced pair =>
      U replaced.userId ∧ ∀ issued, pair = some issued → U issued.row.userId
  | _ => True

/-- Every token, stored or about to be, is somebody's. -/
structure TokenOwners (U : UserId → Prop) (s : AuthState) : Prop where
  row : ∀ token row, s.tokens token = some row → U row.userId
  stage : ∀ q request stage, s.requests q = some (request, stage) → stage.Owners U

variable {U U' : UserId → Prop} {cfg : Settings} {fns : SecurityFunctions} {s t : AuthState}
  {a : AuthAction} {q : AuthId} {request : AuthRequest} {stage : AuthStage}

/-- The same with more people for owners. -/
theorem AuthStage.Owners.mono (h : stage.Owners U) (hU : ∀ u, U u → U' u) : stage.Owners U' := by
  cases stage with
  | checking stored => exact hU _ h
  | issuing pair => exact hU _ h
  | revoking stored pair => exact ⟨hU _ h.1, fun issued hpair => hU _ (h.2 issued hpair)⟩
  | holding replaced pair => exact ⟨hU _ h.1, fun issued hpair => hU _ (h.2 issued hpair)⟩
  | starting => trivial
  | leaving _ => trivial
  | answered _ => trivial

/-- The same for all tokens. -/
theorem TokenOwners.mono (h : TokenOwners U s) (hU : ∀ u, U u → U' u) : TokenOwners U' s where
  row token row hrow := hU _ (h.row token row hrow)
  stage q request stage hreq := (h.stage q request stage hreq).mono hU

/-- One request moves. -/
theorem TokenOwners.move (h : TokenOwners U s)
    (hreqs : t.requests = update s.requests q (some (request, stage)))
    (hrows : ∀ token row, t.tokens token = some row → U row.userId)
    (hstage : stage.Owners U) : TokenOwners U t where
  row := hrows
  stage p request' stage' hp := by
    rw [hreqs] at hp
    rcases update_some_iff.mp hp with ⟨_, hnew⟩ | ⟨_, hold⟩
    · cases hnew
      exact hstage
    · exact h.stage p request' stage' hold

/-- A token that is drawn is a user's, whose password was verified or whose living token
was read. -/
theorem auth_check_user {raw : String} (h : authStep cfg fns s (.check q raw) = some t) :
    (∃ request stage error, s.requests q = some (request, stage) ∧
      (∀ outcome, stage ≠ .answered outcome) ∧ t = s.finish q request (.rejected error)) ∨
    ∃ request stage user, s.requests q = some (request, stage) ∧ user ∈ s.users ∧
      ((∃ email password, request = .login email password ∧ stage = .starting ∧
        user.email = email ∧ fns.verifyPassword password user.hashedPassword = true ∧
        t = { s.at_ q request (.issuing (issueTokenPair cfg fns user raw s.clock)) with
          drawn := fns.hashRefreshToken raw :: s.drawn }) ∨
      ∃ stored, stage = .checking stored ∧ user.id = stored.userId ∧
        stored.revoked = false ∧ s.clock ≤ stored.expiresAt ∧
        t = { s.at_ q request
            (.revoking stored (some (issueTokenPair cfg fns user raw s.clock))) with
          drawn := fns.hashRefreshToken raw :: s.drawn }) := by
  dsimp only [authStep] at h
  split at h
  case h_1 email password hreq =>
      split at h
      case h_1 error _ =>
          exact Or.inl ⟨_, _, error, hreq, by simp, (Option.some.inj h).symm⟩
      case h_2 user huser =>
          split at h
          case isTrue => cases h
          case isFalse =>
              obtain ⟨hmem, hemail, _, hverified⟩ := checkLogin_ok huser
              exact Or.inr ⟨_, _, user, hreq, hmem, Or.inl ⟨email, password, rfl, rfl, hemail,
                hverified, (Option.some.inj h).symm⟩⟩
  case h_2 request stored hreq =>
      split at h
      case h_1 error _ =>
          exact Or.inl ⟨_, _, error, hreq, by simp, (Option.some.inj h).symm⟩
      case h_2 user huser =>
          split at h
          case isTrue => cases h
          case isFalse =>
              obtain ⟨hunrevoked, hid⟩ := checkRefresh_ok huser
              obtain ⟨hmem, _, hunexpired⟩ := checkRefresh_active huser
              exact Or.inr ⟨_, _, user, hreq, hmem, Or.inr ⟨stored, rfl, hid, hunrevoked,
                hunexpired, (Option.some.inj h).symm⟩⟩
  case h_3 => cases h

/-- A new token has an owner like the others. -/
theorem insertToken_owners {tokens : TokenHash → Option RefreshToken} {pair : Option IssuedPair}
    (h : ∀ token row, tokens token = some row → U row.userId)
    (hpair : ∀ issued, pair = some issued → U issued.row.userId) :
    ∀ token row, insertToken tokens pair token = some row → U row.userId := by
  intro token row hrow
  cases pair with
  | none => exact h token row hrow
  | some issued =>
      rcases update_some_iff.mp hrow with ⟨_, rfl⟩ | ⟨_, hold⟩
      · exact hpair issued rfl
      · exact h token row hold

/-- A logout has in hand a token with an owner. -/
theorem afterLogoutRead_owners {found : Option RefreshToken}
    (h : ∀ stored, found = some stored → U stored.userId) : (afterLogoutRead found).Owners U := by
  cases found with
  | none => trivial
  | some stored =>
      cases hrevoked : stored.revoked with
      | true => simp [afterLogoutRead, hrevoked, AuthStage.Owners]
      | false => simpa [afterLogoutRead, hrevoked, AuthStage.Owners] using h stored rfl

/-- One step leaves every token with an owner. -/
theorem step_tokenOwners (h : TokenOwners U s) (hU : ∀ user ∈ s.users, U user.id)
    (hstep : authStep cfg fns s a = some t) : TokenOwners U t := by
  cases a with
  | begin q request =>
      obtain ⟨_, rfl⟩ := auth_begin hstep
      exact h.move rfl h.row trivial
  | read q =>
      obtain ⟨raw, ⟨_, rfl | ⟨stored, hrow, rfl⟩⟩ | ⟨_, rfl⟩⟩ := auth_read hstep
      · exact h.move rfl h.row trivial
      · exact h.move rfl h.row (h.row _ stored hrow)
      · exact h.move rfl h.row (afterLogoutRead_owners fun stored hrow => h.row _ stored hrow)
  | check q raw =>
      rcases auth_check_user hstep with ⟨_, _, _, _, _, rfl⟩ |
        ⟨_, _, user, hreq, hmem, ⟨_, _, _, _, _, _, rfl⟩ | ⟨stored, rfl, _, _, _, rfl⟩⟩
      · exact h.move rfl h.row trivial
      · exact h.move rfl h.row (hU user hmem)
      · refine h.move rfl h.row ⟨h.stage q _ _ hreq, fun issued hpair => ?_⟩
        cases hpair
        exact hU user hmem
  | update q =>
      obtain ⟨_, stored, pair, hreq, rfl | ⟨row, hrow, _, rfl⟩⟩ := auth_update hstep
      · exact h.move rfl h.row trivial
      · exact h.move rfl h.row ⟨h.row _ row hrow, (h.stage q _ _ hreq).2⟩
  | commit q =>
      obtain ⟨_, ⟨pair, hreq, rfl⟩ | ⟨replaced, pair, hreq, rfl⟩ | ⟨_, _, rfl⟩⟩ := auth_commit hstep
      · have hpair : ∀ issued, some pair = some issued → U issued.row.userId := by
          rintro issued ⟨⟩
          exact h.stage q _ _ hreq
        exact h.move rfl (insertToken_owners h.row hpair) trivial
      · obtain ⟨hreplaced, hpair⟩ := h.stage q _ _ hreq
        refine h.move rfl (insertToken_owners (fun token row hrow => ?_) hpair) trivial
        rcases update_some_iff.mp hrow with ⟨_, rfl⟩ | ⟨_, hold⟩
        · exact hreplaced
        · exact h.row token row hold
      · exact h.move rfl h.row trivial
  | abort q =>
      obtain ⟨_, _, _, _, rfl⟩ := auth_abort hstep
      exact h.move rfl h.row trivial
  | advance _ =>
      obtain rfl := auth_advance hstep
      exact ⟨h.row, h.stage⟩

/-- No login, refresh or logout changes the users. -/
theorem auth_users (hstep : authStep cfg fns s a = some t) : t.users = s.users := by
  cases a with
  | begin _ _ =>
      obtain ⟨_, rfl⟩ := auth_begin hstep
      rfl
  | read _ =>
      obtain ⟨_, ⟨_, rfl | ⟨_, _, rfl⟩⟩ | ⟨_, rfl⟩⟩ := auth_read hstep
      · rfl
      · rfl
      · rfl
  | check _ _ =>
      rcases auth_check_user hstep with ⟨_, _, _, _, _, rfl⟩ |
        ⟨_, _, _, _, _, ⟨_, _, _, _, _, _, rfl⟩ | ⟨_, _, _, _, _, rfl⟩⟩
      · rfl
      · rfl
      · rfl
  | update _ =>
      obtain ⟨_, _, _, _, rfl | ⟨_, _, _, rfl⟩⟩ := auth_update hstep
      · rfl
      · rfl
  | commit _ =>
      obtain ⟨_, ⟨_, _, rfl⟩ | ⟨_, _, _, rfl⟩ | ⟨_, _, rfl⟩⟩ := auth_commit hstep
      · rfl
      · rfl
      · rfl
  | abort _ =>
      obtain ⟨_, _, _, _, rfl⟩ := auth_abort hstep
      rfl
  | advance _ =>
      obtain rfl := auth_advance hstep
      rfl

end Tokens

section Creations

/-- Passengers create rides, each ride has an id of its own, and a cached response is
about a committed one. -/
structure CreationsOf (P : UserId → Prop) (s : CreateState) : Prop where
  callers : ∀ q call stage, s.requests q = some (call, stage) → P call.user.id
  drawn : ∀ ride ∈ s.rides, ride.id ∈ s.drawn
  storing : ∀ q call ride, s.requests q = some (call, .storing ride) →
    ride.id ∈ s.drawn ∧ P ride.passengerId ∧ ride.driverId = none ∧
      ∀ old ∈ s.rides, old.id ≠ ride.id
  apart : ∀ p q call call' ride ride', s.requests p = some (call, .storing ride) →
    s.requests q = some (call', .storing ride') → ride.id = ride'.id → p = q
  cached : ∀ record ∈ s.records, ∃ ride ∈ s.rides, ride.id = record.responseBody.id ∧
    ride.passengerId = record.responseBody.passengerId

variable {P P' : UserId → Prop} {fns : BodyFunctions} {s t : CreateState} {a : CreateAction}
  {q : CreateId} {call : CreateCall} {old stage : CreateStage}

/-- The same with more people for passengers. -/
theorem CreationsOf.mono (h : CreationsOf P s) (hP : ∀ u, P u → P' u) : CreationsOf P' s where
  callers q call stage hreq := hP _ (h.callers q call stage hreq)
  drawn := h.drawn
  storing q call ride hreq := by
    obtain ⟨hdrawn, hpassenger, hfresh⟩ := h.storing q call ride hreq
    exact ⟨hdrawn, hP _ hpassenger, hfresh⟩
  apart := h.apart
  cached := h.cached

/-- One request moves, to a stage in which it stores nothing. -/
theorem CreationsOf.move (h : CreationsOf P s) (hcaller : P call.user.id)
    (hreqs : t.requests = update s.requests q (some (call, stage)))
    (hrides : t.rides = s.rides) (hdrawn : t.drawn = s.drawn) (hrecords : t.records = s.records)
    (hstage : ∀ ride, stage ≠ .storing ride) : CreationsOf P t := by
  have hstoring : ∀ {p call' ride}, t.requests p = some (call', .storing ride) →
      s.requests p = some (call', .storing ride) := by
    intro p call' ride hp
    rw [hreqs] at hp
    rcases update_some_iff.mp hp with ⟨_, hnew⟩ | ⟨_, hold⟩
    · cases hnew
      exact absurd rfl (hstage ride)
    · exact hold
  refine ⟨?_, hrides ▸ hdrawn ▸ h.drawn, ?_, ?_, hrides ▸ hrecords ▸ h.cached⟩
  · intro p call' stage' hp
    rw [hreqs] at hp
    rcases update_some_iff.mp hp with ⟨_, hnew⟩ | ⟨_, hold⟩
    · cases hnew
      exact hcaller
    · exact h.callers p call' stage' hold
  · intro p call' ride hp
    rw [hrides, hdrawn]
    exact h.storing p call' ride (hstoring hp)
  · exact fun p q' c c' ride ride' hp hq => h.apart p q' c c' ride ride' (hstoring hp) (hstoring hq)

/-- The records change their locks, or go. -/
theorem CreationsOf.reshelve (h : CreationsOf P s) (hreqs : t.requests = s.requests)
    (hrides : t.rides = s.rides) (hdrawn : t.drawn = s.drawn)
    (hrecords : ∀ record ∈ t.records, ∃ kept ∈ s.records,
      kept.responseBody = record.responseBody) : CreationsOf P t := by
  refine ⟨hreqs ▸ h.callers, hrides ▸ hdrawn ▸ h.drawn, ?_, hreqs ▸ h.apart, ?_⟩
  · rw [hreqs, hrides, hdrawn]
    exact h.storing
  · intro record hmem
    obtain ⟨kept, hkept, hbody⟩ := hrecords record hmem
    rw [hrides, ← hbody]
    exact h.cached kept hkept

/-- The flush of a ride, with an id that nobody has drawn. -/
theorem CreationsOf.flush (h : CreationsOf P s) {id : RideId}
    (hreq : s.requests q = some (call, .inserting)) (hid : id ∉ s.drawn) :
    CreationsOf P { s.at_ q call (.storing (insertedRide fns call id)) with
      drawn := id :: s.drawn } := by
  have hcaller := h.callers q call _ hreq
  refine ⟨?_, fun ride hmem => List.mem_cons_of_mem id (h.drawn ride hmem), ?_, ?_, h.cached⟩
  · intro p call' stage' hp
    obtain ⟨before, hbefore⟩ := first_of_update hreq hp
    exact h.callers p call' before hbefore
  · intro p call' ride hp
    rcases update_some_iff.mp hp with ⟨_, hnew⟩ | ⟨_, hold⟩
    · cases hnew
      refine ⟨List.mem_cons_self, hcaller, rfl, fun old hmem hold => hid ?_⟩
      exact (show old.id = id from hold) ▸ h.drawn old hmem
    · obtain ⟨hdrawn, hrest⟩ := h.storing p call' ride hold
      exact ⟨List.mem_cons_of_mem id hdrawn, hrest⟩
  · intro p p' c c' ride ride' hp hp' hsame
    rcases update_some_iff.mp hp with ⟨rfl, hnew⟩ | ⟨_, hold⟩
    · cases hnew
      rcases update_some_iff.mp hp' with ⟨rfl, _⟩ | ⟨_, hold'⟩
      · rfl
      · exact absurd ((show id = ride'.id from hsame) ▸ (h.storing p' c' ride' hold').1) hid
    · rcases update_some_iff.mp hp' with ⟨_, hnew⟩ | ⟨_, hold'⟩
      · cases hnew
        exact absurd ((show ride.id = id from hsame) ▸ (h.storing p c ride hold).1) hid
      · exact h.apart p p' c c' ride ride' hold hold' hsame

/-- The COMMIT of a ride with its record. -/
theorem CreationsOf.publish (h : CreationsOf P s) {ride : Ride}
    (hreq : s.requests q = some (call, .storing ride)) :
    CreationsOf P (s.publish q call ride (pendingRecords fns call ride)) := by
  obtain ⟨hdrawn, _⟩ := h.storing q call ride hreq
  have hstoring : ∀ {p call' other},
      (s.publish q call ride (pendingRecords fns call ride)).requests p =
        some (call', .storing other) → p ≠ q ∧ s.requests p = some (call', .storing other) := by
    intro p call' other hp
    rcases update_some_iff.mp hp with ⟨_, hnew⟩ | hold
    · cases hnew
    · exact hold
  refine ⟨?_, ?_, ?_, ?_, ?_⟩
  · intro p call' stage' hp
    obtain ⟨before, hbefore⟩ := first_of_update hreq hp
    exact h.callers p call' before hbefore
  · intro other hmem
    rcases List.mem_append.mp hmem with hold | hnew
    · exact h.drawn other hold
    · obtain rfl := List.mem_singleton.mp hnew
      exact hdrawn
  · intro p call' other hp
    obtain ⟨hne, hold⟩ := hstoring hp
    obtain ⟨hother, hpassenger, hdriver, hfresh⟩ := h.storing p call' other hold
    refine ⟨hother, hpassenger, hdriver, fun old hmem => ?_⟩
    rcases List.mem_append.mp hmem with hmem | hnew
    · exact hfresh old hmem
    · obtain rfl := List.mem_singleton.mp hnew
      exact fun hsame => hne (h.apart q p _ _ _ _ hreq hold hsame).symm
  · exact fun p p' c c' other other' hp hp' =>
      h.apart p p' c c' other other' (hstoring hp).2 (hstoring hp').2
  · intro record hmem
    rcases List.mem_append.mp hmem with hold | hnew
    · obtain ⟨first, hfirst, hrest⟩ := h.cached record hold
      exact ⟨first, List.mem_append_left _ hfirst, hrest⟩
    · refine ⟨ride, List.mem_append_right _ (List.mem_singleton_self ride), ?_⟩
      unfold pendingRecords at hnew
      split at hnew
      · cases hnew
      · obtain rfl := List.mem_singleton.mp hnew
        exact ⟨rfl, rfl⟩

/-- No creation goes from its SELECT to its COMMIT. -/
theorem afterLookup_storing (call : CreateCall) (cached : Option IdempotencyRecord) (ride : Ride) :
    afterLookup fns call cached ≠ .storing ride := by
  unfold afterLookup
  split
  · simp
  · split <;> simp

/-- One step leaves all creations to passengers. -/
theorem step_creationsOf (h : CreationsOf P s)
    (hbegin : ∀ q user payload key, a = .begin q user payload key → P user.id)
    (hstep : createStep fns s a = some t) : CreationsOf P t := by
  cases a with
  | begin q user payload key =>
      obtain ⟨_, _, _, rfl⟩ := create_begin hstep
      exact h.move (hbegin q user payload key rfl) rfl rfl rfl rfl (by simp)
  | lookup q =>
      obtain ⟨_, hreq, rfl⟩ := create_lookup hstep
      exact h.move (h.callers q _ _ hreq) rfl rfl rfl rfl (afterLookup_storing _ _)
  | insert q id =>
      obtain ⟨_, hreq, hid, ⟨_, rfl⟩ | ⟨_, rfl⟩⟩ := create_insert hstep
      · exact h.move (h.callers q _ _ hreq) rfl rfl rfl rfl (by simp)
      · exact h.flush hreq hid
  | commit q =>
      obtain ⟨_, ⟨_, hreq, ⟨_, rfl⟩ | ⟨_, _, rfl⟩⟩ | ⟨_, hreq, rfl⟩⟩ := create_commit hstep
      · exact h.publish hreq
      · exact h.move (h.callers q _ _ hreq) rfl rfl rfl rfl (by simp)
      · exact h.move (h.callers q _ _ hreq) rfl rfl rfl rfl (by simp)
  | abort q =>
      obtain ⟨_, _, hreq, _, rfl⟩ := create_abort hstep
      exact h.move (h.callers q _ _ hreq) rfl rfl rfl rfl (by simp)
  | beginCleanup _ =>
      obtain ⟨_, rfl⟩ := create_beginCleanup hstep
      exact h.reshelve rfl rfl rfl fun record hmem => ⟨record, hmem, rfl⟩
  | deleteRecords _ =>
      obtain ⟨_, _, _, rfl⟩ := create_deleteRecords hstep
      refine h.reshelve rfl rfl rfl fun record hmem => ?_
      obtain ⟨kept, hkept, rfl⟩ := List.mem_map.mp hmem
      exact ⟨kept, hkept, by split <;> rfl⟩
  | commitCleanup _ =>
      obtain ⟨_, rfl⟩ := create_commitCleanup hstep
      exact h.reshelve rfl rfl rfl fun record hmem => ⟨record, (List.mem_filter.mp hmem).1, rfl⟩
  | abortCleanup _ =>
      obtain ⟨_, _, rfl⟩ := create_abortCleanup hstep
      refine h.reshelve rfl rfl rfl fun record hmem => ?_
      obtain ⟨kept, hkept, rfl⟩ := List.mem_map.mp hmem
      exact ⟨kept, hkept, by split <;> rfl⟩
  | advance _ =>
      obtain rfl := create_advance hstep
      exact h.reshelve rfl rfl rfl fun record hmem => ⟨record, hmem, rfl⟩

/-- The committed rides grow by what the step publishes. -/
theorem step_published (hstep : createStep fns s a = some t) :
    t.rides = s.rides ++ (s.published a).toList := by
  cases a with
  | commit q =>
      obtain ⟨call, ⟨ride, hreq, ⟨hfree, rfl⟩ | ⟨_, hcached, rfl⟩⟩ | ⟨_, hreq, rfl⟩⟩ :=
        create_commit hstep
      · simp [CreateState.published, hreq, hfree, CreateState.publish]
      · simp [CreateState.published, hreq, hcached, CreateState.at_]
      · simp [CreateState.published, hreq, CreateState.at_]
  | begin _ _ _ _ =>
      obtain ⟨_, _, _, rfl⟩ := create_begin hstep
      simp [CreateState.published, CreateState.at_]
  | lookup _ =>
      obtain ⟨_, _, rfl⟩ := create_lookup hstep
      simp [CreateState.published, CreateState.at_]
  | insert _ _ =>
      obtain ⟨_, _, _, ⟨_, rfl⟩ | ⟨_, rfl⟩⟩ := create_insert hstep
      · simp [CreateState.published, CreateState.at_]
      · simp [CreateState.published, CreateState.at_]
  | abort _ =>
      obtain ⟨_, _, _, _, rfl⟩ := create_abort hstep
      simp [CreateState.published, CreateState.at_]
  | beginCleanup _ =>
      obtain ⟨_, rfl⟩ := create_beginCleanup hstep
      simp [CreateState.published, CreateState.setCleanup]
  | deleteRecords _ =>
      obtain ⟨_, _, _, rfl⟩ := create_deleteRecords hstep
      simp [CreateState.published, CreateState.setCleanup]
  | commitCleanup _ =>
      obtain ⟨_, rfl⟩ := create_commitCleanup hstep
      simp [CreateState.published, CreateState.setCleanup]
  | abortCleanup _ =>
      obtain ⟨_, _, rfl⟩ := create_abortCleanup hstep
      simp [CreateState.published, CreateState.setCleanup]
  | advance _ =>
      obtain rfl := create_advance hstep
      simp [CreateState.published]

end Creations

section Rides

/-- The drivers that a request is about to reserve, or has reserved. -/
def Todo.Candidates (D : UserId → Prop) : Todo → Prop
  | .reserve candidates => ∀ d ∈ candidates, D d
  | .resolve (some d) => D d
  | _ => True

/-- A request holds a newer version of a committed row, and events about it. -/
structure HoldsParties (D : UserId → Prop) (rides : RideId → Option Ride) (ride : Ride)
    (pending : List Applied) (todo : Todo) : Prop where
  row : ∃ row, rides ride.id = some row ∧ row.passengerId = ride.passengerId
  driver : ∀ d, ride.driverId = some d → D d
  events : ∀ e ∈ pending, e.event.aggregateId = ride.id ∧
    e.event.payload.passengerId = ride.passengerId
  candidates : todo.Candidates D

/-- The passengers of rides are passengers, their drivers and those who are reserved
drivers, and keys and events are about committed rides. -/
structure RideParties (P D : UserId → Prop) (s : RideState) : Prop where
  row : ∀ r ride, s.rides r = some ride →
    ride.id = r ∧ P ride.passengerId ∧ ∀ d, ride.driverId = some d → D d
  held : ∀ q call ride pending todo, s.requests q = some (call, .holding ride pending todo) →
    HoldsParties D s.rides ride pending todo
  keys : ∀ d key, s.reservations d = some key → D d ∧ (s.rides key.rideId).isSome = true
  events : ∀ e ∈ s.outbox, ∃ ride, s.rides e.aggregateId = some ride ∧
    ride.passengerId = e.payload.passengerId

variable {P P' D D' : UserId → Prop} {cfg : Settings} {s t : RideState} {a : RideAction}
  {b : ServerAction} {q : ReqId} {call : TransitionCall} {stage : Stage} {ride : Ride}
  {pending : List Applied} {todo : Todo} {rides : RideId → Option Ride}

/-- The same with more people for drivers. -/
theorem Todo.Candidates.mono (h : todo.Candidates D) (hD : ∀ d, D d → D' d) :
    todo.Candidates D' := by
  cases todo with
  | reserve candidates => exact fun d hd => hD d (h d hd)
  | resolve driverId =>
      cases driverId with
      | none => trivial
      | some d => exact hD d h
  | search => trivial
  | getKey => trivial
  | deleteKey => trivial
  | commit => trivial

/-- The same for the ride in hand. -/
theorem HoldsParties.mono (h : HoldsParties D rides ride pending todo) (hD : ∀ d, D d → D' d) :
    HoldsParties D' rides ride pending todo :=
  ⟨h.row, fun d hd => hD d (h.driver d hd), h.events, h.candidates.mono hD⟩

/-- A request that goes on with drivers for candidates keeps the parties of its ride. -/
theorem HoldsParties.next (h : HoldsParties D rides ride pending todo) {todo' : Todo}
    (hcandidates : todo'.Candidates D) : HoldsParties D rides ride pending todo' :=
  ⟨h.row, h.driver, h.events, hcandidates⟩

/-- The same with more people for passengers and drivers. -/
theorem RideParties.mono (h : RideParties P D s) (hP : ∀ u, P u → P' u) (hD : ∀ d, D d → D' d) :
    RideParties P' D' s where
  row r ride hride := by
    obtain ⟨hid, hpassenger, hdriver⟩ := h.row r ride hride
    exact ⟨hid, hP _ hpassenger, fun d hd => hD d (hdriver d hd)⟩
  held q call ride pending todo hreq := (h.held q call ride pending todo hreq).mono hD
  keys d key hkey := ⟨hD d (h.keys d key hkey).1, (h.keys d key hkey).2⟩
  events := h.events

/-- One request moves, and the tables stay. -/
theorem RideParties.move (h : RideParties P D s)
    (hreqs : t.requests = update s.requests q (some (call, stage))) (hrides : t.rides = s.rides)
    (houtbox : t.outbox = s.outbox)
    (hkeys : ∀ d key, t.reservations d = some key → D d ∧ (s.rides key.rideId).isSome = true)
    (hmine : ∀ ride pending todo, stage = .holding ride pending todo →
      HoldsParties D s.rides ride pending todo) : RideParties P D t := by
  refine ⟨hrides ▸ h.row, ?_, hrides ▸ hkeys, hrides ▸ houtbox ▸ h.events⟩
  rw [hrides]
  exact holding_moved h.held hreqs hmine

/-- What an UPDATE leaves alone. -/
theorem written_same (e : Applied) :
    e.written.id = e.replaced.id ∧ e.written.passengerId = e.replaced.passengerId ∧
      e.event.aggregateId = e.replaced.id ∧
      e.event.payload.passengerId = e.replaced.passengerId := by
  obtain ⟨_, _, hwritten, hevent⟩ := e.spec
  rw [hevent, hwritten]
  exact ⟨rfl, rfl, rfl, rfl⟩

/-- After the first UPDATE nobody is a candidate yet. -/
theorem afterUpdate_candidates (payload : RideTransitionRequest) (checked refreshed : Ride) :
    (afterUpdate payload checked refreshed).Candidates D := by
  unfold afterUpdate
  split
  · trivial
  · split <;> trivial

/-- The COMMIT of a request. -/
theorem RideParties.commit (h : RideParties P D s)
    (hreq : s.requests q = some (call, .holding ride pending todo)) :
    RideParties P D (s.commit q call ride pending) := by
  obtain ⟨⟨old, hold, hsame⟩, hdriver, hevents, _⟩ := h.held q call ride pending todo hreq
  have hkept : ∀ r row, s.rides r = some row → ∃ row', update s.rides ride.id (some ride) r =
      some row' ∧ row'.passengerId = row.passengerId := by
    intro r row hrow
    by_cases hr : r = ride.id
    · subst hr
      obtain rfl := Option.some.inj (hold.symm.trans hrow)
      exact ⟨ride, update_self _ _ _, hsame.symm⟩
    · exact ⟨row, (update_of_ne hr _ _).trans hrow, rfl⟩
  refine ⟨?_, ?_, ?_, ?_⟩
  · intro r row hrow
    rcases update_some_iff.mp hrow with ⟨rfl, rfl⟩ | ⟨_, hold'⟩
    · exact ⟨rfl, hsame ▸ (h.row _ old hold).2.1, hdriver⟩
    · exact h.row r row hold'
  · intro p call' other pending' todo' hp
    rcases update_some_iff.mp hp with ⟨_, hnew⟩ | ⟨_, hheld⟩
    · cases hnew
    · obtain ⟨⟨row, hrow, hpassenger⟩, hdriver', hevents', hcandidates⟩ :=
        h.held p call' other pending' todo' hheld
      obtain ⟨row', hrow', hpassenger'⟩ := hkept _ row hrow
      exact ⟨⟨row', hrow', hpassenger'.trans hpassenger⟩, hdriver', hevents', hcandidates⟩
  · intro d key hkey
    obtain ⟨hd, hsome⟩ := h.keys d key hkey
    obtain ⟨row, hrow⟩ := Option.isSome_iff_exists.mp hsome
    obtain ⟨row', hrow', _⟩ := hkept _ row hrow
    exact ⟨hd, Option.isSome_iff_exists.mpr ⟨row', hrow'⟩⟩
  · intro event hmem
    rcases List.mem_append.mp hmem with hmem | hmem
    · obtain ⟨row, hrow, hpassenger⟩ := h.events event hmem
      obtain ⟨row', hrow', hpassenger'⟩ := hkept _ row hrow
      exact ⟨row', hrow', hpassenger'.trans hpassenger⟩
    · obtain ⟨e, he, rfl⟩ := List.mem_map.mp hmem
      obtain ⟨hid, hpassenger⟩ := hevents e he
      exact ⟨ride, hid ▸ update_self _ _ _, hpassenger.symm⟩

/-- One step keeps passengers and drivers in the rides. -/
theorem step_rideParties (h : RideParties P D s) (hbegun : a.BegunBy b)
    (hsearch : ∀ q candidates, a = .search q candidates → ∀ d ∈ candidates, D d)
    (hstep : rideStep cfg s a = some t) : RideParties P D t := by
  cases a with
  | create _ _ _ _ _ => exact absurd hbegun id
  | begin q _ _ _ =>
      obtain ⟨_, rfl⟩ := step_begin hstep
      exact h.move rfl rfl rfl h.keys (by simp)
  | read q =>
      obtain ⟨_, _, ⟨_, rfl⟩ | ⟨_, _, _, rfl⟩⟩ := step_read hstep
      · exact h.move rfl rfl rfl h.keys (by simp)
      · exact h.move rfl rfl rfl h.keys (by simp)
  | update q =>
      obtain ⟨call, ride, _, ⟨_, _, rfl⟩ | ⟨done, hdone, _, rfl⟩⟩ := step_update hstep
      · exact h.move rfl rfl rfl h.keys (by simp)
      · obtain ⟨hrow, _, _, _, _, _, hextra, _⟩ := attemptTransition_ok hdone
        obtain ⟨hid, _, hdriver⟩ := h.row _ _ hrow
        obtain ⟨hsame, hpassenger, hevent, hpayload⟩ := written_same done
        refine h.move rfl rfl rfl h.keys ?_
        rintro _ _ _ ⟨⟩
        refine ⟨⟨done.replaced, ?_, hpassenger.symm⟩, ?_, ?_, afterUpdate_candidates _ _ _⟩
        · rw [hsame, hid]
          exact hrow
        · rw [done.spec.2.2.1, hextra]
          exact hdriver
        · intro e he
          obtain rfl := List.mem_singleton.mp he
          exact ⟨hevent.trans hsame.symm, hpayload.trans hpassenger.symm⟩
  | search q candidates =>
      obtain ⟨_, _, _, hreq, rfl⟩ := step_search hstep
      refine h.move rfl rfl rfl h.keys ?_
      rintro _ _ _ ⟨⟩
      exact (h.held _ _ _ _ _ hreq).next (hsearch q candidates rfl)
  | reserve q =>
      obtain ⟨_, ride, _, candidates, hreq, hcases⟩ := step_reserve hstep
      have hheld := h.held _ _ _ _ _ hreq
      have hall : ∀ d ∈ candidates, D d := hheld.candidates
      rcases hcases with ⟨_, rfl⟩ | ⟨d, rest, rfl, _, rfl⟩ | ⟨d, rest, rfl, _, rfl⟩
      · refine h.move rfl rfl rfl h.keys ?_
        rintro _ _ _ ⟨⟩
        exact hheld.next trivial
      · refine h.move rfl rfl rfl h.keys ?_
        rintro _ _ _ ⟨⟩
        exact hheld.next fun e he => hall e (List.mem_cons_of_mem d he)
      · have hd := hall d List.mem_cons_self
        refine h.move rfl rfl rfl (fun e key hkey => ?_) ?_
        · rcases update_some_iff.mp hkey with ⟨rfl, rfl⟩ | ⟨_, hold⟩
          · obtain ⟨row, hrow, _⟩ := hheld.row
            exact ⟨hd, Option.isSome_iff_exists.mpr ⟨row, hrow⟩⟩
          · exact h.keys e key hold
        · rintro _ _ _ ⟨⟩
          exact hheld.next hd
  | resolve q =>
      obtain ⟨_, ride, pending, driverId, hreq, ⟨_, _, rfl⟩ | ⟨done, hdone, rfl⟩⟩ :=
        step_resolve hstep
      · exact h.move rfl rfl rfl h.keys (by simp)
      · obtain ⟨hrow, _, _, _, _, _, hextra, _⟩ := attemptTransition_ok hdone
        obtain rfl : ride = done.replaced := Option.some.inj hrow
        obtain ⟨⟨row, hrow, hpassenger⟩, hdriver, hevents, hcandidates⟩ := h.held _ _ _ _ _ hreq
        obtain ⟨hsame, hpassenger', hevent, hpayload⟩ := written_same done
        refine h.move rfl rfl rfl h.keys ?_
        rintro _ _ _ ⟨⟩
        refine ⟨⟨row, hsame ▸ hrow, hpassenger.trans hpassenger'.symm⟩, ?_, ?_, trivial⟩
        · rw [done.spec.2.2.1, hextra]
          cases driverId with
          | none => exact hdriver
          | some d =>
              rintro _ ⟨⟩
              exact hcandidates
        · intro e he
          rw [hsame, hpassenger']
          rcases List.mem_append.mp he with hold | hnew
          · exact hevents e hold
          · obtain rfl := List.mem_singleton.mp hnew
            exact ⟨hevent, hpayload⟩
  | getKey q =>
      obtain ⟨_, _, _, _, hreq, _, ⟨_, rfl⟩ | ⟨_, rfl⟩⟩ := step_getKey hstep
      · refine h.move rfl rfl rfl h.keys ?_
        rintro _ _ _ ⟨⟩
        exact (h.held _ _ _ _ _ hreq).next trivial
      · refine h.move rfl rfl rfl h.keys ?_
        rintro _ _ _ ⟨⟩
        exact (h.held _ _ _ _ _ hreq).next trivial
  | deleteKey q =>
      obtain ⟨_, _, _, _, hreq, _, rfl⟩ := step_deleteKey hstep
      refine h.move rfl rfl rfl (fun e key hkey => h.keys e key (update_none_iff.mp hkey).2) ?_
      rintro _ _ _ ⟨⟩
      exact (h.held _ _ _ _ _ hreq).next trivial
  | commit q =>
      obtain ⟨_, _, _, hreq, rfl⟩ := step_commit hstep
      exact h.commit hreq
  | abort q =>
      obtain ⟨_, _, _, _, rfl⟩ := step_abort hstep
      exact h.move rfl rfl rfl h.keys (by simp)
  | expire d =>
      obtain ⟨_, _, _, rfl⟩ := step_expire hstep
      exact ⟨h.row, h.held, fun e key hkey => h.keys e key (update_none_iff.mp hkey).2, h.events⟩
  | advance _ =>
      obtain rfl := step_advance hstep
      exact ⟨h.row, h.held, h.keys, h.events⟩

/-- Transitions neither add nor remove rides, and leave their passengers. -/
theorem step_passengers (h : RideParties P D s) (hbegun : a.BegunBy b)
    (hstep : rideStep cfg s a = some t) (r : RideId) :
    (t.rides r).map Ride.passengerId = (s.rides r).map Ride.passengerId := by
  rcases step_effects hstep with ⟨_, hsame, _⟩ | ⟨_, hserved, _, _, _⟩ |
    ⟨q, call, ride, pending, _, hreq, rfl⟩
  · rw [hsame]
  · cases a with
    | create _ _ _ _ _ => exact absurd hbegun id
    | advance _ =>
        obtain rfl := step_advance hstep
        rfl
    | expire _ =>
        obtain ⟨_, _, _, rfl⟩ := step_expire hstep
        rfl
    | _ => cases hserved
  · obtain ⟨row, hrow, hsame⟩ := (h.held q call ride pending _ hreq).row
    by_cases hr : r = ride.id
    · subst hr
      simp [RideState.commit, hrow, hsame]
    · simp [RideState.commit, hr]

/-- A new ride of a passenger joins the others. -/
theorem RideParties.insert (h : RideParties P D s) (hfresh : s.rides ride.id = none)
    (hpassenger : P ride.passengerId) (hdriver : ride.driverId = none) :
    RideParties P D (s.insert (some ride)) := by
  have hkept : ∀ r row, s.rides r = some row → (s.insert (some ride)).rides r = some row := by
    intro r row hrow
    refine update_some_iff.mpr (Or.inr ⟨?_, hrow⟩)
    rintro rfl
    rw [hfresh] at hrow
    cases hrow
  refine ⟨?_, ?_, ?_, ?_⟩
  · intro r row hrow
    rcases update_some_iff.mp hrow with ⟨rfl, rfl⟩ | ⟨_, hold⟩
    · exact ⟨rfl, hpassenger, by simp [hdriver]⟩
    · exact h.row r row hold
  · intro q call held pending todo hreq
    obtain ⟨⟨row, hrow, hsame⟩, hdriver', hevents, hcandidates⟩ :=
      h.held q call held pending todo hreq
    exact ⟨⟨row, hkept _ row hrow, hsame⟩, hdriver', hevents, hcandidates⟩
  · intro d key hkey
    obtain ⟨hd, hsome⟩ := h.keys d key hkey
    obtain ⟨row, hrow⟩ := Option.isSome_iff_exists.mp hsome
    exact ⟨hd, Option.isSome_iff_exists.mpr ⟨row, hkept _ row hrow⟩⟩
  · intro e he
    obtain ⟨row, hrow, hsame⟩ := h.events e he
    exact ⟨row, hkept _ row hrow, hsame⟩

end Rides

section Server

variable {cfg : Settings} {fns : ServerFunctions} {s t : ServerState} {a : ServerAction}
  {users : List User}

/-- A user has the id. -/
def Known (users : List User) (id : UserId) : Prop := ∃ user ∈ users, user.id = id

/-- Who is known stays known when others register. -/
theorem Known.grows {id : UserId} (h : Known users id) (added : List User) :
    Known (users ++ added) id := by
  obtain ⟨user, hmem, hid⟩ := h
  exact ⟨user, List.mem_append_left added hmem, hid⟩

/-- Every part of the server refers to users who are registered, with their roles,
and the rides are those that were created. -/
structure ServerState.Refers (s : ServerState) : Prop where
  tokens : TokenOwners (Known s.accounts.auth.users) s.accounts.auth
  drivers : OnlyDrivers (Registered s.accounts.auth.users .driver) s.drivers
  rides : RideParties (Registered s.accounts.auth.users .passenger)
    (Registered s.accounts.auth.users .driver) s.rides
  creates : CreationsOf (Registered s.accounts.auth.users .passenger) s.creates
  published : ∀ ride ∈ s.creates.rides,
    (s.rides.rides ride.id).map Ride.passengerId = some ride.passengerId
  created : ∀ r, s.rides.rides r ≠ none → ∃ ride ∈ s.creates.rides, ride.id = r

/-- Nothing refers to anything at first. -/
theorem refers_init (users : List User) : (ServerState.init users).Refers where
  tokens := by
    constructor <;> intros <;> simp_all [ServerState.init, AccountState.init, AuthState.init]
  drivers := by
    constructor <;> intros <;> simp_all [ServerState.init, DriverState.init, DriverStore.init]
  rides := by constructor <;> intros <;> simp_all [ServerState.init, RideState.init]
  creates := by constructor <;> intros <;> simp_all [ServerState.init, CreateState.init]
  published := by simp [ServerState.init, CreateState.init]
  created := by simp [ServerState.init, RideState.init]

/-- New users join the others. -/
theorem ServerState.Refers.join (h : s.Refers) (auth : AuthState) {added : List User}
    (htokens : TokenOwners (Known s.accounts.auth.users) auth)
    (husers : auth.users = s.accounts.auth.users ++ added) {accounts : AccountState}
    (hauth : accounts.auth = auth) : ({ s with accounts := accounts } : ServerState).Refers := by
  have hknown : ∀ u, Known s.accounts.auth.users u → Known accounts.auth.users u := by
    intro u hu
    rw [hauth, husers]
    exact hu.grows added
  have hregistered : ∀ role u, Registered s.accounts.auth.users role u →
      Registered accounts.auth.users role u := by
    intro role u hu
    rw [hauth, husers]
    exact hu.grows added
  exact ⟨hauth ▸ htokens.mono (hauth ▸ hknown), h.drivers.mono (hregistered _),
    h.rides.mono (hregistered _) (hregistered _), h.creates.mono (hregistered _), h.published,
    h.created⟩

/-- `require_roles` returns the user it was given. -/
theorem requireRoles_ok {roles : List UserRole} {user user' : User}
    (h : requireRoles roles user = .ok user') : user' = user := by
  unfold requireRoles at h
  split at h
  case isTrue => exact (Except.ok.inj h).symm
  case isFalse => cases h

/-- The user of an admitted request is registered. -/
theorem authenticated_registered {request : ProtectedRequest} {token : String} {user : User}
    (h : s.authenticated fns request token = .ok user) : user ∈ s.accounts.auth.users := by
  unfold ServerState.authenticated at h
  split at h
  case h_1 => cases h
  case h_2 found hfound =>
      obtain ⟨_, _, _, _, _, hfind, _⟩ := getCurrentUser_ok.mp hfound
      have hsame : user = found := by
        cases request with
        | transitionRide _ _ _ => exact (Except.ok.inj h).symm
        | driver _ _ => exact requireRoles_ok h
        | createRide _ _ _ => exact requireRoles_ok h
      exact hsame ▸ List.mem_of_find?_eq_some hfind

/-- A step of the handlers of the drivers. -/
theorem ServerState.Refers.driver (h : s.Refers) {b : DriverAction} {drivers : DriverState}
    (hbegin : ∀ q user request, b = .begin q user request →
      Registered s.accounts.auth.users .driver user.id)
    (hstep : driverStep cfg s.drivers b = some drivers) :
    ({ s with drivers := drivers } : ServerState).Refers :=
  ⟨h.tokens, step_onlyDrivers h.drivers hbegin hstep, h.rides, h.creates, h.published, h.created⟩

/-- A step of a transition. -/
theorem ServerState.Refers.ride (h : s.Refers) {b : RideAction} {rides : RideState}
    (hbegun : b.BegunBy a) (hfinds : s.finds cfg fns b = true)
    (hstep : rideStep cfg s.rides b = some rides) :
    ({ s with rides := rides } : ServerState).Refers := by
  have hsearch : ∀ q candidates, b = .search q candidates →
      ∀ d ∈ candidates, Registered s.accounts.auth.users .driver d := by
    rintro q candidates rfl d hd
    dsimp only [ServerState.finds] at hfinds
    split at hfinds
    case h_1 =>
        obtain ⟨m, hm, rfl⟩ := found_in_pool (of_decide_eq_true hfinds) hd
        exact h.drivers.pool m hm
    case h_2 => cases hfinds
  have hsame := step_passengers h.rides hbegun hstep
  refine ⟨h.tokens, h.drivers, step_rideParties h.rides hbegun hsearch hstep, h.creates, ?_, ?_⟩
  · exact fun ride hmem => (hsame ride.id).trans (h.published ride hmem)
  · intro r hr
    refine h.created r fun hnone => hr ?_
    have hmap := hsame r
    rw [hnone] at hmap
    exact Option.map_eq_none_iff.mp hmap

/-- A step of a creation, with the ride that it makes visible. -/
theorem ServerState.Refers.create (h : s.Refers) {b : CreateAction} {creates : CreateState}
    (hbegin : ∀ q user payload key, b = .begin q user payload key →
      Registered s.accounts.auth.users .passenger user.id)
    (hstep : createStep fns.body s.creates b = some creates) :
    ({ s with creates := creates, rides := s.rides.insert (s.creates.published b) } :
      ServerState).Refers := by
  have hcreates := step_creationsOf h.creates hbegin hstep
  have hgrown := step_published hstep
  cases hpublished : s.creates.published b with
  | none =>
      rw [hpublished, Option.toList_none, List.append_nil] at hgrown
      exact ⟨h.tokens, h.drivers, h.rides, hcreates, hgrown ▸ h.published, hgrown ▸ h.created⟩
  | some ride =>
      rw [hpublished, Option.toList_some] at hgrown
      obtain ⟨q, call, hreq⟩ := published_storing hpublished
      obtain ⟨_, hpassenger, hdriver, hapart⟩ := h.creates.storing q call ride hreq
      have hfresh : s.rides.rides ride.id = none := by
        by_contra hrow
        obtain ⟨old, hmem, hid⟩ := h.created ride.id hrow
        exact hapart old hmem hid
      refine ⟨h.tokens, h.drivers, h.rides.insert hfresh hpassenger hdriver, hcreates, ?_, ?_⟩
      · intro other hmem
        rw [hgrown] at hmem
        rcases List.mem_append.mp hmem with hold | hnew
        · have hne : other.id ≠ ride.id := hapart other hold
          simpa [RideState.insert, hne] using h.published other hold
        · obtain rfl := List.mem_singleton.mp hnew
          simp [RideState.insert]
      · intro r hr
        rw [hgrown]
        by_cases hid : r = ride.id
        · exact ⟨ride, List.mem_append_right _ (List.mem_singleton_self ride), hid.symm⟩
        · obtain ⟨old, hmem, hold⟩ := h.created r (by simpa [RideState.insert, hid] using hr)
          exact ⟨old, List.mem_append_left _ hmem, hold⟩

/-- One step of the server keeps the references. -/
theorem server_refers (h : s.Refers) (hstep : serverStep cfg fns s a = some t) : t.Refers := by
  have hmove := (server_cases hstep).2
  cases a with
  | arrive request token =>
      rcases server_arrive hmove with ⟨_, _, _, rfl⟩ | ⟨user, huser, hbegin⟩
      · exact ⟨h.tokens, h.drivers, h.rides, h.creates, h.published, h.created⟩
      · have hmem := authenticated_registered huser
        rcases enterHandler_cases hbegin with ⟨q, body, drivers, rfl, hdrivers, rfl⟩ |
          ⟨q, rideId, payload, rides, rfl, hrides, rfl⟩ |
          ⟨q, payload, key, creates, rfl, hcreates, rfl⟩
        · refine h.driver ?_ hdrivers
          rintro _ _ _ ⟨⟩
          exact ⟨user, hmem, rfl, (driver_begin hdrivers).2.1⟩
        · have hbegun : RideAction.BegunBy
              (.arrive (.transitionRide q rideId payload) token) (.begin q user rideId payload) :=
            ⟨token, rfl⟩
          have hfinds : s.finds cfg fns (.begin q user rideId payload) = true := rfl
          exact h.ride hbegun hfinds hrides
        · refine h.create (b := .begin q user payload key) ?_ hcreates
          rintro _ _ _ _ ⟨⟩
          exact ⟨user, hmem, rfl, (create_begin hcreates).2.2.1⟩
  | register b =>
      obtain ⟨accounts, haccounts, rfl⟩ := server_register hmove
      obtain ⟨added, hauth⟩ := register_frame haccounts
      refine h.join accounts.auth ?_ (by rw [hauth]) rfl
      rw [hauth]
      exact ⟨h.tokens.row, h.tokens.stage⟩
  | auth b =>
      obtain ⟨_, auth, hauth, rfl⟩ := server_auth hmove
      have husers : auth.users = s.accounts.auth.users := auth_users hauth
      have htokens := step_tokenOwners h.tokens (fun user hmem => ⟨user, hmem, rfl⟩) hauth
      exact h.join auth htokens (by rw [husers, List.append_nil]) rfl
  | driver b =>
      obtain ⟨hwithin, drivers, hdrivers, rfl⟩ := server_driver hmove
      refine h.driver ?_ hdrivers
      rintro _ _ _ rfl
      cases hwithin
  | ride b =>
      obtain ⟨hwithin, hfinds, rides, hrides, rfl⟩ := server_ride hmove
      exact h.ride (RideAction.within_begunBy (a := .ride b) hwithin) hfinds hrides
  | create b =>
      obtain ⟨hwithin, creates, hcreates, rfl⟩ := server_create hmove
      refine h.create ?_ hcreates
      rintro _ _ _ _ rfl
      cases hwithin
  | advance seconds =>
      cases hmove
      exact ⟨⟨h.tokens.row, h.tokens.stage⟩,
        ⟨h.drivers.callers, h.drivers.profiles, h.drivers.pool⟩,
        ⟨h.rides.row, h.rides.held, h.rides.keys, h.rides.events⟩,
        ⟨h.creates.callers, h.creates.drawn, h.creates.storing, h.creates.apart, h.creates.cached⟩,
        h.published, h.created⟩

/-- Every reference in the tables, the pool and the keys resolves. -/
structure StoredData.Resolves (data : StoredData) : Prop where
  tokens : ∀ token row, data.tokens token = some row → Known data.users row.userId
  profiles : ∀ d profile, data.profiles d = some profile → Registered data.users .driver d
  rides : ∀ r ride, data.rides r = some ride → ride.id = r ∧
    Registered data.users .passenger ride.passengerId ∧
    ∀ d, ride.driverId = some d → Registered data.users .driver d
  outbox : ∀ e ∈ data.outbox, ∃ ride, data.rides e.aggregateId = some ride ∧
    ride.passengerId = e.payload.passengerId
  idempotencyRecords : ∀ record ∈ data.idempotencyRecords, ∃ ride,
    data.rides record.responseBody.id = some ride ∧
    ride.passengerId = record.responseBody.passengerId
  geoPool : ∀ m ∈ data.geoPool, Registered data.users .driver m.driverId
  reservations : ∀ d key, data.reservations d = some key → Registered data.users .driver d ∧
    ∃ ride, data.rides key.rideId = some ride

/-- References that are kept resolve. -/
theorem ServerState.Refers.resolves (h : s.Refers) : s.data.Resolves where
  tokens := h.tokens.row
  profiles := h.drivers.profiles
  rides := h.rides.row
  outbox := h.rides.events
  idempotencyRecords record hmem := by
    obtain ⟨first, hfirst, hid, hpassenger⟩ := h.creates.cached record hmem
    obtain ⟨ride, hride, hsame⟩ := Option.map_eq_some_iff.mp (h.published first hfirst)
    exact ⟨ride, hid ▸ hride, hsame.trans hpassenger⟩
  geoPool := h.drivers.pool
  reservations d key hkey :=
    ⟨(h.rides.keys d key hkey).1, Option.isSome_iff_exists.mp (h.rides.keys d key hkey).2⟩

/-- The references are kept by every run. -/
theorem run_refers {acts : List ServerAction}
    (h : Steps (serverSystem cfg fns) free (.init users) acts s) : s.Refers :=
  h.invariant ServerState.Refers (refers_init users) fun _ _ _ hs _ hstep => server_refers hs hstep

/-- **Every reference resolves.**  In every reachable state each id that is stored
names a user who is registered with the role that belongs there, or a ride that
exists. -/
theorem references_resolve {acts : List ServerAction}
    (h : Steps (serverSystem cfg fns) free (.init users) acts s) : s.data.Resolves :=
  (run_refers h).resolves

end Server

/-- The ride that the passenger was given a driver for, and the driver's key. -/
theorem accepted_ride_resolves : ∃ s,
    Steps (serverSystem {} sampleTown) free (.init townUsers)
      (rideRequested ++ servedWhileWaiting) s ∧
    (s.data.rides 0).bind Ride.driverId = some 1 ∧ (s.data.reservations 1).isSome = true ∧
    s.data.Resolves := by
  have hreplay : (exec (serverSystem {} sampleTown) (.init townUsers)
      (rideRequested ++ servedWhileWaiting)).any (fun s =>
        (s.data.rides 0).bind Ride.driverId = some 1 ∧ (s.data.reservations 1).isSome) = true := by
    decide +kernel
  obtain ⟨s, hrun, hs⟩ := Steps.of_exec_any hreplay
  obtain ⟨hdriver, hkey⟩ := of_decide_eq_true hs
  exact ⟨s, hrun, hdriver, hkey, references_resolve hrun⟩

end RideFlow
