import Mathlib.Data.Set.Finite.Basic
import RideFlow.Rejections
import RideFlow.RequestProgress
import RideFlow.RoundTrip
import RideFlow.TransitionProgress

/-!
# The server never comes to a standstill

Every request, and every cleanup of the idempotency records, takes a bounded number
of steps, whatever the others do between them (`server_turn`); and while one of
them has not ended, one of them has a step to take.  Who waits, waits for a key that
some other one holds -- the lock of a ride or of a refresh token, an email or a
driver's row that is about to be INSERTed, a record that is about to be deleted --
and who holds such a key does not wait.

What a request may still do is one of `ServerState.Proceeds`.  Nobody has to fail:
the one failure among them is that of a search at coordinates that GEOSEARCH
refuses.
-/

namespace RideFlow

open Function Workers Runs

/-- The handler of a request, or a cleanup. -/
inductive Worker
  | request (name : RequestName)
  | cleanup (c : CleanupId)
  deriving DecidableEq

/-- How many steps it may take. -/
def Worker.limit : Worker → Nat
  | .request (.register _) => 4
  | .request (.auth _) => 5
  | .request (.driver _) => 6
  | .request (.ride _) => 17
  | .request (.create _) => 4
  | .cleanup _ => 3

/-- Who takes the step. -/
def ServerAction.worker : ServerAction → Option Worker
  | .create a => (a.cleanup.map .cleanup).or (a.request.map fun q => .request (.create q))
  | a => a.serves.map .request

namespace ServerState

variable (s : ServerState)

/-- The steps that the handler of a request has still to take. -/
def handlerLeft : RequestName → Nat
  | .register q => s.accounts.left q
  | .auth q => s.accounts.auth.left q
  | .driver q => s.drivers.left q
  | .ride q => s.rides.left q
  | .create q => s.creates.left q

/-- The steps that a worker has left at most. -/
def left : Worker → Nat
  | .request name => if (s.refused name).isSome then 0 else s.handlerLeft name
  | .cleanup c => s.creates.cleanupLeft c

end ServerState

section Bound

variable {cfg : Settings} {fns : ServerFunctions} {s t : ServerState} {a : ServerAction}

/-- A step of a handler or of a cleanup. -/
theorem turn_of {name : Option RequestName} {c : Option CleanupId} {who : Option Worker}
    (hwho : ∀ w, who = some w →
      (∃ n, name = some n ∧ w = .request n) ∨ ∃ d, c = some d ∧ w = .cleanup d)
    (hopen : ∀ n, name = some n → s.refused n = none) (hrefused : t.refused = s.refused)
    (hhandlers : Turn s.handlerLeft t.handlerLeft name)
    (hcleanups : Turn s.creates.cleanupLeft t.creates.cleanupLeft c) :
    Turn s.left t.left who := by
  constructor
  · intro w hw
    rcases hwho w hw with ⟨n, hn, rfl⟩ | ⟨d, hd, rfl⟩
    · simpa [ServerState.left, hrefused, hopen n hn] using hhandlers.1 n hn
    · exact hcleanups.1 d hd
  · rintro (n | d)
    · simp only [ServerState.left, hrefused]
      split
      · exact Nat.le_refl _
      · exact hhandlers.2 n
    · exact hcleanups.2 d

/-- A step of the handler `who`, if anyone's: it has less to do, and nobody else enters. -/
structure HandlerTurn (s t : ServerState) (who : Option RequestName) : Prop where
  turn : Turn s.handlerLeft t.handlerLeft who
  others : ∀ n, who ≠ some n → t.entered n = s.entered n

/-- The handlers of one kind take a step. -/
theorem HandlerTurn.of {Q B : Type} {whole : Nat} {cost : B → Nat} {table new : Q → Option B}
    {who : Option Q} (name : Q → RequestName) (h : MovesOn whole cost table new who)
    (hs : ∀ q, s.handlerLeft (name q) = leftIn whole cost table q ∧
      s.entered (name q) = (table q).isSome)
    (ht : ∀ q, t.handlerLeft (name q) = leftIn whole cost new q ∧
      t.entered (name q) = (new q).isSome)
    (hothers : ∀ n, (∀ q, n ≠ name q) →
      t.handlerLeft n = s.handlerLeft n ∧ t.entered n = s.entered n) :
    HandlerTurn s t (who.map name) := by
  refine ⟨⟨?_, fun n => ?_⟩, fun n hn => ?_⟩
  · intro n hn
    obtain ⟨q, hq, rfl⟩ := Option.map_eq_some_iff.mp hn
    rw [(hs q).1, (ht q).1]
    exact h.falls q hq
  · by_cases hkind : ∃ q, n = name q
    · obtain ⟨q, rfl⟩ := hkind
      rw [(hs q).1, (ht q).1]
      exact h.turn.2 q
    · push Not at hkind
      exact Nat.le_of_eq (hothers n hkind).1
  · by_cases hkind : ∃ q, n = name q
    · obtain ⟨q, rfl⟩ := hkind
      rw [(hs q).2, (ht q).2, h.same q fun hq => hn (hq ▸ rfl)]
    · push Not at hkind
      exact (hothers n hkind).2

/-- A step of a registration is its turn, and nobody else's. -/
theorem turn_register {accounts : AccountState} {b : RegisterAction}
    (hstep : registerStep fns.toAccountFunctions s.accounts b = some accounts) :
    HandlerTurn s { s with accounts := accounts } (some (.register b.request)) := by
  obtain ⟨added, hauth⟩ := register_frame hstep
  refine HandlerTurn.of .register (register_movesOn hstep) (fun _ => ⟨rfl, rfl⟩)
    (fun _ => ⟨rfl, rfl⟩) ?_
  rintro (q | q | q | q | q) hn
  · exact absurd rfl (hn q)
  · have hrequests : accounts.auth.requests = s.accounts.auth.requests := by rw [hauth]
    constructor
    · show accounts.auth.left q = s.accounts.auth.left q
      rw [AuthState.left, AuthState.left, hrequests]
    · show (accounts.auth.requests q).isSome = (s.accounts.auth.requests q).isSome
      rw [hrequests]
  · exact ⟨rfl, rfl⟩
  · exact ⟨rfl, rfl⟩
  · exact ⟨rfl, rfl⟩

/-- So is a step of a login, a refresh or a logout. -/
theorem turn_auth {auth : AuthState} {b : AuthAction}
    (hstep : authStep cfg fns.toSecurityFunctions s.accounts.auth b = some auth) :
    HandlerTurn s { s with accounts := { s.accounts with auth := auth } }
      (b.request.map .auth) := by
  refine HandlerTurn.of .auth (auth_movesOn hstep) (fun _ => ⟨rfl, rfl⟩) (fun _ => ⟨rfl, rfl⟩) ?_
  rintro (q | q | q | q | q) hn
  · exact ⟨rfl, rfl⟩
  · exact absurd rfl (hn q)
  · exact ⟨rfl, rfl⟩
  · exact ⟨rfl, rfl⟩
  · exact ⟨rfl, rfl⟩

/-- So is a step of a driver's request. -/
theorem turn_driver {drivers : DriverState} {b : DriverAction}
    (hstep : driverStep cfg s.drivers b = some drivers) :
    HandlerTurn s { s with drivers := drivers } (b.request.map .driver) := by
  refine HandlerTurn.of .driver (driver_movesOn hstep) (fun _ => ⟨rfl, rfl⟩)
    (fun _ => ⟨rfl, rfl⟩) ?_
  rintro (q | q | q | q | q) hn
  · exact ⟨rfl, rfl⟩
  · exact ⟨rfl, rfl⟩
  · exact absurd rfl (hn q)
  · exact ⟨rfl, rfl⟩
  · exact ⟨rfl, rfl⟩

/-- A search finds ten drivers at most. -/
theorem findNearbyDrivers_length {dist : GeoDistance} {pool : GeoPool} {lat lng : Degrees}
    {candidates : List UserId} (h : findNearbyDrivers cfg dist pool lat lng = some candidates) :
    candidates.length ≤ 10 := by
  unfold findNearbyDrivers geosearch at h
  split at h
  case isTrue =>
      obtain rfl := Option.some.inj h
      rw [List.length_map]
      exact List.length_take_le _ _
  case isFalse => cases h

/-- A search returns at most ten candidates. -/
theorem finds_short {b : RideAction} (hfinds : s.finds cfg fns b = true) :
    ∀ q candidates, b = .search q candidates → candidates.length ≤ 10 := by
  rintro q candidates rfl
  dsimp only [ServerState.finds] at hfinds
  split at hfinds
  case h_1 => exact findNearbyDrivers_length (of_decide_eq_true hfinds)
  case h_2 => cases hfinds

/-- A step of a transition is its turn, and nobody else's. -/
theorem turn_ride {rides : RideState} {b : RideAction} (hfinds : s.finds cfg fns b = true)
    (hstep : rideStep cfg s.rides b = some rides) :
    HandlerTurn s { s with rides := rides } (b.request.map .ride) := by
  refine HandlerTurn.of .ride (ride_movesOn hstep (finds_short hfinds)) (fun _ => ⟨rfl, rfl⟩)
    (fun _ => ⟨rfl, rfl⟩) ?_
  rintro (q | q | q | q | q) hn
  · exact ⟨rfl, rfl⟩
  · exact ⟨rfl, rfl⟩
  · exact ⟨rfl, rfl⟩
  · exact absurd rfl (hn q)
  · exact ⟨rfl, rfl⟩

/-- So is a step of a creation. -/
theorem turn_create {creates : CreateState} {b : CreateAction} (published : Option Ride)
    (hstep : createStep fns.body s.creates b = some creates) :
    HandlerTurn s { s with creates := creates, rides := s.rides.insert published }
      (b.request.map .create) := by
  refine HandlerTurn.of .create (create_movesOn hstep) (fun _ => ⟨rfl, rfl⟩)
    (fun _ => ⟨rfl, rfl⟩) ?_
  rintro (q | q | q | q | q) hn
  · exact ⟨rfl, rfl⟩
  · exact ⟨rfl, rfl⟩
  · exact ⟨rfl, rfl⟩
  · cases published <;> exact ⟨rfl, rfl⟩
  · exact absurd rfl (hn q)

/-- One who is refused had everything to do. -/
theorem handlerLeft_of_not_entered {name : RequestName} (h : s.entered name = false) :
    s.handlerLeft name = (Worker.request name).limit := by
  cases name with
  | register q =>
      have hnone : s.accounts.registers q = none := by simpa [ServerState.entered] using h
      simp [ServerState.handlerLeft, AccountState.left, leftIn, hnone, Worker.limit]
  | auth q =>
      have hnone : s.accounts.auth.requests q = none := by simpa [ServerState.entered] using h
      simp [ServerState.handlerLeft, AuthState.left, leftIn, hnone, Worker.limit]
  | driver q =>
      have hnone : s.drivers.requests q = none := by simpa [ServerState.entered] using h
      simp [ServerState.handlerLeft, DriverState.left, leftIn, hnone, Worker.limit]
  | ride q =>
      have hnone : s.rides.requests q = none := by simpa [ServerState.entered] using h
      simp [ServerState.handlerLeft, RideState.left, leftIn, hnone, Worker.limit]
  | create q =>
      have hnone : s.creates.requests q = none := by simpa [ServerState.entered] using h
      simp [ServerState.handlerLeft, CreateState.left, leftIn, hnone, Worker.limit]

/-- Every worker is allowed a step. -/
theorem Worker.limit_pos (w : Worker) : 0 < w.limit := by
  rcases w with (_ | _ | _ | _ | _) | _ <;> exact Nat.succ_pos _

/-- A refusal is the turn of the request that is refused. -/
theorem turn_refuse {name : RequestName} {error : Rejection} (hopen : s.refused name = none)
    (hentered : s.entered name = false) :
    Turn s.left (s.refuse name error).left (some (.request name)) := by
  have hleft : s.left (.request name) = (Worker.request name).limit := by
    simp [ServerState.left, hopen, handlerLeft_of_not_entered hentered]
  have hnow : (s.refuse name error).left (.request name) = 0 := by
    simp [ServerState.left, ServerState.refuse]
  constructor
  · rintro w ⟨⟩
    rw [hleft, hnow]
    exact Worker.limit_pos _
  · rintro (n | c)
    · by_cases hn : n = name
      · subst hn
        rw [hnow]
        exact Nat.zero_le _
      · have hsame : (s.refuse name error).refused n = s.refused n := update_of_ne hn _ _
        simp only [ServerState.left, hsame]
        exact Nat.le_refl _
    · exact Nat.le_refl _

/-- What a step is to the handlers: somebody is refused, or a handler takes a step, and
perhaps a cleanup. -/
theorem server_handlers (hstep : serverStep cfg fns s a = some t) :
    (∃ name error, a.worker = some (.request name) ∧ s.refused name = none ∧
      s.entered name = false ∧ t = s.refuse name error) ∨
    ∃ c, t.refused = s.refused ∧ HandlerTurn s t a.serves ∧
      Turn s.creates.cleanupLeft t.creates.cleanupLeft c ∧
      ∀ w, a.worker = some w →
        (∃ n, a.serves = some n ∧ w = .request n) ∨ ∃ d, c = some d ∧ w = .cleanup d := by
  obtain ⟨hopen, hmove⟩ := server_cases hstep
  have hhandler : ∀ w, a.serves.map Worker.request = some w →
      (∃ n, a.serves = some n ∧ w = .request n) ∨ ∃ d, (none : Option CleanupId) = some d ∧
        w = .cleanup d := by
    intro w hw
    obtain ⟨n, hn, rfl⟩ := Option.map_eq_some_iff.mp hw
    exact Or.inl ⟨n, hn, rfl⟩
  cases a with
  | arrive request token =>
      rcases server_arrive hmove with ⟨error, _, hentered, rfl⟩ | ⟨user, _, hbegin⟩
      · exact Or.inl ⟨_, error, rfl, hopen _ rfl, hentered, rfl⟩
      · rcases enterHandler_cases hbegin with ⟨q, body, drivers, rfl, hdrivers, rfl⟩ |
          ⟨q, rideId, payload, rides, rfl, hrides, rfl⟩ |
          ⟨q, payload, key, creates, rfl, hcreates, rfl⟩
        · exact Or.inr ⟨none, rfl, turn_driver hdrivers, Turn.idle _, hhandler⟩
        · have hfinds : s.finds cfg fns (.begin q user rideId payload) = true := rfl
          exact Or.inr ⟨none, rfl, turn_ride hfinds hrides, Turn.idle _, hhandler⟩
        · refine Or.inr ⟨none, rfl, turn_create none hcreates, ?_, hhandler⟩
          obtain ⟨_, _, _, rfl⟩ := create_begin hcreates
          exact Turn.idle _
  | register b =>
      obtain ⟨accounts, haccounts, rfl⟩ := server_register hmove
      exact Or.inr ⟨none, rfl, turn_register haccounts, Turn.idle _, hhandler⟩
  | auth b =>
      obtain ⟨_, auth, hauth, rfl⟩ := server_auth hmove
      exact Or.inr ⟨none, rfl, turn_auth hauth, Turn.idle _, hhandler⟩
  | driver b =>
      obtain ⟨_, drivers, hdrivers, rfl⟩ := server_driver hmove
      exact Or.inr ⟨none, rfl, turn_driver hdrivers, Turn.idle _, hhandler⟩
  | ride b =>
      obtain ⟨_, hfinds, rides, hrides, rfl⟩ := server_ride hmove
      exact Or.inr ⟨none, rfl, turn_ride hfinds hrides, Turn.idle _, hhandler⟩
  | create b =>
      obtain ⟨_, creates, hcreates, rfl⟩ := server_create hmove
      refine Or.inr ⟨b.cleanup, rfl, turn_create _ hcreates, (cleanup_movesOn hcreates).turn, ?_⟩
      intro w hw
      rcases Option.or_eq_some_iff.mp hw with hcleanup | ⟨_, hrequest⟩
      · obtain ⟨c, hc, rfl⟩ := Option.map_eq_some_iff.mp hcleanup
        exact Or.inr ⟨c, hc, rfl⟩
      · obtain ⟨q, hq, rfl⟩ := Option.map_eq_some_iff.mp hrequest
        exact Or.inl ⟨.create q, Option.map_eq_some_iff.mpr ⟨q, hq, rfl⟩, rfl⟩
  | advance _ =>
      cases hmove
      exact Or.inr ⟨none, rfl, ⟨Turn.idle _, fun _ _ => rfl⟩, Turn.idle _, hhandler⟩

/-- **The one who takes a step has less to do, and nobody has more.** -/
theorem server_turn (hstep : serverStep cfg fns s a = some t) : Turn s.left t.left a.worker := by
  obtain ⟨hopen, _⟩ := server_cases hstep
  rcases server_handlers hstep with ⟨name, error, hwho, hnone, hentered, rfl⟩ |
    ⟨c, hrefused, hhandlers, hcleanups, hwho⟩
  · rw [hwho]
    exact turn_refuse hnone hentered
  · exact turn_of hwho hopen hrefused hhandlers.turn hcleanups

/-- Who has entered was not refused. -/
theorem server_admitted (h : ∀ name, s.entered name = true → s.refused name = none)
    (hstep : serverStep cfg fns s a = some t) :
    ∀ name, t.entered name = true → t.refused name = none := by
  obtain ⟨hopen, hmove⟩ := server_cases hstep
  intro name hname
  rcases server_handlers hstep with ⟨other, error, _, _, hentered, rfl⟩ |
    ⟨_, hrefused, hhandlers, _, _⟩
  · have hne : name ≠ other := by
      rintro rfl
      exact absurd (hentered.symm.trans hname) (by simp)
    have hsame : (s.refuse other error).refused name = s.refused name := update_of_ne hne _ _
    exact hsame.trans (h name hname)
  · rw [hrefused]
    by_cases hserves : a.serves = some name
    · exact hopen name hserves
    · exact h name (hhandlers.others name hserves ▸ hname)

/-- **Nobody takes more steps than its limit.** -/
theorem worker_bounded {users : List User} {acts : List ServerAction}
    (h : Steps (serverSystem cfg fns) free (.init users) acts s) (w : Worker) :
    turns ServerAction.worker w acts ≤ w.limit := by
  have hturns : turns ServerAction.worker w acts + s.left w ≤ (ServerState.init users).left w :=
    turns_le ServerAction.worker h (fun _ _ _ _ hstep => server_turn hstep) w
  have hwhole : (ServerState.init users).left w = w.limit := by
    rcases w with (_ | _ | _ | _ | _) | _ <;> rfl
  omega

end Bound

/-! ### Somebody can go on -/

/-- What a handler or a cleanup that has begun may do next.  It fails only where Redis
refuses the coordinates of its search. -/
def ServerState.Proceeds (cfg : Settings) (fns : ServerFunctions) (s : ServerState) :
    ServerAction → Prop
  | .register b => b.plain = true
  | .auth b => b.plain = true
  | .driver b => b.plain = true
  | .ride (.search _ _) => True
  | .ride (.abort q) => ∃ call ride pending,
      s.rides.requests q = some (call, .holding ride pending .search) ∧
      findNearbyDrivers cfg fns.dist s.drivers.store.pool ride.pickupLat ride.pickupLng = none
  | .ride b => b.plain = true
  | .create (.deleteRecords _) => True
  | .create (.commitCleanup _) => True
  | .create b => b.plain = true
  | _ => False

/-- Everything that has begun has ended, and nothing is held. -/
structure ServerState.AtRest (s : ServerState) : Prop where
  registers : ∀ q request stage, s.accounts.registers q = some (request, stage) →
    ∃ outcome, stage = .answered outcome
  auth : ∀ q request stage, s.accounts.auth.requests q = some (request, stage) →
    ∃ outcome, stage = .answered outcome
  drivers : ∀ q call stage, s.drivers.requests q = some (call, stage) →
    ∃ outcome, stage = .answered outcome
  rides : ∀ q call stage, s.rides.requests q = some (call, stage) →
    ∃ outcome, stage = .answered outcome
  creates : ∀ q call stage, s.creates.requests q = some (call, stage) →
    ∃ outcome, stage = .answered outcome
  cleanups : ∀ c stage, s.creates.cleanups c = some stage → stage = .finished
  emails : ∀ email, s.accounts.taken email = none
  tokenLocks : ∀ token, s.accounts.auth.locks token = none
  profiles : ∀ d, s.drivers.inserting d = none
  rideLocks : ∀ r, s.rides.locks r = none
  records : ∀ record ∈ s.creates.records, record.deletedBy = none

/-- Who holds a key is at work, and who has entered was not refused. -/
structure ServerState.Keyed (s : ServerState) : Prop where
  emails : EmailsHeld s.accounts
  tokenLocks : TokenLocksHeld s.accounts.auth
  profiles : ProfilesHeld s.drivers
  fit : BranchesFit s.rides
  rideLocks : LocksHeld s.rides
  records : RecordsHeld s.creates
  admitted : ∀ name, s.entered name = true → s.refused name = none

section Standstill

variable {cfg : Settings} {fns : ServerFunctions} {s t : ServerState} {a : ServerAction}

/-- Nothing is held at first. -/
theorem keyed_init (users : List User) : (ServerState.init users).Keyed where
  emails _ _ h := nomatch h
  tokenLocks _ _ h := nomatch h
  profiles _ _ h := nomatch h
  fit _ _ _ _ _ h := nomatch h
  rideLocks _ _ h := nomatch h
  records _ h := by
    obtain ⟨_, hmem, _⟩ := h
    cases hmem
  admitted _ _ := rfl

/-- A new ride does not change who holds a row. -/
theorem locksHeld_insert {rides : RideState} (h : LocksHeld rides) (ride : Option Ride) :
    LocksHeld (rides.insert ride) := by
  cases ride <;> exact h

/-- One step keeps everything that is held with a holder. -/
theorem server_keyed (h : s.Keyed) (hstep : serverStep cfg fns s a = some t) : t.Keyed := by
  have hfit := server_branchesFit h.fit hstep
  have hadmitted := server_admitted h.admitted hstep
  have hmove := (server_cases hstep).2
  cases a with
  | arrive request token =>
      rcases server_arrive hmove with ⟨error, _, _, rfl⟩ | ⟨user, _, hbegin⟩
      · exact ⟨h.emails, h.tokenLocks, h.profiles, hfit, h.rideLocks, h.records, hadmitted⟩
      · rcases enterHandler_cases hbegin with ⟨q, body, drivers, rfl, hdrivers, rfl⟩ |
          ⟨q, rideId, payload, rides, rfl, hrides, rfl⟩ |
          ⟨q, payload, key, creates, rfl, hcreates, rfl⟩
        · exact ⟨h.emails, h.tokenLocks, step_profilesHeld h.profiles hdrivers, hfit, h.rideLocks,
            h.records, hadmitted⟩
        · exact ⟨h.emails, h.tokenLocks, h.profiles, hfit, step_locksHeld h.rideLocks hrides,
            h.records, hadmitted⟩
        · exact ⟨h.emails, h.tokenLocks, h.profiles, hfit, h.rideLocks,
            step_recordsHeld h.records hcreates, hadmitted⟩
  | register b =>
      obtain ⟨accounts, haccounts, rfl⟩ := server_register hmove
      obtain ⟨added, hauth⟩ := register_frame haccounts
      have htokens : TokenLocksHeld accounts.auth := by
        rw [hauth]
        exact h.tokenLocks
      exact ⟨step_emailsHeld h.emails haccounts, htokens, h.profiles, hfit, h.rideLocks,
        h.records, hadmitted⟩
  | auth b =>
      obtain ⟨_, auth, hauth, rfl⟩ := server_auth hmove
      exact ⟨h.emails, step_tokenLocksHeld h.tokenLocks hauth, h.profiles, hfit, h.rideLocks,
        h.records, hadmitted⟩
  | driver b =>
      obtain ⟨_, drivers, hdrivers, rfl⟩ := server_driver hmove
      exact ⟨h.emails, h.tokenLocks, step_profilesHeld h.profiles hdrivers, hfit, h.rideLocks,
        h.records, hadmitted⟩
  | ride b =>
      obtain ⟨_, _, rides, hrides, rfl⟩ := server_ride hmove
      exact ⟨h.emails, h.tokenLocks, h.profiles, hfit, step_locksHeld h.rideLocks hrides,
        h.records, hadmitted⟩
  | create b =>
      obtain ⟨_, creates, hcreates, rfl⟩ := server_create hmove
      exact ⟨h.emails, h.tokenLocks, h.profiles, hfit, locksHeld_insert h.rideLocks _,
        step_recordsHeld h.records hcreates, hadmitted⟩
  | advance _ =>
      cases hmove
      exact ⟨h.emails, h.tokenLocks, h.profiles, hfit, h.rideLocks, h.records, hadmitted⟩

/-- Somebody has a step to take. -/
def ServerState.Awake (cfg : Settings) (fns : ServerFunctions) (s : ServerState) : Prop :=
  ∃ a t, s.Proceeds cfg fns a ∧ serverStep cfg fns s a = some t

/-- A step that the server can take, it takes for one who was not refused. -/
theorem ServerState.Keyed.takes (h : s.Keyed)
    (hentered : ∀ name, a.serves = some name → s.entered name = true)
    (hmove : (serverMove cfg fns s a).isSome = true) : ∃ t, serverStep cfg fns s a = some t := by
  obtain ⟨t, ht⟩ := Option.isSome_iff_exists.mp hmove
  refine ⟨t, ?_⟩
  have hopen : (a.serves.any fun name => (s.refused name).isSome) = false := by
    cases hserves : a.serves with
    | none => rfl
    | some name => simp [h.admitted name (hentered name hserves)]
  rw [serverStep, hopen]
  exact ht

/-- A step of a handler that the server can take keeps it awake. -/
theorem ServerState.Keyed.awake (h : s.Keyed) (hproceeds : s.Proceeds cfg fns a)
    (hentered : ∀ name, a.serves = some name → s.entered name = true)
    (hmove : (serverMove cfg fns s a).isSome = true) : s.Awake cfg fns := by
  obtain ⟨t, ht⟩ := h.takes hentered hmove
  exact ⟨a, t, hproceeds, ht⟩

/-- A registration that has a next step keeps the server awake. -/
theorem awake_register (h : s.Keyed) {q : RegisterId}
    (hmoves : s.accounts.Moves fns.toAccountFunctions q)
    (hentered : s.entered (.register q) = true) : s.Awake cfg fns := by
  obtain ⟨b, hq, hplain, hstep⟩ := hmoves
  refine h.awake (a := .register b) hplain ?_ ?_
  · rintro name ⟨⟩
    exact hq ▸ hentered
  · simpa [serverMove] using hstep

/-- So does a login, a refresh or a logout. -/
theorem awake_auth (h : s.Keyed) {q : AuthId}
    (hmoves : s.accounts.auth.Moves cfg fns.toSecurityFunctions q)
    (hentered : s.entered (.auth q) = true) : s.Awake cfg fns := by
  obtain ⟨b, hq, hplain, hstep⟩ := hmoves
  have hwithin : b.within = true := by
    cases b with
    | advance _ => cases hplain
    | _ => rfl
  refine h.awake (a := .auth b) hplain ?_ ?_
  · intro name hname
    simp only [ServerAction.serves, hq, Option.map_some, Option.some.injEq] at hname
    exact hname ▸ hentered
  · simpa [serverMove, accountStep, hwithin] using hstep

/-- A step of a driver's request is one of the server. -/
theorem takes_driver (h : s.Keyed) {q : DriverReqId} (hmoves : s.drivers.Moves cfg q)
    (hentered : s.entered (.driver q) = true) :
    ∃ b t, b.request = some q ∧ b.plain = true ∧
      serverStep cfg fns s (.driver b) = some t := by
  obtain ⟨b, hq, hplain, hstep⟩ := hmoves
  have hwithin : b.within = true := by
    cases b with
    | begin _ _ _ => cases hplain
    | advance _ => cases hplain
    | _ => rfl
  have htakes : ∃ t, serverStep cfg fns s (.driver b) = some t := by
    refine h.takes ?_ (by simpa [serverMove, hwithin] using hstep)
    intro name hname
    simp only [ServerAction.serves, hq, Option.map_some, Option.some.injEq] at hname
    exact hname ▸ hentered
  obtain ⟨t, ht⟩ := htakes
  exact ⟨b, t, hq, hplain, ht⟩

/-- So does a driver's request. -/
theorem awake_driver (h : s.Keyed) {q : DriverReqId} (hmoves : s.drivers.Moves cfg q)
    (hentered : s.entered (.driver q) = true) : s.Awake cfg fns := by
  obtain ⟨b, t, _, hplain, ht⟩ := takes_driver h hmoves hentered
  exact ⟨.driver b, t, hplain, ht⟩

/-- So does a creation. -/
theorem awake_create (h : s.Keyed) {q : CreateId} (hmoves : s.creates.Moves fns.body q)
    (hentered : s.entered (.create q) = true) : s.Awake cfg fns := by
  obtain ⟨b, hq, hplain, hstep⟩ := hmoves
  have hwithin : b.within = true := by
    cases b with
    | begin _ _ _ _ => cases hplain
    | advance _ => cases hplain
    | _ => rfl
  have hproceeds : s.Proceeds cfg fns (.create b) := by
    cases b with
    | deleteRecords _ => trivial
    | commitCleanup _ => trivial
    | _ => exact hplain
  refine h.awake (a := .create b) hproceeds ?_ ?_
  · intro name hname
    simp only [ServerAction.serves, hq, Option.map_some, Option.some.injEq] at hname
    exact hname ▸ hentered
  · simpa [serverMove, hwithin] using hstep

/-- So does a cleanup. -/
theorem awake_cleanup (h : s.Keyed) {c : CleanupId} (hmoves : s.creates.CleanupMoves fns.body c) :
    s.Awake cfg fns := by
  rcases hmoves with hstep | hstep
  · refine h.awake (a := .create (.deleteRecords c)) trivial (by rintro name ⟨⟩) ?_
    simpa [serverMove, CreateAction.within] using hstep
  · refine h.awake (a := .create (.commitCleanup c)) trivial (by rintro name ⟨⟩) ?_
    simpa [serverMove, CreateAction.within] using hstep

/-- A step of a transition is one of the server. -/
theorem takes_ride (h : s.Keyed) {q : ReqId} (hmoves : s.rides.Moves cfg q)
    (hentered : s.entered (.ride q) = true) :
    ∃ b t, b.request = some q ∧ b.plain = true ∧ serverStep cfg fns s (.ride b) = some t := by
  obtain ⟨b, hq, hplain, hstep⟩ := hmoves
  have hwithin : b.within = true := by
    cases b with
    | begin _ _ _ _ => cases hplain
    | create _ _ _ _ _ => cases hplain
    | advance _ => cases hplain
    | _ => rfl
  have hfinds : s.finds cfg fns b = true := by
    cases b with
    | search _ _ => cases hplain
    | _ => rfl
  have htakes : ∃ t, serverStep cfg fns s (.ride b) = some t := by
    refine h.takes ?_ (by simpa [serverMove, hwithin, hfinds] using hstep)
    intro name hname
    simp only [ServerAction.serves, hq, Option.map_some, Option.some.injEq] at hname
    exact hname ▸ hentered
  obtain ⟨t, ht⟩ := htakes
  exact ⟨b, t, hq, hplain, ht⟩

/-- So does a transition. -/
theorem awake_ride (h : s.Keyed) {q : ReqId} (hmoves : s.rides.Moves cfg q)
    (hentered : s.entered (.ride q) = true) : s.Awake cfg fns := by
  obtain ⟨b, t, _, hplain, ht⟩ := takes_ride h hmoves hentered
  have hproceeds : s.Proceeds cfg fns (.ride b) := by
    cases b with
    | search _ _ => trivial
    | abort _ => cases hplain
    | _ => exact hplain
  exact ⟨.ride b, t, hproceeds, ht⟩

/-- A request that is about to search takes what GEOSEARCH finds. -/
theorem takes_search (h : s.Keyed) {q : ReqId} {call : TransitionCall} {ride : Ride}
    {pending : List Applied} {candidates : List UserId}
    (hreq : s.rides.requests q = some (call, .holding ride pending .search))
    (hfound : findNearbyDrivers cfg fns.dist s.drivers.store.pool ride.pickupLat ride.pickupLng =
      some candidates) :
    ∃ t, serverStep cfg fns s (.ride (.search q candidates)) = some t := by
  refine h.takes ?_ ?_
  · rintro name ⟨⟩
    simp [ServerState.entered, hreq]
  · simp [serverMove, RideAction.within, ServerState.finds, hreq, hfound, rideStep]

/-- A request that is about to search searches, or fails where Redis does. -/
theorem awake_search (h : s.Keyed) {q : ReqId} {call : TransitionCall} {ride : Ride}
    {pending : List Applied}
    (hreq : s.rides.requests q = some (call, .holding ride pending .search)) :
    s.Awake cfg fns := by
  have hentered : s.entered (.ride q) = true := by simp [ServerState.entered, hreq]
  cases hfound : findNearbyDrivers cfg fns.dist s.drivers.store.pool ride.pickupLat
      ride.pickupLng with
  | some candidates =>
      obtain ⟨t, ht⟩ := takes_search h hreq hfound
      exact ⟨.ride (.search q candidates), t, trivial, ht⟩
  | none =>
      have hproceeds : s.Proceeds cfg fns (.ride (.abort q)) := ⟨call, ride, pending, hreq, hfound⟩
      refine h.awake hproceeds ?_ ?_
      · rintro name ⟨⟩
        exact hentered
      · simp [serverMove, RideAction.within, ServerState.finds, hreq, rideStep]

/-- Where nobody has a step to take, nobody holds a key. -/
theorem nothing_held (h : s.Keyed) (hasleep : ¬ s.Awake cfg fns) :
    (∀ email, s.accounts.taken email = none) ∧ (∀ token, s.accounts.auth.locks token = none) ∧
    (∀ d, s.drivers.inserting d = none) ∧ (∀ r, s.rides.locks r = none) ∧
    ∀ c, ¬ s.creates.DeletedBy c := by
  refine ⟨fun email => ?_, fun token => ?_, fun d => ?_, fun r => ?_, fun c hc => ?_⟩
  · by_contra hheld
    obtain ⟨q, hq⟩ := Option.ne_none_iff_exists'.mp hheld
    obtain ⟨_, hreq, hholds⟩ := h.emails email q hq
    exact hasleep (awake_register h (RegisterStage.holding_moves hreq hholds)
      (by simp [ServerState.entered, hreq]))
  · by_contra hheld
    obtain ⟨q, hq⟩ := Option.ne_none_iff_exists'.mp hheld
    obtain ⟨_, hreq, hholds⟩ := h.tokenLocks token q hq
    exact hasleep (awake_auth h (AuthStage.holding_moves hreq hholds)
      (by simp [ServerState.entered, hreq]))
  · by_contra hheld
    obtain ⟨q, hq⟩ := Option.ne_none_iff_exists'.mp hheld
    obtain ⟨_, hreq, hholds⟩ := h.profiles d q hq
    exact hasleep (awake_driver h (DriverStage.holding_moves hreq hholds)
      (by simp [ServerState.entered, hreq]))
  · by_contra hheld
    obtain ⟨q, hq⟩ := Option.ne_none_iff_exists'.mp hheld
    obtain ⟨⟨call, stage⟩, hreq, hholds⟩ := h.rideLocks r q hq
    cases stage with
    | holding ride pending todo =>
        by_cases hsearch : todo = .search
        · subst hsearch
          exact hasleep (awake_search h hreq)
        · exact hasleep (awake_ride h (holding_moves h.fit hreq hsearch)
            (by simp [ServerState.entered, hreq]))
    | _ => cases hholds
  · have hdeleting := h.records c hc
    have hstep : (createStep fns.body s.creates (.commitCleanup c)).isSome = true := by
      simp [createStep, hdeleting]
    exact hasleep (awake_cleanup h (Or.inr hstep))

/-- **Somebody has a step to take, or everything has ended.** -/
theorem awake_or_at_rest (hfresh : FreshTokens fns.toSecurityFunctions) (h : s.Keyed) :
    s.Awake cfg fns ∨ s.AtRest := by
  by_cases hawake : s.Awake cfg fns
  · exact Or.inl hawake
  obtain ⟨hemails, htokens, hprofiles, hrides, hrecords⟩ := nothing_held h hawake
  refine Or.inr ⟨?_, ?_, ?_, ?_, ?_, ?_, hemails, htokens, hprofiles, hrides, ?_⟩
  · intro q request stage hreq
    by_contra hopen
    push Not at hopen
    rcases register_moves hreq hopen with hmoves | ⟨email, p, hheld⟩
    · exact hawake (awake_register h hmoves (by simp [ServerState.entered, hreq]))
    · simp [hemails] at hheld
  · intro q request stage hreq
    by_contra hopen
    push Not at hopen
    rcases auth_moves hfresh hreq hopen with hmoves | ⟨token, p, hheld⟩
    · exact hawake (awake_auth h hmoves (by simp [ServerState.entered, hreq]))
    · simp [htokens] at hheld
  · intro q call stage hreq
    by_contra hopen
    push Not at hopen
    rcases driver_moves hreq hopen with hmoves | ⟨d, p, hheld⟩
    · exact hawake (awake_driver h hmoves (by simp [ServerState.entered, hreq]))
    · simp [hprofiles] at hheld
  · intro q call stage hreq
    by_contra hopen
    push Not at hopen
    rcases ride_moves h.fit hreq hopen with hmoves | ⟨ride, pending, rfl⟩ | ⟨r, p, hheld⟩
    · exact hawake (awake_ride h hmoves (by simp [ServerState.entered, hreq]))
    · exact hawake (awake_search h hreq)
    · simp [hrides] at hheld
  · intro q call stage hreq
    by_contra hopen
    push Not at hopen
    rcases create_moves hreq hopen with hmoves | ⟨c, hdeleted⟩
    · exact hawake (awake_create h hmoves (by simp [ServerState.entered, hreq]))
    · exact hrecords c hdeleted
  · intro c stage hc
    by_contra hopen
    rcases cleanup_moves hc hopen with hmoves | ⟨d, hdeleted⟩
    · exact hawake (awake_cleanup h hmoves)
    · exact hrecords d hdeleted
  · intro record hmem
    by_contra hdeleted
    obtain ⟨c, hc⟩ := Option.ne_none_iff_exists'.mp hdeleted
    exact hrecords c ⟨record, hmem, hc⟩

/-- **No deadlock.**  In every run of the server,

* no request and no cleanup takes more steps than its limit, 17 at most, whatever
  happens between its steps;
* at its end some request or cleanup that has begun has a step to take, or all of them
  have ended and no key is held. -/
theorem server_never_stands_still (hfresh : FreshTokens fns.toSecurityFunctions)
    {users : List User} {acts : List ServerAction}
    (h : Steps (serverSystem cfg fns) free (.init users) acts s) :
    (∀ w, turns ServerAction.worker w acts ≤ w.limit) ∧ (s.Awake cfg fns ∨ s.AtRest) := by
  refine ⟨worker_bounded h, awake_or_at_rest hfresh ?_⟩
  exact h.invariant ServerState.Keyed (keyed_init users)
    fun _ _ _ hs _ hstep => server_keyed hs hstep

end Standstill

/-- A hash without collisions has fresh tokens. -/
theorem freshTokens_of_injective {fns : SecurityFunctions}
    (h : Injective fns.hashRefreshToken) : FreshTokens fns := by
  intro drawn
  have hinf : (Set.range fun n => fns.hashRefreshToken (dots n)).Infinite :=
    Set.infinite_range_of_injective (h.comp dots_injective)
  obtain ⟨_, ⟨n, rfl⟩, hnew⟩ := hinf.exists_notMem_finset drawn.toFinset
  exact ⟨dots n, by simpa using hnew⟩

/-- The cancellation waits for the lock of the ride, and the request that holds it can
go on. -/
theorem the_lock_is_given_up : ∃ s,
    Steps (serverSystem {} sampleTown) free (.init townUsers)
      (rideRequested ++ [.ride (.read 0), .ride (.read 1), .ride (.update 0)]) s ∧
    serverStep {} sampleTown s (.ride (.update 1)) = none ∧
    (s.Awake {} sampleTown ∨ s.AtRest) := by
  have hreplay : (exec (serverSystem {} sampleTown) (.init townUsers)
      (rideRequested ++ [.ride (.read 0), .ride (.read 1), .ride (.update 0)])).any
      (fun s => (serverStep {} sampleTown s (.ride (.update 1))).isNone) = true := by
    decide +kernel
  obtain ⟨s, hrun, hs⟩ := Steps.of_exec_any hreplay
  have hfresh : FreshTokens sampleTown.toSecurityFunctions :=
    freshTokens_of_injective sampleAccountFunctions_injective
  exact ⟨s, hrun, Option.isNone_iff_eq_none.mp hs, (server_never_stands_still hfresh hrun).2⟩

end RideFlow
