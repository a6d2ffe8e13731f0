import RideFlow.References
import RideFlow.UniqueAccounts

/-!
# Nobody acts without having logged in

Clients hold access tokens that an answer of a login or a refresh gave them, or
strings that no key signs.  Then whoever is named anywhere, as the passenger or the
driver of a ride, in the pool, in a reservation or in a token, has logged in: some
login was let in with a password that the hash of this user verifies.  And a request
that creates or moves a ride was let in while an access token of its user was no older
than a token lives (`nobody_acts_without_login`).

A refresh hands on what a login began: the row that it consumed is of a user who has
logged in (`AuthState.Entitles`).
-/

namespace RideFlow

open Function Runs Tables

/-- A login of the user was answered with tokens, and its password was verified. -/
def LoggedIn (fns : SecurityFunctions) (s : AuthState) (u : UserId) : Prop :=
  ∃ q email password response user,
    s.requests q = some (.login email password, .answered (.issued response)) ∧
    user ∈ s.users ∧ user.id = u ∧ user.email = email ∧
    fns.verifyPassword password user.hashedPassword = true

/-- The access token of the user, made at some time until now. -/
def AccessTokenOf (fns : SecurityFunctions) (s : AuthState) (user : User) (token : String) : Prop :=
  ∃ issuedAt ≤ s.clock, token = fns.createAccessToken user.id user.role issuedAt

/-- The request may have tokens for the user: it has verified the user's password, or
the user has logged in. -/
def MayHave (fns : SecurityFunctions) (s : AuthState) (request : AuthRequest) (user : User) :
    Prop :=
  LoggedIn fns s user.id ∨ ∃ email password, request = .login email password ∧
    user.email = email ∧ fns.verifyPassword password user.hashedPassword = true

/-- A pair of tokens is of a user whom the request may have them for. -/
def OwnPair (fns : SecurityFunctions) (s : AuthState) (request : AuthRequest)
    (pair : IssuedPair) : Prop :=
  ∃ user ∈ s.users, pair.row.userId = user.id ∧
    AccessTokenOf fns s user pair.response.accessToken ∧ MayHave fns s request user

/-- What is known of the tokens that a request holds. -/
def AuthStage.Entitled (fns : SecurityFunctions) (s : AuthState) (request : AuthRequest) :
    AuthStage → Prop
  | .checking stored => LoggedIn fns s stored.userId
  | .issuing pair => OwnPair fns s request pair
  | .revoking _ pair => ∀ issued, pair = some issued → OwnPair fns s request issued
  | .holding replaced pair => LoggedIn fns s replaced.userId ∧
      ∀ issued, pair = some issued → OwnPair fns s request issued
  | .answered outcome => ∀ response, outcome = .issued response →
      ∃ user ∈ s.users, AccessTokenOf fns s user response.accessToken ∧ LoggedIn fns s user.id
  | _ => True

/-- Tokens are of users who have logged in. -/
structure AuthState.Entitles (fns : SecurityFunctions) (s : AuthState) : Prop where
  row : ∀ token row, s.tokens token = some row → LoggedIn fns s row.userId
  stage : ∀ q request stage, s.requests q = some (request, stage) → stage.Entitled fns s request

/-- Users and answers stay, and time passes. -/
structure GoesOn (s t : AuthState) : Prop where
  users : s.users ⊆ t.users
  clock : s.clock ≤ t.clock
  answered : ∀ q request outcome, s.requests q = some (request, .answered outcome) →
    t.requests q = some (request, .answered outcome)

section Auth

variable {cfg : Settings} {fns : SecurityFunctions} {s t : AuthState} {a : AuthAction}
  {q : AuthId} {request : AuthRequest} {stage old : AuthStage} {u : UserId} {user : User}
  {pair : IssuedPair}

theorem LoggedIn.goesOn (h : LoggedIn fns s u) (hon : GoesOn s t) : LoggedIn fns t u := by
  obtain ⟨q, email, password, response, user, hreq, hmem, hrest⟩ := h
  exact ⟨q, email, password, response, user, hon.answered q _ _ hreq, hon.users hmem, hrest⟩

theorem AccessTokenOf.goesOn {token : String} (h : AccessTokenOf fns s user token)
    (hon : GoesOn s t) : AccessTokenOf fns t user token := by
  obtain ⟨issuedAt, hclock, htoken⟩ := h
  exact ⟨issuedAt, hclock.trans hon.clock, htoken⟩

theorem OwnPair.goesOn (h : OwnPair fns s request pair) (hon : GoesOn s t) :
    OwnPair fns t request pair := by
  obtain ⟨user, hmem, hrow, htoken, hmay⟩ := h
  exact ⟨user, hon.users hmem, hrow, htoken.goesOn hon, hmay.imp_left (·.goesOn hon)⟩

theorem AuthStage.Entitled.goesOn (h : stage.Entitled fns s request) (hon : GoesOn s t) :
    stage.Entitled fns t request := by
  cases stage with
  | starting => trivial
  | leaving _ => trivial
  | checking stored => exact LoggedIn.goesOn h hon
  | issuing pair => exact OwnPair.goesOn h hon
  | revoking stored pair => exact fun issued hpair => (h issued hpair).goesOn hon
  | holding replaced pair =>
      exact ⟨h.1.goesOn hon, fun issued hpair => (h.2 issued hpair).goesOn hon⟩
  | answered outcome =>
      intro response hissued
      obtain ⟨user, hmem, htoken, hin⟩ := h response hissued
      exact ⟨user, hon.users hmem, htoken.goesOn hon, hin.goesOn hon⟩

/-- One request moves, that was not answered. -/
theorem GoesOn.move (hreq : ∀ request old, s.requests q = some (request, old) →
      ∀ outcome, old ≠ .answered outcome)
    (hreqs : t.requests = update s.requests q (some (request, stage)))
    (husers : t.users = s.users) (hclock : t.clock = s.clock) : GoesOn s t where
  users := husers ▸ List.Subset.refl _
  clock := hclock.ge
  answered p request' outcome hp := by
    have hne : p ≠ q := by
      rintro rfl
      exact hreq request' _ hp outcome rfl
    rw [hreqs, update_of_ne hne]
    exact hp

/-- One request moves, and the rows are of users who have logged in. -/
theorem AuthState.Entitles.move (h : s.Entitles fns) (hon : GoesOn s t)
    (hreqs : t.requests = update s.requests q (some (request, stage)))
    (hrows : ∀ token row, t.tokens token = some row → LoggedIn fns t row.userId)
    (hstage : stage.Entitled fns t request) : t.Entitles fns where
  row := hrows
  stage p request' stage' hp := by
    rw [hreqs] at hp
    rcases update_some_iff.mp hp with ⟨_, hnew⟩ | ⟨_, hold⟩
    · cases hnew
      exact hstage
    · exact (h.stage p request' stage' hold).goesOn hon

/-- A pair that is answered lets its user in. -/
theorem OwnPair.answered (h : OwnPair fns s request pair) (hon : GoesOn s t)
    (hreq : t.requests q = some (request, .answered (.issued pair.response))) :
    ∃ user ∈ t.users, pair.row.userId = user.id ∧
      AccessTokenOf fns t user pair.response.accessToken ∧ LoggedIn fns t user.id := by
  obtain ⟨user, hmem, hrow, htoken, hmay⟩ := h
  refine ⟨user, hon.users hmem, hrow, htoken.goesOn hon, ?_⟩
  rcases hmay with hin | ⟨email, password, rfl, hemail, hverified⟩
  · exact hin.goesOn hon
  · exact ⟨q, email, password, pair.response, user, hreq, hon.users hmem, rfl, hemail, hverified⟩

/-- A pair that was just made. -/
theorem ownPair_new {raw : String} (hmem : user ∈ s.users) (hmay : MayHave fns s request user) :
    OwnPair fns s request (issueTokenPair cfg fns user raw s.clock) :=
  ⟨user, hmem, rfl, ⟨s.clock, le_rfl, rfl⟩, hmay⟩

/-- A request that is not answered. -/
theorem open_request (hreq : s.requests q = some (request, old))
    (hopen : ∀ outcome, old ≠ .answered outcome) (request' : AuthRequest) (old' : AuthStage)
    (hreq' : s.requests q = some (request', old')) : ∀ outcome, old' ≠ .answered outcome := by
  obtain ⟨rfl, rfl⟩ := Prod.mk.inj (Option.some.inj (hreq.symm.trans hreq'))
  exact hopen

theorem auth_goesOn (hstep : authStep cfg fns s a = some t) : GoesOn s t := by
  cases a with
  | begin q request =>
      obtain ⟨hnone, rfl⟩ := auth_begin hstep
      exact .move (by simp [hnone]) rfl rfl rfl
  | read q =>
      obtain ⟨raw, ⟨hreq, rfl | ⟨stored, _, rfl⟩⟩ | ⟨hreq, rfl⟩⟩ := auth_read hstep
      · exact .move (open_request hreq (by simp)) rfl rfl rfl
      · exact .move (open_request hreq (by simp)) rfl rfl rfl
      · exact .move (open_request hreq (by simp)) rfl rfl rfl
  | check q raw =>
      rcases auth_check_user hstep with ⟨_, _, _, hreq, hopen, rfl⟩ |
        ⟨_, _, _, hreq, _, ⟨_, _, _, rfl, _, _, rfl⟩ | ⟨_, rfl, _, _, _, rfl⟩⟩
      · exact .move (open_request hreq hopen) rfl rfl rfl
      · exact .move (open_request hreq (by simp)) rfl rfl rfl
      · exact .move (open_request hreq (by simp)) rfl rfl rfl
  | update q =>
      obtain ⟨_, _, _, hreq, rfl | ⟨row, _, _, rfl⟩⟩ := auth_update hstep
      · exact .move (open_request hreq (by simp)) rfl rfl rfl
      · exact .move (open_request hreq (by simp)) rfl rfl rfl
  | commit q =>
      obtain ⟨_, ⟨_, hreq, rfl⟩ | ⟨_, _, hreq, rfl⟩ | ⟨_, hreq, rfl⟩⟩ := auth_commit hstep
      · exact .move (open_request hreq (by simp)) rfl rfl rfl
      · exact .move (open_request hreq (by simp)) rfl rfl rfl
      · exact .move (open_request hreq (by simp)) rfl rfl rfl
  | abort q =>
      obtain ⟨_, _, hreq, hopen, rfl⟩ := auth_abort hstep
      exact .move (open_request hreq hopen) rfl rfl rfl
  | advance seconds =>
      obtain rfl := auth_advance hstep
      exact ⟨List.Subset.refl _, Nat.le_add_right _ _, fun _ _ _ hreq => hreq⟩

/-- **One step keeps the tokens with those who have logged in.** -/
theorem step_entitles (h : s.Entitles fns) (hstep : authStep cfg fns s a = some t) :
    t.Entitles fns := by
  have hon := auth_goesOn hstep
  have hrows : ∀ token row, s.tokens token = some row → LoggedIn fns t row.userId :=
    fun token row hrow => (h.row token row hrow).goesOn hon
  cases a with
  | begin q request =>
      obtain ⟨_, rfl⟩ := auth_begin hstep
      exact h.move hon rfl hrows trivial
  | read q =>
      obtain ⟨raw, ⟨_, rfl | ⟨stored, hrow, rfl⟩⟩ | ⟨_, rfl⟩⟩ := auth_read hstep
      · exact h.move hon rfl hrows (fun _ hissued => by cases hissued)
      · exact h.move hon rfl hrows (hrows _ stored hrow)
      · refine h.move hon rfl hrows ?_
        unfold afterLogoutRead
        split
        · trivial
        · split
          · trivial
          · exact fun _ hpair => by cases hpair
  | check q raw =>
      rcases auth_check_user hstep with ⟨_, _, _, _, _, rfl⟩ |
        ⟨_, _, user, hreq, hmem, ⟨email, password, rfl, _, hemail, hverified, rfl⟩ |
          ⟨stored, rfl, hid, _, _, rfl⟩⟩
      · exact h.move hon rfl hrows (fun _ hissued => by cases hissued)
      · have hmay : MayHave fns s (.login email password) user :=
          Or.inr ⟨email, password, rfl, hemail, hverified⟩
        exact h.move hon rfl hrows ((ownPair_new hmem hmay).goesOn hon)
      · have hin : LoggedIn fns s user.id := hid ▸ h.stage q _ _ hreq
        refine h.move hon rfl hrows fun issued hissued => ?_
        obtain rfl := Option.some.inj hissued
        exact (ownPair_new hmem (Or.inl hin)).goesOn hon
  | update q =>
      obtain ⟨_, stored, pair, hreq, rfl | ⟨row, hrow, _, rfl⟩⟩ := auth_update hstep
      · exact h.move hon rfl hrows (fun _ hissued => by cases hissued)
      · exact h.move hon rfl hrows ⟨hrows _ row hrow, fun issued hissued =>
          (h.stage q _ _ hreq issued hissued).goesOn hon⟩
  | commit q =>
      obtain ⟨request, ⟨pair, hreq, rfl⟩ | ⟨replaced, pair, hreq, rfl⟩ | ⟨_, _, rfl⟩⟩ :=
        auth_commit hstep
      · obtain ⟨user, hmem, hrow, htoken, hin⟩ :=
          OwnPair.answered (h.stage q _ _ hreq) hon (update_self _ _ _)
        have hpair : ∀ issued, some pair = some issued →
            LoggedIn fns (s.commitLogin q request pair) issued.row.userId := by
          rintro _ ⟨⟩
          exact hrow ▸ hin
        refine h.move hon rfl (insertToken_owners hrows hpair) ?_
        rintro _ ⟨⟩
        exact ⟨user, hmem, htoken, hin⟩
      · obtain ⟨hreplaced, hpairs⟩ := h.stage q _ _ hreq
        have hkept : ∀ token row, update s.tokens replaced.tokenHash (some replaced.revoke) token =
            some row → LoggedIn fns (s.commitHeld q request replaced pair) row.userId := by
          intro token row hrow
          rcases update_some_iff.mp hrow with ⟨_, rfl⟩ | ⟨_, hold⟩
          · exact hreplaced.goesOn hon
          · exact hrows token row hold
        have hanswered : ∀ issued, pair = some issued → ∃ user ∈ s.users,
            issued.row.userId = user.id ∧
            AccessTokenOf fns (s.commitHeld q request replaced pair) user
              issued.response.accessToken ∧
            LoggedIn fns (s.commitHeld q request replaced pair) user.id := by
          rintro issued rfl
          exact OwnPair.answered (hpairs issued rfl) hon (update_self _ _ _)
        refine h.move hon rfl (insertToken_owners hkept fun issued hpair => ?_) ?_
        · obtain ⟨_, _, hrow, _, hin⟩ := hanswered issued hpair
          exact hrow ▸ hin
        · intro response hissued
          cases pair with
          | none => cases hissued
          | some issued =>
              obtain rfl := AuthOutcome.issued.inj hissued
              obtain ⟨user, hmem, _, htoken, hin⟩ := hanswered issued rfl
              exact ⟨user, hmem, htoken, hin⟩
      · exact h.move hon rfl hrows (fun _ hissued => by cases hissued)
  | abort q =>
      obtain ⟨_, _, _, _, rfl⟩ := auth_abort hstep
      exact h.move hon rfl hrows (fun _ hissued => by cases hissued)
  | advance _ =>
      obtain rfl := auth_advance hstep
      exact ⟨hrows, fun q request stage hreq => (h.stage q request stage hreq).goesOn hon⟩

end Auth

section Server

variable {cfg : Settings} {fns : ServerFunctions} {users : List User} {s t : ServerState}
  {a : ServerAction} {acts : List ServerAction} {lifetime : Nat}

/-- The user has logged in at this server. -/
def ServerState.Knows (fns : ServerFunctions) (s : ServerState) (u : UserId) : Prop :=
  LoggedIn fns.toSecurityFunctions s.accounts.auth u

/-- An answer has handed out an access token of the user that lives now. -/
def ServerState.InSession (fns : ServerFunctions) (lifetime : Nat) (s : ServerState)
    (user : User) : Prop :=
  ∃ q request response issuedAt,
    s.accounts.auth.requests q = some (request, .answered (.issued response)) ∧
    response.accessToken = fns.createAccessToken user.id user.role issuedAt ∧
    issuedAt ≤ s.accounts.auth.clock ∧ s.accounts.auth.clock ≤ issuedAt + lifetime

/-- Decoding a token that the server has made tells its user, and no longer than the token
lives. -/
def ReadsOwnTokens (fns : ServerFunctions) (lifetime : Nat) : Prop :=
  ∀ u role issuedAt now claims,
    fns.decodeToken now (fns.createAccessToken u role issuedAt) = some claims →
      claims.sub = some u ∧ now ≤ issuedAt + lifetime

/-- A client has the token from an answer, or it is signed with no key. -/
def Presentable (fns : ServerFunctions) (s : ServerState) (token : String) : Prop :=
  (∃ q request response, response.accessToken = token ∧
    s.accounts.auth.requests q = some (request, .answered (.issued response))) ∨
  ∀ now, fns.decodeToken now token = none

/-- Clients present what they have. -/
def presentable (fns : ServerFunctions) (s : ServerState) (a : ServerAction) : Prop :=
  ∀ request token, a = .arrive request token → Presentable fns s token

/-- All that the server holds and does is of users who have logged in. -/
structure ServerState.Vouched (fns : ServerFunctions) (s : ServerState) : Prop where
  auth : s.accounts.auth.Entitles fns.toSecurityFunctions
  drivers : OnlyDrivers (s.Knows fns) s.drivers
  rides : RideParties (s.Knows fns) (s.Knows fns) s.rides
  creates : CreationsOf (s.Knows fns) s.creates

theorem vouched_init (users : List User) : (ServerState.init users).Vouched fns where
  auth := by
    constructor <;> intros <;> simp_all [ServerState.init, AccountState.init, AuthState.init]
  drivers := by
    constructor <;> intros <;> simp_all [ServerState.init, DriverState.init, DriverStore.init]
  rides := by constructor <;> intros <;> simp_all [ServerState.init, RideState.init]
  creates := by constructor <;> intros <;> simp_all [ServerState.init, CreateState.init]

/-- The user of an admitted request has the token's subject as its id. -/
theorem authenticated_claims {request : ProtectedRequest} {token : String} {user : User}
    (h : s.authenticated fns request token = .ok user) :
    ∃ claims, fns.decodeToken s.accounts.auth.clock token = some claims ∧
      claims.sub = some user.id := by
  unfold ServerState.authenticated at h
  split at h
  case h_1 => cases h
  case h_2 found hfound =>
      obtain ⟨claims, hclaims, _, userId, hsub, hfind, _⟩ := getCurrentUser_ok.mp hfound
      have hsame : user = found := by
        cases request with
        | transitionRide _ _ _ => exact (Except.ok.inj h).symm
        | driver _ _ => exact requireRoles_ok h
        | createRide _ _ _ => exact requireRoles_ok h
      have hid : found.id = userId :=
        of_decide_eq_true (List.find?_some (p := fun row : User => row.id = userId) hfind)
      exact ⟨claims, hclaims, by rw [hsame, hid, hsub]⟩

/-- **Who is let in** has logged in, and has a token that lives. -/
theorem authenticated_session (husers : Distinguished s.accounts.auth.users)
    (hdecode : ReadsOwnTokens fns lifetime)
    (h : s.Vouched fns) {request : ProtectedRequest} {token : String} {user : User}
    (hpresent : Presentable fns s token) (hauth : s.authenticated fns request token = .ok user) :
    s.Knows fns user.id ∧ s.InSession fns lifetime user := by
  obtain ⟨claims, hclaims, hsub⟩ := authenticated_claims hauth
  have hmem := authenticated_registered hauth
  rcases hpresent with ⟨q, sent, response, rfl, hreq⟩ | hunsigned
  · obtain ⟨owner, howner, ⟨issuedAt, hclock, htoken⟩, hin⟩ :=
      h.auth.stage q sent _ hreq response rfl
    rw [htoken] at hclaims
    obtain ⟨hsub', hlives⟩ := hdecode _ _ _ _ _ hclaims
    have hid : owner.id = user.id := Option.some.inj (hsub'.symm.trans hsub)
    obtain rfl : owner = user := husers.ids owner howner user hmem hid
    exact ⟨hin, q, sent, response, issuedAt, hreq, htoken, hclock, hlives⟩
  · rw [hunsigned] at hclaims
    cases hclaims

/-- The accounts change, and the rest stays. -/
theorem ServerState.Vouched.accounts (h : s.Vouched fns) {accounts : AccountState}
    (hon : GoesOn s.accounts.auth accounts.auth)
    (hauth : accounts.auth.Entitles fns.toSecurityFunctions) :
    ({ s with accounts := accounts } : ServerState).Vouched fns := by
  have hknows : ∀ u, s.Knows fns u → LoggedIn fns.toSecurityFunctions accounts.auth u :=
    fun u hu => hu.goesOn hon
  exact ⟨hauth, h.drivers.mono hknows, h.rides.mono hknows hknows, h.creates.mono hknows⟩

/-- A step of the handlers of the drivers. -/
theorem ServerState.Vouched.driver (h : s.Vouched fns) {b : DriverAction} {drivers : DriverState}
    (hbegin : ∀ q user request, b = .begin q user request → s.Knows fns user.id)
    (hstep : driverStep cfg s.drivers b = some drivers) :
    ({ s with drivers := drivers } : ServerState).Vouched fns :=
  ⟨h.auth, step_onlyDrivers h.drivers hbegin hstep, h.rides, h.creates⟩

/-- A step of a transition. -/
theorem ServerState.Vouched.ride (h : s.Vouched fns) {b : RideAction} {rides : RideState}
    (hbegun : b.BegunBy a) (hfinds : s.finds cfg fns b = true)
    (hstep : rideStep cfg s.rides b = some rides) :
    ({ s with rides := rides } : ServerState).Vouched fns := by
  have hsearch : ∀ q candidates, b = .search q candidates → ∀ d ∈ candidates, s.Knows fns d := by
    rintro q candidates rfl d hd
    dsimp only [ServerState.finds] at hfinds
    split at hfinds
    case h_1 =>
        obtain ⟨m, hm, rfl⟩ := found_in_pool (of_decide_eq_true hfinds) hd
        exact h.drivers.pool m hm
    case h_2 => cases hfinds
  exact ⟨h.auth, h.drivers, step_rideParties h.rides hbegun hsearch hstep, h.creates⟩

/-- A step of a creation, with the ride that it makes visible. -/
theorem ServerState.Vouched.create (h : s.Vouched fns) (hrefers : s.Refers) {b : CreateAction}
    {creates : CreateState}
    (hbegin : ∀ q user payload key, b = .begin q user payload key → s.Knows fns user.id)
    (hstep : createStep fns.body s.creates b = some creates) :
    ({ s with creates := creates, rides := s.rides.insert (s.creates.published b) } :
      ServerState).Vouched fns := by
  have hcreates := step_creationsOf h.creates hbegin hstep
  cases hpublished : s.creates.published b with
  | none => exact ⟨h.auth, h.drivers, h.rides, hcreates⟩
  | some ride =>
      obtain ⟨q, call, hreq⟩ := published_storing hpublished
      obtain ⟨_, hpassenger, hdriver, hapart⟩ := h.creates.storing q call ride hreq
      have hfresh : s.rides.rides ride.id = none := by
        by_contra hrow
        obtain ⟨old, hmem, hid⟩ := hrefers.created ride.id hrow
        exact hapart old hmem hid
      exact ⟨h.auth, h.drivers, h.rides.insert hfresh hpassenger hdriver, hcreates⟩

theorem register_goesOn {s t : AccountState} {b : RegisterAction}
    (hstep : registerStep fns.toAccountFunctions s b = some t) : GoesOn s.auth t.auth := by
  obtain ⟨added, hauth⟩ := register_frame hstep
  rw [hauth]
  exact ⟨List.subset_append_left _ _, le_rfl, fun _ _ _ hreq => hreq⟩

/-- **One step of the server** is of somebody who has logged in. -/
theorem server_vouched (husers : Distinguished s.accounts.auth.users)
    (hdecode : ReadsOwnTokens fns lifetime)
    (hrefers : s.Refers) (h : s.Vouched fns) (hpresent : presentable fns s a)
    (hstep : serverStep cfg fns s a = some t) : t.Vouched fns := by
  have hmove := (server_cases hstep).2
  cases a with
  | arrive request token =>
      rcases server_arrive hmove with ⟨_, _, _, rfl⟩ | ⟨user, huser, hbegin⟩
      · exact ⟨h.auth, h.drivers, h.rides, h.creates⟩
      · have hknows := (authenticated_session husers hdecode h (hpresent request token rfl) huser).1
        rcases enterHandler_cases hbegin with ⟨q, body, drivers, rfl, hdrivers, rfl⟩ |
          ⟨q, rideId, payload, rides, rfl, hrides, rfl⟩ |
          ⟨q, payload, key, creates, rfl, hcreates, rfl⟩
        · refine h.driver ?_ hdrivers
          rintro _ _ _ ⟨⟩
          exact hknows
        · have hbegun : RideAction.BegunBy
              (.arrive (.transitionRide q rideId payload) token) (.begin q user rideId payload) :=
            ⟨token, rfl⟩
          have hfinds : s.finds cfg fns (.begin q user rideId payload) = true := rfl
          exact h.ride hbegun hfinds hrides
        · refine h.create hrefers (b := .begin q user payload key) ?_ hcreates
          rintro _ _ _ _ ⟨⟩
          exact hknows
  | register b =>
      obtain ⟨accounts, haccounts, rfl⟩ := server_register hmove
      have hon := register_goesOn haccounts
      obtain ⟨added, hauth⟩ := register_frame haccounts
      refine h.accounts hon ⟨fun token row hrow => ?_, fun q request stage hreq => ?_⟩
      · rw [hauth] at hrow
        exact (h.auth.row token row hrow).goesOn hon
      · rw [hauth] at hreq
        exact (h.auth.stage q request stage hreq).goesOn hon
  | auth b =>
      obtain ⟨_, auth, hauth, rfl⟩ := server_auth hmove
      exact h.accounts (auth_goesOn hauth) (step_entitles h.auth hauth)
  | driver b =>
      obtain ⟨hwithin, drivers, hdrivers, rfl⟩ := server_driver hmove
      refine h.driver ?_ hdrivers
      rintro _ _ _ rfl
      cases hwithin
  | ride b =>
      obtain ⟨hwithin, hfinds, rides, hrides, rfl⟩ := server_ride hmove
      exact h.ride (RideAction.within_begunBy (a := .ride b) hwithin) hfinds hrides
  | create b =>
      obtain ⟨hwithin, creates, hcreates, rfl⟩ := server_create hmove
      refine h.create hrefers ?_ hcreates
      rintro _ _ _ _ rfl
      cases hwithin
  | advance seconds =>
      have hon : GoesOn s.accounts.auth
          { s.accounts.auth with clock := s.accounts.auth.clock + seconds } :=
        ⟨List.Subset.refl _, Nat.le_add_right _ _, fun _ _ _ hreq => hreq⟩
      have hknows : ∀ u, s.Knows fns u → LoggedIn fns.toSecurityFunctions
          { s.accounts.auth with clock := s.accounts.auth.clock + seconds } u :=
        fun u hu => hu.goesOn hon
      have hdrivers := h.drivers.mono hknows
      have hrides := h.rides.mono hknows hknows
      have hcreates := h.creates.mono hknows
      cases hmove
      exact ⟨⟨fun token row hrow => (h.auth.row token row hrow).goesOn hon,
          fun q request stage hreq => (h.auth.stage q request stage hreq).goesOn hon⟩,
        ⟨hdrivers.callers, hdrivers.profiles, hdrivers.pool⟩,
        ⟨hrides.row, hrides.held, hrides.keys, hrides.events⟩,
        ⟨hcreates.callers, hcreates.drawn, hcreates.storing, hcreates.apart, hcreates.cached⟩⟩

/-- Everybody who is named in the tables, the pool and the keys is one of these. -/
structure StoredData.Names (data : StoredData) (U : UserId → Prop) : Prop where
  tokens : ∀ token row, data.tokens token = some row → U row.userId
  profiles : ∀ d profile, data.profiles d = some profile → U d
  rides : ∀ r ride, data.rides r = some ride →
    U ride.passengerId ∧ ∀ d, ride.driverId = some d → U d
  geoPool : ∀ m ∈ data.geoPool, U m.driverId
  reservations : ∀ d key, data.reservations d = some key → U d

theorem ServerState.Vouched.names (h : s.Vouched fns) : s.data.Names (s.Knows fns) where
  tokens := h.auth.row
  profiles := h.drivers.profiles
  rides r ride hride := (h.rides.row r ride hride).2
  geoPool := h.drivers.pool
  reservations d key hkey := (h.rides.keys d key hkey).1

theorem run_vouched (husers : Distinguished users)
    (hdecode : ReadsOwnTokens fns lifetime)
    (h : Steps (serverSystem cfg fns) (presentable fns) (.init users) acts s) :
    s.Vouched fns := by
  have hkeep : ∀ s a t, (s.Refers ∧ AccountBooks s.accounts) ∧ s.Vouched fns →
      presentable fns s a → serverStep cfg fns s a = some t →
      (t.Refers ∧ AccountBooks t.accounts) ∧ t.Vouched fns := by
    rintro s a t ⟨⟨hrefers, hbooks⟩, hvouched⟩ hpresent hstep
    exact ⟨⟨server_refers hrefers hstep, server_accountBooks hbooks hstep⟩,
      server_vouched hbooks.users hdecode hrefers hvouched hpresent hstep⟩
  exact (h.invariant _ ⟨⟨refers_init users, accountBooks_init husers⟩, vouched_init users⟩ hkeep).2

/-- The user whom a handler serves. -/
def ServerState.caller (s : ServerState) : RequestName → Option User
  | .driver q => (s.drivers.requests q).map fun entry => entry.1.user
  | .ride q => (s.rides.requests q).map fun entry => entry.1.user
  | .create q => (s.creates.requests q).map fun entry => entry.1.user
  | _ => none

/-- An admitted request is served for its user. -/
theorem entered_caller {user : User} {request : ProtectedRequest}
    (h : enterHandler cfg fns s user request = some t) : t.caller request.name = some user := by
  rcases enterHandler_cases h with ⟨q, body, drivers, rfl, hdrivers, rfl⟩ |
    ⟨q, rideId, payload, rides, rfl, hrides, rfl⟩ | ⟨q, payload, key, creates, rfl, hcreates, rfl⟩
  · obtain ⟨_, _, rfl⟩ := driver_begin hdrivers
    simp [ServerState.caller, ProtectedRequest.name, DriverState.at_]
  · obtain ⟨_, rfl⟩ := step_begin hrides
    simp [ServerState.caller, ProtectedRequest.name, RideState.at_]
  · obtain ⟨_, _, _, rfl⟩ := create_begin hcreates
    simp [ServerState.caller, ProtectedRequest.name, CreateState.at_]

/-- **Nobody acts without having logged in.**  Where clients present only tokens that
they got in an answer, or that are signed with no key, everybody whom the database and
Redis name has logged in with a password of its own, and a request that arrives is
refused, or it is served for a user who has logged in and whom an access token was handed
out for that has not outlived its time. -/
theorem nobody_acts_without_login (husers : Distinguished users)
    (hdecode : ReadsOwnTokens fns lifetime)
    (h : Steps (serverSystem cfg fns) (presentable fns) (.init users) acts s) :
    s.data.Names (s.Knows fns) ∧
    ∀ request token t, Presentable fns s token →
      serverStep cfg fns s (.arrive request token) = some t →
      (t.refused request.name).isSome = true ∨
        ∃ user, t.caller request.name = some user ∧ s.Knows fns user.id ∧
          s.InSession fns lifetime user := by
  have hvouched := run_vouched husers hdecode h
  have hfree : Steps (serverSystem cfg fns) free (.init users) acts s := h.mono fun _ _ _ => trivial
  have hdistinct := (run_accountBooks husers hfree).users
  refine ⟨hvouched.names, fun request token t hpresent hstep => ?_⟩
  rcases server_arrive (server_cases hstep).2 with ⟨_, _, _, rfl⟩ | ⟨user, huser, hbegin⟩
  · exact Or.inl (by simp [ServerState.refuse])
  · exact Or.inr ⟨user, entered_caller hbegin,
      authenticated_session hdistinct hdecode hvouched hpresent huser⟩

end Server

/-- Access tokens of passenger 2 are read until time 900. -/
def sampleSession : ServerFunctions :=
  { sampleTown with
    decodeToken := fun now token =>
      if token = otherAccessToken ∧ now < 900 then some ⟨some "access", some 2⟩ else none }

theorem sampleSession_readsOwnTokens : ReadsOwnTokens sampleSession 900 := by
  intro u role issuedAt now claims hclaims
  have hdecoded : (if sampleAccountFunctions.createAccessToken u role issuedAt = otherAccessToken ∧
      now < 900 then some (⟨some "access", some 2⟩ : Claims) else none) = some claims :=
    hclaims
  split at hdecoded
  case isTrue hlives =>
      have hother : sampleAccountFunctions.createAccessToken 2 .passenger 0 =
          otherAccessToken := by decide +kernel
      obtain rfl := Option.some.inj hdecoded
      have huser := sampleAccountFunctions_subject u 2 role .passenger issuedAt 0
        (hlives.1.trans hother.symm)
      exact ⟨congrArg some huser.symm, hlives.2.le.trans (Nat.le_add_left _ _)⟩
  case isFalse => cases hdecoded

theorem horse_password : 8 ≤ "correcthorse".length ∧ "correcthorse".length ≤ 128 := by decide

/-- Passenger 2 registers, logs in and creates a ride. -/
def loggingIn : List ServerAction :=
  [.register (.begin 0 (sampleRegister "b@example.com" "correcthorse" horse_password)),
    .register (.select 0), .register (.insert 0 2 "salt"), .register (.commit 0),
    .auth (.begin 0 (.login "b@example.com" "correcthorse")), .auth (.check 0 (sampleRaw 0)),
    .auth (.commit 0), .arrive (.createRide ⟨2, 0⟩ sampleBody none) otherAccessToken,
    .create (.lookup ⟨2, 0⟩), .create (.insert ⟨2, 0⟩ 0), .create (.commit ⟨2, 0⟩)]

/-- Tokens are presented that the answer of request 0 holds. -/
def presentsAnswered (s : ServerState) : ServerAction → Bool
  | .arrive _ token =>
      match s.accounts.auth.requests 0 with
      | some (_, .answered (.issued response)) => response.accessToken = token
      | _ => false
  | _ => true

theorem presentsAnswered_presentable {fns : ServerFunctions} {s : ServerState} {a : ServerAction}
    (h : presentsAnswered s a = true) : presentable fns s a := by
  rintro request token rfl
  unfold presentsAnswered at h
  dsimp only at h
  split at h
  case h_1 sent response hreq => exact Or.inl ⟨0, sent, response, of_decide_eq_true h, hreq⟩
  case h_2 => cases h

/-- Its second ride is asked for in the session that began with the login. -/
theorem passenger_logs_in_first : ∃ s t user,
    Steps (serverSystem {} sampleSession) (presentable sampleSession) (.init []) loggingIn s ∧
    serverStep {} sampleSession s (.arrive (.createRide ⟨2, 1⟩ sampleBody none)
      otherAccessToken) = some t ∧
    t.caller (.create ⟨2, 1⟩) = some user ∧ s.Knows sampleSession user.id ∧
    s.InSession sampleSession 900 user := by
  have hreplay : (execWhere (serverSystem {} sampleSession) (fun s a => presentsAnswered s a)
      (.init []) loggingIn).any (fun s => presentsAnswered s
          (.arrive (.createRide ⟨2, 1⟩ sampleBody none) otherAccessToken) = true ∧
        (serverStep {} sampleSession s (.arrive (.createRide ⟨2, 1⟩ sampleBody none)
          otherAccessToken)).any (fun t => (t.refused (.create ⟨2, 1⟩)).isSome = false)) =
      true := by decide +kernel
  obtain ⟨s, hrun, hs⟩ := Steps.of_execWhere_any hreplay
  obtain ⟨hanswered, hstep⟩ := of_decide_eq_true hs
  obtain ⟨t, hstep, hin⟩ := (Option.any_eq_true _ _).mp hstep
  have hpresentable : Steps (serverSystem {} sampleSession) (presentable sampleSession)
      (.init []) loggingIn s := hrun.mono fun _ _ hok => presentsAnswered_presentable hok
  have hpresent : Presentable sampleSession s otherAccessToken :=
    presentsAnswered_presentable hanswered _ _ rfl
  rcases (nobody_acts_without_login ⟨by simp, by simp⟩ sampleSession_readsOwnTokens
    hpresentable).2 _ _ t hpresent hstep with hrefused | ⟨user, huser, hknows, hsession⟩
  · simp [ProtectedRequest.name, of_decide_eq_true hin] at hrefused
  · exact ⟨s, t, user, hpresentable, hstep, huser, hknows, hsession⟩

end RideFlow
