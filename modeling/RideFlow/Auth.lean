import Mathlib.Logic.Function.Basic
import RideFlow.Library.Runs
import RideFlow.Models

/-!
# Concurrent logins, refreshes and logouts

`routers/auth.py` as the steps of many requests running at once.  A refresh
SELECTs the row of the presented token (`read`), checks it and adds a new row
to its session (`check`), and only its flush sends the UPDATE of `revoked`
(`update`), which names the row by its primary key: under READ COMMITTED it
waits for a row lock and then overwrites whatever it finds.  The INSERT of the
new row becomes visible with the COMMIT.

The password check, the signature of the access token and SHA-256 stay
parameters.  A row of `refresh_tokens` is named by its `token_hash`, which is
unique like its id.  Users are fixed: none of these requests writes them.
-/

namespace RideFlow

open Function

abbrev TokenHash := String
abbrev AuthId := Nat

/-- A row of `refresh_tokens`. -/
structure RefreshToken where
  userId : UserId
  tokenHash : TokenHash
  expiresAt : Timestamp
  revoked : Bool
  deriving DecidableEq, Repr

/-- `TokenResponse`. -/
structure TokenResponse where
  accessToken : String
  refreshToken : String
  deriving DecidableEq, Repr

/-- The functions of `security.py` that the handlers call. -/
structure SecurityFunctions where
  verifyPassword : String → String → Bool
  createAccessToken : UserId → UserRole → Timestamp → String
  hashRefreshToken : String → TokenHash

/-- The requests to `routers/auth.py` that deal with tokens. -/
inductive AuthRequest
  | login (email password : String)
  | refresh (refreshToken : String)
  | logout (refreshToken : String)
  deriving DecidableEq, Repr

/-- The answer of a request that issues tokens and the row in its session. -/
structure IssuedPair where
  response : TokenResponse
  row : RefreshToken
  deriving DecidableEq, Repr

/-- `_issue_token_pair`, with the random token that
`generate_refresh_token` draws. -/
def issueTokenPair (cfg : Settings) (fns : SecurityFunctions) (user : User) (raw : String)
    (now : Timestamp) : IssuedPair where
  response := ⟨fns.createAccessToken user.id user.role now, raw⟩
  row := {
    userId := user.id
    tokenHash := fns.hashRefreshToken raw
    expiresAt := now + cfg.refreshTokenExpireMinutes * 60
    revoked := false }

/-- How such a request is answered. -/
inductive AuthOutcome
  | issued (response : TokenResponse)
  | noContent
  | rejected (error : Rejection)
  | failed
  deriving DecidableEq, Repr

/-- Where a request stands.  `checking` is a refresh that has read its token.
In `revoking` the UPDATE of `revoked` is next, and in `holding` it was sent:
`replaced` is the row that it overwrote.  A login that is `issuing` and a
logout that is `leaving` have no row to update. -/
inductive AuthStage
  | starting
  | checking (stored : RefreshToken)
  | issuing (pair : IssuedPair)
  | revoking (stored : RefreshToken) (pair : Option IssuedPair)
  | holding (replaced : RefreshToken) (pair : Option IssuedPair)
  | leaving (stored : Option RefreshToken)
  | answered (outcome : AuthOutcome)
  deriving DecidableEq, Repr

/-- What a request did when it committed. -/
inductive AuthEvent
  | loggedIn (issued : RefreshToken)
  | refreshed (consumed : TokenHash) (issued : RefreshToken)
  | loggedOut (consumed : TokenHash)
  deriving DecidableEq, Repr

/-- The tables, the row locks and the requests.  `drawn` holds the hashes of
the tokens drawn so far; `history` is not stored anywhere, it remembers what
was committed, in the order of the COMMITs. -/
structure AuthState where
  users : List User
  tokens : TokenHash → Option RefreshToken
  locks : TokenHash → Option AuthId
  requests : AuthId → Option (AuthRequest × AuthStage)
  drawn : List TokenHash
  clock : Timestamp
  history : List AuthEvent

/-- The registered users, and no token. -/
def AuthState.init (users : List User) : AuthState where
  users := users
  tokens := fun _ => none
  locks := fun _ => none
  requests := fun _ => none
  drawn := []
  clock := 0
  history := []

/-- The steps of the requests; time passes. -/
inductive AuthAction
  | begin (q : AuthId) (request : AuthRequest)
  | read (q : AuthId)
  | check (q : AuthId) (raw : String)
  | update (q : AuthId)
  | commit (q : AuthId)
  | abort (q : AuthId)
  | advance (seconds : Nat)
  deriving DecidableEq, Repr

/-- The request that an action serves. -/
def AuthAction.request : AuthAction → Option AuthId
  | .begin q _ => some q
  | .read q => some q
  | .check q _ => some q
  | .update q => some q
  | .commit q => some q
  | .abort q => some q
  | .advance _ => none

/-- The checks of `login`. -/
def checkLogin (fns : SecurityFunctions) (users : List User) (email password : String) :
    Except Rejection User :=
  match users.find? fun user => user.email = email with
  | none => .error ⟨401, "Invalid email or password"⟩
  | some user =>
      if fns.verifyPassword password user.hashedPassword = false then
        .error ⟨401, "Invalid email or password"⟩
      else if user.isActive = false then .error ⟨403, "Account is disabled"⟩
      else .ok user

/-- The checks of `refresh` on the row that it has read. -/
def checkRefresh (users : List User) (stored : RefreshToken) (now : Timestamp) :
    Except Rejection User :=
  if stored.revoked then .error ⟨401, "Refresh token has been revoked"⟩
  else if stored.expiresAt < now then .error ⟨401, "Refresh token expired"⟩
  else
    match users.find? fun user => user.id = stored.userId with
    | none => .error ⟨401, "User not found or inactive"⟩
    | some user =>
        if user.isActive = false then .error ⟨401, "User not found or inactive"⟩
        else .ok user

/-- A refresh passes its checks with an unrevoked token of the user. -/
theorem checkRefresh_ok {users : List User} {stored : RefreshToken} {now : Timestamp}
    {user : User} (h : checkRefresh users stored now = .ok user) :
    stored.revoked = false ∧ user.id = stored.userId := by
  unfold checkRefresh at h
  split at h
  case isTrue => cases h
  case isFalse hvalid =>
      refine ⟨Bool.eq_false_iff.mpr hvalid, ?_⟩
      split at h
      case isTrue => cases h
      case isFalse =>
          split at h
          case h_1 => cases h
          case h_2 found hfound =>
              split at h
              case isTrue => cases h
              case isFalse =>
                  cases h
                  have hid := List.find?_some hfound
                  exact of_decide_eq_true hid

/-- `stored.revoked = True`. -/
def RefreshToken.revoke (row : RefreshToken) : RefreshToken := { row with revoked := true }

/-- What the COMMIT of a request that replaced a row adds to the history. -/
def heldEvent (replaced : RefreshToken) : Option IssuedPair → AuthEvent
  | some pair => .refreshed replaced.tokenHash pair.row
  | none => .loggedOut replaced.tokenHash

/-- The answer of a request that replaced a row. -/
def heldOutcome : Option IssuedPair → AuthOutcome
  | some pair => .issued pair.response
  | none => .noContent

/-- The rows after an INSERT, if there is one. -/
def insertToken (tokens : TokenHash → Option RefreshToken) :
    Option IssuedPair → TokenHash → Option RefreshToken
  | some pair => update tokens pair.row.tokenHash (some pair.row)
  | none => tokens

namespace AuthState

variable (s : AuthState)

/-- Put a request into a stage. -/
def at_ (q : AuthId) (request : AuthRequest) (stage : AuthStage) : AuthState :=
  { s with requests := update s.requests q (some (request, stage)) }

/-- End a transaction: its locks are released. -/
def finish (q : AuthId) (request : AuthRequest) (outcome : AuthOutcome) : AuthState :=
  { s.at_ q request (.answered outcome) with
    locks := fun token => if s.locks token = some q then none else s.locks token }

/-- The UPDATE of `revoked` was sent: the row is locked until the end. -/
def hold (q : AuthId) (request : AuthRequest) (replaced : RefreshToken)
    (pair : Option IssuedPair) : AuthState :=
  { s.at_ q request (.holding replaced pair) with
    locks := update s.locks replaced.tokenHash (some q) }

/-- COMMIT of a login. -/
def commitLogin (q : AuthId) (request : AuthRequest) (pair : IssuedPair) : AuthState :=
  { s.finish q request (.issued pair.response) with
    tokens := insertToken s.tokens (some pair)
    history := s.history ++ [.loggedIn pair.row] }

/-- COMMIT of a refresh or a logout that has updated its row. -/
def commitHeld (q : AuthId) (request : AuthRequest) (replaced : RefreshToken)
    (pair : Option IssuedPair) : AuthState :=
  { s.finish q request (heldOutcome pair) with
    tokens := insertToken (update s.tokens replaced.tokenHash (some replaced.revoke)) pair
    history := s.history ++ [heldEvent replaced pair] }

/-- COMMIT of a logout that had nothing to update. -/
def commitLeaving (q : AuthId) (request : AuthRequest) (stored : Option RefreshToken) :
    AuthState :=
  { s.finish q request .noContent with
    history := s.history ++ (stored.map fun row => .loggedOut row.tokenHash).toList }

end AuthState

/-- Where a logout goes after its SELECT: setting `revoked` on a row that has it
set changes nothing, and no UPDATE is sent. -/
def afterLogoutRead : Option RefreshToken → AuthStage
  | none => .leaving none
  | some row => if row.revoked then .leaving (some row) else .revoking row none

/-- What an action makes of the state; `none` where it cannot be taken. -/
def authStep (cfg : Settings) (fns : SecurityFunctions) (s : AuthState) :
    AuthAction → Option AuthState
  | .begin q request =>
      match s.requests q with
      | some _ => none
      | none => some (s.at_ q request .starting)
  | .read q =>
      match s.requests q with
      | some (.refresh raw, .starting) =>
          match s.tokens (fns.hashRefreshToken raw) with
          | none => some (s.finish q (.refresh raw)
              (.rejected ⟨401, "Invalid refresh token"⟩))
          | some stored => some (s.at_ q (.refresh raw) (.checking stored))
      | some (.logout raw, .starting) =>
          some (s.at_ q (.logout raw) (afterLogoutRead (s.tokens (fns.hashRefreshToken raw))))
      | _ => none
  | .check q raw =>
      match s.requests q with
      | some (.login email password, .starting) =>
          match checkLogin fns s.users email password with
          | .error e => some (s.finish q (.login email password) (.rejected e))
          | .ok user =>
              if fns.hashRefreshToken raw ∈ s.drawn then none
              else some { s.at_ q (.login email password)
                  (.issuing (issueTokenPair cfg fns user raw s.clock)) with
                drawn := fns.hashRefreshToken raw :: s.drawn }
      | some (request, .checking stored) =>
          match checkRefresh s.users stored s.clock with
          | .error e => some (s.finish q request (.rejected e))
          | .ok user =>
              if fns.hashRefreshToken raw ∈ s.drawn then none
              else some { s.at_ q request
                  (.revoking stored (some (issueTokenPair cfg fns user raw s.clock))) with
                drawn := fns.hashRefreshToken raw :: s.drawn }
      | _ => none
  | .update q =>
      match s.requests q with
      | some (request, .revoking stored pair) =>
          match s.tokens stored.tokenHash with
          | none => some (s.finish q request .failed)
          | some row =>
              -- the UPDATE waits for the row lock
              if s.locks stored.tokenHash = none then some (s.hold q request row pair)
              else none
      | _ => none
  | .commit q =>
      match s.requests q with
      | some (request, .issuing pair) => some (s.commitLogin q request pair)
      | some (request, .holding replaced pair) => some (s.commitHeld q request replaced pair)
      | some (request, .leaving stored) => some (s.commitLeaving q request stored)
      | _ => none
  | .abort q =>
      match s.requests q with
      | some (_, .answered _) => none
      | some (request, _) => some (s.finish q request .failed)
      | none => none
  | .advance seconds => some { s with clock := s.clock + seconds }

/-- The system of concurrent logins, refreshes and logouts. -/
def authSystem (cfg : Settings) (fns : SecurityFunctions) : Runs.System AuthState AuthAction :=
  ⟨authStep cfg fns⟩

/-! ### What each step did -/

section Inversion

variable {cfg : Settings} {fns : SecurityFunctions} {s t : AuthState} {q : AuthId}

/-- A request arrives under a new name. -/
theorem auth_begin {request : AuthRequest} (h : authStep cfg fns s (.begin q request) = some t) :
    s.requests q = none ∧ t = s.at_ q request .starting := by
  dsimp only [authStep] at h
  split at h
  case h_1 => cases h
  case h_2 hnone => exact ⟨hnone, (Option.some.inj h).symm⟩

/-- The SELECT of a refresh or a logout. -/
theorem auth_read (h : authStep cfg fns s (.read q) = some t) :
    ∃ raw,
      (s.requests q = some (.refresh raw, .starting) ∧
        (t = s.finish q (.refresh raw) (.rejected ⟨401, "Invalid refresh token"⟩) ∨
        ∃ stored, s.tokens (fns.hashRefreshToken raw) = some stored ∧
          t = s.at_ q (.refresh raw) (.checking stored))) ∨
      s.requests q = some (.logout raw, .starting) ∧
        t = s.at_ q (.logout raw) (afterLogoutRead (s.tokens (fns.hashRefreshToken raw))) := by
  dsimp only [authStep] at h
  split at h
  case h_1 raw hreq =>
      refine ⟨raw, Or.inl ⟨hreq, ?_⟩⟩
      split at h
      case h_1 => exact Or.inl (Option.some.inj h).symm
      case h_2 stored hstored => exact Or.inr ⟨stored, hstored, (Option.some.inj h).symm⟩
  case h_2 raw hreq => exact ⟨raw, Or.inr ⟨hreq, (Option.some.inj h).symm⟩⟩
  case h_3 => cases h

/-- A check rejects, or draws a fresh token for a user: the one who logs in, or
the one whose unrevoked token was read. -/
theorem auth_check {raw : String} (h : authStep cfg fns s (.check q raw) = some t) :
    (∃ request stage error, s.requests q = some (request, stage) ∧
      (∀ outcome, stage ≠ .answered outcome) ∧ t = s.finish q request (.rejected error)) ∨
    ∃ request stage user, s.requests q = some (request, stage) ∧
      fns.hashRefreshToken raw ∉ s.drawn ∧
      ((∃ email password, request = .login email password ∧ stage = .starting ∧
        t = { s.at_ q request (.issuing (issueTokenPair cfg fns user raw s.clock)) with
          drawn := fns.hashRefreshToken raw :: s.drawn }) ∨
      ∃ stored, stage = .checking stored ∧ stored.revoked = false ∧ user.id = stored.userId ∧
        t = { s.at_ q request
            (.revoking stored (some (issueTokenPair cfg fns user raw s.clock))) with
          drawn := fns.hashRefreshToken raw :: s.drawn }) := by
  dsimp only [authStep] at h
  split at h
  case h_1 email password hreq =>
      split at h
      case h_1 e _ =>
          exact Or.inl ⟨_, _, e, hreq, by simp, (Option.some.inj h).symm⟩
      case h_2 user _ =>
          split at h
          case isTrue => cases h
          case isFalse hfresh =>
              exact Or.inr ⟨_, _, user, hreq, hfresh,
                Or.inl ⟨email, password, rfl, rfl, (Option.some.inj h).symm⟩⟩
  case h_2 request stored hreq =>
      split at h
      case h_1 e _ =>
          exact Or.inl ⟨_, _, e, hreq, by simp, (Option.some.inj h).symm⟩
      case h_2 user huser =>
          split at h
          case isTrue => cases h
          case isFalse hfresh =>
              obtain ⟨hvalid, hid⟩ := checkRefresh_ok huser
              exact Or.inr ⟨_, _, user, hreq, hfresh,
                Or.inr ⟨stored, rfl, hvalid, hid, (Option.some.inj h).symm⟩⟩
  case h_3 => cases h

/-- The UPDATE of a token finds a row that nobody holds, or fails. -/
theorem auth_update (h : authStep cfg fns s (.update q) = some t) :
    ∃ request stored pair, s.requests q = some (request, .revoking stored pair) ∧
      (t = s.finish q request .failed ∨
      ∃ row, s.tokens stored.tokenHash = some row ∧ s.locks stored.tokenHash = none ∧
        t = s.hold q request row pair) := by
  dsimp only [authStep] at h
  split at h
  case h_1 request stored pair hreq =>
      refine ⟨request, stored, pair, hreq, ?_⟩
      split at h
      case h_1 => exact Or.inl (Option.some.inj h).symm
      case h_2 row hrow =>
          split at h
          case isTrue hfree => exact Or.inr ⟨row, hrow, hfree, (Option.some.inj h).symm⟩
          case isFalse => cases h
  case h_2 => cases h

/-- The COMMIT of a login, of a refresh or logout that holds its token, or of a logout
that changes nothing. -/
theorem auth_commit (h : authStep cfg fns s (.commit q) = some t) :
    ∃ request,
      (∃ pair, s.requests q = some (request, .issuing pair) ∧
        t = s.commitLogin q request pair) ∨
      (∃ replaced pair, s.requests q = some (request, .holding replaced pair) ∧
        t = s.commitHeld q request replaced pair) ∨
      ∃ stored, s.requests q = some (request, .leaving stored) ∧
        t = s.commitLeaving q request stored := by
  dsimp only [authStep] at h
  split at h
  case h_1 request pair hreq =>
      exact ⟨request, Or.inl ⟨pair, hreq, (Option.some.inj h).symm⟩⟩
  case h_2 request replaced pair hreq =>
      exact ⟨request, Or.inr (Or.inl ⟨replaced, pair, hreq, (Option.some.inj h).symm⟩)⟩
  case h_3 request stored hreq =>
      exact ⟨request, Or.inr (Or.inr ⟨stored, hreq, (Option.some.inj h).symm⟩)⟩
  case h_4 => cases h

/-- A request that is not answered can fail. -/
theorem auth_abort (h : authStep cfg fns s (.abort q) = some t) :
    ∃ request stage, s.requests q = some (request, stage) ∧
      (∀ outcome, stage ≠ .answered outcome) ∧ t = s.finish q request .failed := by
  dsimp only [authStep] at h
  split at h
  case h_1 => cases h
  case h_2 request stage hne hreq =>
      exact ⟨request, stage, hreq, hne, (Option.some.inj h).symm⟩
  case h_3 => cases h

/-- Time passes. -/
theorem auth_advance {seconds : Nat} (h : authStep cfg fns s (.advance seconds) = some t) :
    t = { s with clock := s.clock + seconds } :=
  (Option.some.inj h).symm

end Inversion

end RideFlow
