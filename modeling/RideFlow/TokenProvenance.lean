import Mathlib.Logic.Equiv.Basic
import RideFlow.Accounts
import RideFlow.TokenRotation

/-!
# Where refresh tokens come from

Every token is drawn by a request that has just passed its checks.  The state
is extended by a record of what each drawing request had checked (`Drawing`),
and the record is what the links of a chain are read from:

* `accounts_run_iff` -- the record changes nothing about the runs;
* `FromLogin` -- a chain of refreshes, each of a row drawn before, that begins
  with a login of the user;
* `tokens_descend_from_logins` -- every row has such a chain, `revoked` is set
  for good, and a client whose logins never present a password of `u` and whose
  refreshes never present a token of a row of `u`, save what it was answered,
  is answered with tokens of other users only.

The chains need no bookkeeping of their own length: a refresh extends the
chain of the row that it has read, and nothing that a chain is made of ever
disappears (`Grows`).
-/

namespace RideFlow

open Tables Function Runs

/-- What a request had checked when it drew its token. -/
inductive Warrant
  | login (email password : String)
  | refresh (presented : String) (stored : RefreshToken) (checkedAt : Timestamp)
  deriving DecidableEq, Repr

/-- A random token, the user it was issued to and why. -/
structure Drawing where
  raw : String
  user : User
  warrant : Warrant
  deriving DecidableEq, Repr

/-- The drawing that the check of a request makes, if it passes. -/
def AuthState.drawing (fns : SecurityFunctions) (s : AuthState) (q : AuthId) (raw : String) :
    Option Drawing :=
  match s.requests q with
  | some (.login email password, .starting) =>
      (checkLogin fns s.users email password).toOption.map fun user =>
        ⟨raw, user, .login email password⟩
  | some (.refresh presented, .checking stored) =>
      (checkRefresh s.users stored s.clock).toOption.map fun user =>
        ⟨raw, user, .refresh presented stored s.clock⟩
  | _ => none

/-- The accounts, with the drawing of each token; the record is stored
nowhere. -/
structure Traced where
  accounts : AccountState
  drawings : TokenHash → Option Drawing

def Traced.init (users : List User) : Traced := ⟨.init users, fun _ => none⟩

/-- The record after an action. -/
def Traced.record (fns : SecurityFunctions) (s : Traced) :
    AccountAction → TokenHash → Option Drawing
  | .auth (.check q raw) =>
      match s.accounts.auth.drawing fns q raw with
      | some drawing => update s.drawings (fns.hashRefreshToken raw) (some drawing)
      | none => s.drawings
  | _ => s.drawings

/-- A step of the accounts, with what a login or refresh drew on written down. -/
def tracedStep (cfg : Settings) (fns : AccountFunctions) (s : Traced) (a : AccountAction) :
    Option Traced :=
  (accountStep cfg fns s.accounts a).map fun accounts =>
    ⟨accounts, s.record fns.toSecurityFunctions a⟩

/-- The accounts, watched. -/
def tracedSystem (cfg : Settings) (fns : AccountFunctions) : System Traced AccountAction :=
  ⟨tracedStep cfg fns⟩

section Watching

variable {cfg : Settings} {fns : AccountFunctions} {users : List User}
  {acts : List AccountAction}

/-- A watched step is a step of the accounts. -/
theorem traced_step {s t : Traced} {a : AccountAction}
    (h : tracedStep cfg fns s a = some t) :
    accountStep cfg fns s.accounts a = some t.accounts := by
  obtain ⟨accounts, hstep, rfl⟩ := Option.map_eq_some_iff.mp h
  exact hstep

/-- **Watching disturbs nothing**: the runs of the accounts are what the
watched runs show of them. -/
theorem accounts_run_iff {accounts : AccountState} :
    Steps (accountSystem cfg fns) free (.init users) acts accounts ↔
      ∃ s, Steps (tracedSystem cfg fns) free (.init users) acts s ∧ s.accounts = accounts := by
  constructor
  · intro h
    induction h with
    | nil => exact ⟨.init users, .nil _, rfl⟩
    | @snoc mid after acts a _ _ hstep ih =>
        obtain ⟨s, hrun, rfl⟩ := ih
        have htraced : tracedStep cfg fns s a =
            some ⟨after, s.record fns.toSecurityFunctions a⟩ :=
          Option.map_eq_some_iff.mpr ⟨after, hstep, rfl⟩
        exact ⟨_, hrun.snoc trivial htraced, rfl⟩
  · rintro ⟨s, h, rfl⟩
    have hproject : Steps (accountSystem cfg fns) free (.init users) (acts.filterMap some)
        s.accounts :=
      h.project Traced.accounts some fun _ _ _ _ hstep => ⟨trivial, traced_step hstep⟩
    rwa [List.filterMap_some] at hproject

end Watching

/-- `token` was drawn before `later`. -/
def DrawnBefore (drawn : List TokenHash) (token later : TokenHash) : Prop :=
  ∃ newer older, drawn = newer ++ later :: older ∧ token ∈ older

/-- The token was drawn for `u` by a login that verified the password of `u`,
or by a refresh that presented the raw token of a row of `u` drawn before,
unrevoked as it was read and unexpired, which itself comes from a login of
`u`.  The account was active each time. -/
inductive FromLogin (fns : SecurityFunctions) (s : Traced) (u : UserId) : TokenHash → Prop
  | login {token : TokenHash} {raw email password : String} {user : User}
      (drawn : s.drawings token = some ⟨raw, user, .login email password⟩)
      (account : user ∈ s.accounts.auth.users) (id : user.id = u)
      (active : user.isActive = true) (address : user.email = email)
      (verified : fns.verifyPassword password user.hashedPassword = true) :
      FromLogin fns s u token
  | refresh {token : TokenHash} {raw presented : String} {user : User} {stored row : RefreshToken}
      {checkedAt : Timestamp} {older : Drawing}
      (drawn : s.drawings token = some ⟨raw, user, .refresh presented stored checkedAt⟩)
      (account : user ∈ s.accounts.auth.users) (id : user.id = u)
      (active : user.isActive = true) (owner : stored.userId = u)
      (unrevoked : stored.revoked = false) (unexpired : checkedAt ≤ stored.expiresAt)
      (present : s.accounts.auth.tokens stored.tokenHash = some row) (kept : row.userId = u)
      (before : DrawnBefore s.accounts.auth.drawn stored.tokenHash token)
      (secret : s.drawings stored.tokenHash = some older) (known : older.raw = presented)
      (link : FromLogin fns s u stored.tokenHash) : FromLogin fns s u token

/-- The client was answered with this refresh token. -/
def AuthState.Received (s : AuthState) (mine : AuthId → Prop) (raw : String) : Prop :=
  ∃ q request response, mine q ∧ s.requests q = some (request, .answered (.issued response)) ∧
    response.refreshToken = raw

/-- The requests of a client that knows neither the password of `u` nor a token
of `u`: no password that it logs in with is verified against the hash of `u`,
and no token that it refreshes is that of a row of `u`, unless it was answered
with it. -/
def ignorant (fns : SecurityFunctions) (u : UserId) (mine : AuthId → Prop) (s : Traced) :
    AccountAction → Prop
  | .auth (.check q _) => mine q →
      ∀ email password, s.accounts.auth.requests q = some (.login email password, .starting) →
        ∀ user ∈ s.accounts.auth.users, user.id = u →
          fns.verifyPassword password user.hashedPassword = false
  | .auth (.read q) => mine q →
      ∀ raw, s.accounts.auth.requests q = some (.refresh raw, .starting) →
        ∀ row, s.accounts.auth.tokens (fns.hashRefreshToken raw) = some row → row.userId = u →
          s.accounts.auth.Received mine raw
  | _ => True

/-! ### What never disappears -/

/-- Users, drawings and rows stay, a revoked row stays revoked, and tokens are
drawn one after the other. -/
structure Grows (s t : Traced) : Prop where
  users : ∀ user ∈ s.accounts.auth.users, user ∈ t.accounts.auth.users
  drawings : ∀ token d, s.drawings token = some d → t.drawings token = some d
  rows : ∀ token row, s.accounts.auth.tokens token = some row →
    ∃ row', t.accounts.auth.tokens token = some row' ∧ row'.userId = row.userId ∧
      (row.revoked = true → row'.revoked = true)
  drawn : ∃ newer, t.accounts.auth.drawn = newer ++ s.accounts.auth.drawn

theorem Grows.refl (s : Traced) : Grows s s where
  users := fun _ => id
  drawings := fun _ _ => id
  rows := fun _ row hrow => ⟨row, hrow, rfl, id⟩
  drawn := ⟨[], rfl⟩

theorem Grows.trans {s t u : Traced} (h₁ : Grows s t) (h₂ : Grows t u) : Grows s u where
  users := fun user huser => h₂.users user (h₁.users user huser)
  drawings := fun token d hd => h₂.drawings token d (h₁.drawings token d hd)
  rows := by
    intro token row hrow
    obtain ⟨mid, hmid, huser, hrevoked⟩ := h₁.rows token row hrow
    obtain ⟨row', hrow', huser', hrevoked'⟩ := h₂.rows token mid hmid
    exact ⟨row', hrow', huser'.trans huser, fun h => hrevoked' (hrevoked h)⟩
  drawn := by
    obtain ⟨newer, hnewer⟩ := h₁.drawn
    obtain ⟨newest, hnewest⟩ := h₂.drawn
    exact ⟨newest ++ newer, by rw [hnewest, hnewer, List.append_assoc]⟩

section Chains

variable {fns : SecurityFunctions} {s t : Traced} {u : UserId} {token : TokenHash}

/-- A chain stays a chain. -/
theorem FromLogin.grows (hgrows : Grows s t) (h : FromLogin fns s u token) :
    FromLogin fns t u token := by
  induction h with
  | login drawn account id active address verified =>
      exact .login (hgrows.drawings _ _ drawn) (hgrows.users _ account) id active address verified
  | refresh drawn account id active owner unrevoked unexpired present kept before secret known
      _ ih =>
      obtain ⟨row', hrow', huser', _⟩ := hgrows.rows _ _ present
      obtain ⟨newer, older, hdrawn, hmem⟩ := before
      obtain ⟨newest, hnewest⟩ := hgrows.drawn
      refine .refresh (hgrows.drawings _ _ drawn) (hgrows.users _ account) id active owner
        unrevoked unexpired hrow' (huser'.trans kept) ⟨newest ++ newer, older, ?_, hmem⟩
        (hgrows.drawings _ _ secret) known ih
      rw [hnewest, hdrawn, List.append_assoc]

end Chains

/-! ### What the checks establish -/

section Checks

variable {cfg : Settings} {fns : SecurityFunctions} {s t : AuthState} {q : AuthId} {raw : String}

/-- A login passes its checks with the password of an active user. -/
theorem checkLogin_ok {users : List User} {email password : String} {user : User}
    (h : checkLogin fns users email password = .ok user) :
    user ∈ users ∧ user.email = email ∧ user.isActive = true ∧
      fns.verifyPassword password user.hashedPassword = true := by
  unfold checkLogin at h
  split at h
  case h_1 => cases h
  case h_2 found hfound =>
      split at h
      case isTrue => cases h
      case isFalse hverified =>
          split at h
          case isTrue => cases h
          case isFalse hactive =>
              cases h
              have haddress := List.find?_some hfound
              exact ⟨List.mem_of_find?_eq_some hfound, of_decide_eq_true haddress,
                Bool.eq_true_of_not_eq_false hactive, Bool.eq_true_of_not_eq_false hverified⟩

/-- A refresh passes its checks while its token is unexpired and its user is
active. -/
theorem checkRefresh_active {users : List User} {stored : RefreshToken} {now : Timestamp}
    {user : User} (h : checkRefresh users stored now = .ok user) :
    user ∈ users ∧ user.isActive = true ∧ now ≤ stored.expiresAt := by
  unfold checkRefresh at h
  split at h
  case isTrue => cases h
  case isFalse =>
      split at h
      case isTrue => cases h
      case isFalse hexpired =>
          split at h
          case h_1 => cases h
          case h_2 found hfound =>
              split at h
              case isTrue => cases h
              case isFalse hactive =>
                  cases h
                  exact ⟨List.mem_of_find?_eq_some hfound,
                    Bool.eq_true_of_not_eq_false hactive, Nat.le_of_not_lt hexpired⟩

/-- What a request had checked when it drew. -/
def Drawing.Warranted (fns : SecurityFunctions) (s : AuthState) (q : AuthId) (d : Drawing) :
    Prop :=
  d.user ∈ s.users ∧ d.user.isActive = true ∧
    ((∃ email password, s.requests q = some (.login email password, .starting) ∧
      d.warrant = .login email password ∧ d.user.email = email ∧
      fns.verifyPassword password d.user.hashedPassword = true) ∨
    ∃ presented stored, s.requests q = some (.refresh presented, .checking stored) ∧
      d.warrant = .refresh presented stored s.clock ∧ stored.userId = d.user.id ∧
      stored.revoked = false ∧ s.clock ≤ stored.expiresAt)

/-- A check rejects and draws nothing, or draws a fresh token that is
warranted. -/
theorem auth_drawing (hreading : ∀ request stored, s.requests q = some (request, .checking stored) →
      ∃ presented, request = .refresh presented)
    (h : authStep cfg fns s (.check q raw) = some t) :
    (s.drawing fns q raw = none ∧ ∃ request error, t = s.finish q request (.rejected error)) ∨
    ∃ d request stage, s.drawing fns q raw = some d ∧ d.raw = raw ∧ d.Warranted fns s q ∧
      fns.hashRefreshToken raw ∉ s.drawn ∧ (∀ stored, stage ≠ .checking stored) ∧
      (∀ outcome, stage ≠ .answered outcome) ∧
      stage.pair = some (issueTokenPair cfg fns d.user raw s.clock) ∧
      t = { s.at_ q request stage with drawn := fns.hashRefreshToken raw :: s.drawn } := by
  dsimp only [authStep] at h
  split at h
  case h_1 email password hreq =>
      split at h
      case h_1 e herror =>
          refine Or.inl ⟨?_, _, e, (Option.some.inj h).symm⟩
          simp [AuthState.drawing, hreq, herror, Except.toOption]
      case h_2 user hok =>
          split at h
          case isTrue => cases h
          case isFalse hfresh =>
              obtain ⟨hmem, haddress, hactive, hverified⟩ := checkLogin_ok hok
              refine Or.inr ⟨⟨raw, user, .login email password⟩, _, _, ?_, rfl,
                ⟨hmem, hactive, Or.inl ⟨email, password, hreq, rfl, haddress, hverified⟩⟩,
                hfresh, (by simp), (by simp), rfl, (Option.some.inj h).symm⟩
              simp [AuthState.drawing, hreq, hok, Except.toOption]
  case h_2 request stored hreq =>
      obtain ⟨presented, rfl⟩ := hreading _ _ hreq
      split at h
      case h_1 e herror =>
          refine Or.inl ⟨?_, _, e, (Option.some.inj h).symm⟩
          simp [AuthState.drawing, hreq, herror, Except.toOption]
      case h_2 user hok =>
          split at h
          case isTrue => cases h
          case isFalse hfresh =>
              obtain ⟨hunrevoked, hid⟩ := checkRefresh_ok hok
              obtain ⟨hmem, hactive, hunexpired⟩ := checkRefresh_active hok
              refine Or.inr ⟨⟨raw, user, .refresh presented stored s.clock⟩, _, _, ?_, rfl,
                ⟨hmem, hactive, Or.inr ⟨presented, stored, hreq, rfl, hid.symm, hunrevoked,
                  hunexpired⟩⟩,
                hfresh, (by simp), (by simp), rfl, (Option.some.inj h).symm⟩
              simp [AuthState.drawing, hreq, hok, Except.toOption]
  case h_3 => cases h

end Checks

/-! ### One step keeps the chains -/

section Keep

variable {cfg : Settings} {fns : SecurityFunctions} {s t : AuthState} {a : AuthAction}

/-- What a step does to the rows: they stay, of the same user and revoked if
they were, and a new one is the one in the session of a request. -/
structure RowsKept (s t : AuthState) : Prop where
  stay : ∀ token row, s.tokens token = some row →
    ∃ row', t.tokens token = some row' ∧ row'.userId = row.userId ∧
      (row.revoked = true → row'.revoked = true)
  origin : ∀ token row, t.tokens token = some row →
    (∃ old, s.tokens token = some old ∧ old.userId = row.userId) ∨
      ∃ q request stage new, s.requests q = some (request, stage) ∧ stage.pair = some new ∧
        new.row.tokenHash = token ∧ new.row = row

theorem RowsKept.of_tokens (h : t.tokens = s.tokens) : RowsKept s t where
  stay := fun _ row hrow => ⟨row, h ▸ hrow, rfl, id⟩
  origin := fun _ row hrow => Or.inl ⟨row, h ▸ hrow, rfl⟩

theorem RowsKept.commitLogin (hbooks : TokenBooks s) {q : AuthId} {request : AuthRequest}
    {new : IssuedPair} (hreq : s.requests q = some (request, .issuing new)) :
    RowsKept s (s.commitLogin q request new) where
  stay := fun _ row hrow =>
    ⟨row, (update_of_ne (hbooks.unused hreq rfl hrow) _ _).trans hrow, rfl, id⟩
  origin := by
    intro token row hrow
    have hinserted : insertToken s.tokens (some new) token = some row := hrow
    rcases insertToken_some hinserted with ⟨new', hnew', rfl, rfl⟩ | hold
    · cases hnew'
      exact Or.inr ⟨q, request, _, new, hreq, rfl, rfl, rfl⟩
    · exact Or.inl ⟨row, hold, rfl⟩

theorem RowsKept.commitHeld (hbooks : TokenBooks s) {q : AuthId} {request : AuthRequest}
    {replaced : RefreshToken} {pair : Option IssuedPair}
    (hreq : s.requests q = some (request, .holding replaced pair)) :
    RowsKept s (s.commitHeld q request replaced pair) where
  stay := (commitHeld_frame hbooks hreq).grows
  origin := by
    intro token row hrow
    have hinserted : insertToken (update s.tokens replaced.tokenHash (some replaced.revoke)) pair
        token = some row := hrow
    rcases insertToken_some hinserted with ⟨new, rfl, rfl, rfl⟩ | hold
    · exact Or.inr ⟨q, request, _, new, hreq, rfl, rfl, rfl⟩
    · rcases update_some_iff.mp hold with ⟨rfl, rfl⟩ | ⟨_, hold⟩
      · obtain ⟨_, hreplaced, _⟩ := hbooks.rows q request _ hreq
        exact Or.inl ⟨replaced, hreplaced, rfl⟩
      · exact Or.inl ⟨row, hold, rfl⟩

/-- **What a step does to the rows**, to the users and to the drawn tokens. -/
theorem auth_rows (hbooks : TokenBooks s) (h : authStep cfg fns s a = some t) :
    RowsKept s t ∧ t.users = s.users ∧ ∃ newer, t.drawn = newer ++ s.drawn := by
  cases a with
  | begin q request =>
      obtain ⟨_, rfl⟩ := auth_begin h
      exact ⟨.of_tokens rfl, rfl, [], rfl⟩
  | read q =>
      obtain ⟨raw, ⟨_, rfl | ⟨stored, _, rfl⟩⟩ | ⟨_, rfl⟩⟩ := auth_read h
      · exact ⟨.of_tokens rfl, rfl, [], rfl⟩
      · exact ⟨.of_tokens rfl, rfl, [], rfl⟩
      · exact ⟨.of_tokens rfl, rfl, [], rfl⟩
  | check q raw =>
      rcases auth_check h with ⟨_, _, _, _, _, rfl⟩ | ⟨_, _, _, _, _, hcases⟩
      · exact ⟨.of_tokens rfl, rfl, [], rfl⟩
      · rcases hcases with ⟨_, _, _, _, rfl⟩ | ⟨_, _, _, _, rfl⟩
        · exact ⟨.of_tokens rfl, rfl, [fns.hashRefreshToken raw], rfl⟩
        · exact ⟨.of_tokens rfl, rfl, [fns.hashRefreshToken raw], rfl⟩
  | update q =>
      obtain ⟨_, stored, pair, _, rfl | ⟨row, _, _, rfl⟩⟩ := auth_update h
      · exact ⟨.of_tokens rfl, rfl, [], rfl⟩
      · exact ⟨.of_tokens rfl, rfl, [], rfl⟩
  | commit q =>
      obtain ⟨request, ⟨_, hreq, rfl⟩ | ⟨_, _, hreq, rfl⟩ | ⟨_, _, rfl⟩⟩ := auth_commit h
      · exact ⟨.commitLogin hbooks hreq, rfl, [], rfl⟩
      · exact ⟨.commitHeld hbooks hreq, rfl, [], rfl⟩
      · exact ⟨.of_tokens rfl, rfl, [], rfl⟩
  | abort q =>
      obtain ⟨_, _, _, _, rfl⟩ := auth_abort h
      exact ⟨.of_tokens rfl, rfl, [], rfl⟩
  | advance seconds =>
      obtain rfl := auth_advance h
      exact ⟨.of_tokens rfl, rfl, [], rfl⟩

/-- A request that has read its token is a refresh. -/
def ReadingRefreshes (fns : SecurityFunctions) (s : AuthState) : Prop :=
  ∀ q request stored, s.requests q = some (request, .checking stored) →
    ∃ presented, request = .refresh presented ∧ fns.hashRefreshToken presented = stored.tokenHash

/-- Where the stage that a step puts a request into comes from: a pair was in
its session or has just been drawn with a warrant, a row has just been read, and
an answer with tokens is that of a pair whose row is committed. -/
structure StageFrom (cfg : Settings) (fns : SecurityFunctions) (s t : AuthState) (a : AuthAction)
    (q : AuthId) (request : AuthRequest) (stage : AuthStage) : Prop where
  pair : ∀ new, stage.pair = some new →
    (∃ request' stage', s.requests q = some (request', stage') ∧ stage'.pair = some new) ∨
    ∃ d, a = .check q d.raw ∧ s.drawing fns q d.raw = some d ∧ d.Warranted fns s q ∧
      t.drawn = fns.hashRefreshToken d.raw :: s.drawn ∧
      new = issueTokenPair cfg fns d.user d.raw s.clock
  reading : ∀ stored, stage = .checking stored →
    ∃ raw, a = .read q ∧ request = .refresh raw ∧
      s.requests q = some (.refresh raw, .starting) ∧
      s.tokens (fns.hashRefreshToken raw) = some stored
  answered : ∀ response, stage = .answered (.issued response) →
    ∃ request' stage' new, s.requests q = some (request', stage') ∧ stage'.pair = some new ∧
      new.response = response ∧ t.tokens new.row.tokenHash = some new.row

/-- A stage without a pair, a row or an answer with tokens. -/
theorem StageFrom.bare {q : AuthId} {request : AuthRequest} {stage : AuthStage}
    (hpair : stage.pair = none) (hreading : ∀ stored, stage ≠ .checking stored)
    (hanswered : ∀ response, stage ≠ .answered (.issued response)) :
    StageFrom cfg fns s t a q request stage where
  pair := by
    intro new hnew
    rw [hpair] at hnew
    cases hnew
  reading := fun stored heq => absurd heq (hreading stored)
  answered := fun response heq => absurd heq (hanswered response)

/-- A logout reads no row to check and has no pair. -/
theorem StageFrom.logout {q : AuthId} {request : AuthRequest} (row : Option RefreshToken) :
    StageFrom cfg fns s t a q request (afterLogoutRead row) := by
  cases row with
  | none => exact .bare rfl (by simp [afterLogoutRead]) (by simp [afterLogoutRead])
  | some row =>
      cases hrevoked : row.revoked with
      | true =>
          have hstage : afterLogoutRead (some row) = .leaving (some row) := if_pos hrevoked
          rw [hstage]
          exact .bare rfl (by simp) (by simp)
      | false =>
          have hstage : afterLogoutRead (some row) = .revoking row none := by
            simp [afterLogoutRead, hrevoked]
          rw [hstage]
          exact .bare rfl (by simp) (by simp)

/-- The COMMIT of a session with a pair answers with it, its row committed. -/
theorem StageFrom.commit {q : AuthId} {request : AuthRequest} {stage : AuthStage}
    {outcome : AuthOutcome} {tokens : TokenHash → Option RefreshToken}
    (hreq : s.requests q = some (request, stage))
    (houtcome : outcome = heldOutcome stage.pair)
    (htokens : t.tokens = insertToken tokens stage.pair) :
    StageFrom cfg fns s t a q request (.answered outcome) where
  pair := fun _ hnew => by cases hnew
  reading := fun _ heq => by cases heq
  answered := by
    intro response heq
    obtain rfl := AuthStage.answered.inj heq
    cases hpair : stage.pair with
    | none =>
        rw [hpair] at houtcome
        cases houtcome
    | some new =>
        rw [hpair] at houtcome htokens
        refine ⟨request, stage, new, hreq, hpair, (AuthOutcome.issued.inj houtcome).symm, ?_⟩
        rw [htokens]
        exact update_self _ _ _

/-- **What a step does to the requests**: nothing, or it puts one of them into
a stage. -/
theorem auth_requests (hreading : ReadingRefreshes fns s) (h : authStep cfg fns s a = some t) :
    t.requests = s.requests ∨ ∃ q request stage,
      t.requests = update s.requests q (some (request, stage)) ∧
      StageFrom cfg fns s t a q request stage := by
  cases a with
  | begin q request =>
      obtain ⟨_, rfl⟩ := auth_begin h
      exact Or.inr ⟨q, request, _, rfl, .bare rfl (by simp) (by simp)⟩
  | read q =>
      obtain ⟨raw, ⟨hreq, rfl | ⟨stored, hstored, rfl⟩⟩ | ⟨_, rfl⟩⟩ := auth_read h
      · exact Or.inr ⟨q, _, _, rfl, .bare rfl (by simp) (by simp)⟩
      · refine Or.inr ⟨q, _, _, rfl, ?_, ?_, by simp⟩
        · exact fun _ hnew => by cases hnew
        · intro stored' heq
          cases heq
          exact ⟨raw, rfl, rfl, hreq, hstored⟩
      · exact Or.inr ⟨q, _, _, rfl, .logout _⟩
  | check q raw =>
      have hrefresh : ∀ request stored, s.requests q = some (request, .checking stored) →
          ∃ presented, request = .refresh presented := by
        intro request stored hreq
        obtain ⟨presented, hrequest, _⟩ := hreading q request stored hreq
        exact ⟨presented, hrequest⟩
      rcases auth_drawing hrefresh h with ⟨_, request, error, rfl⟩ |
        ⟨d, request, stage, hd, rfl, hwarrant, _, hchecking, hanswered, hpair, rfl⟩
      · exact Or.inr ⟨q, request, _, rfl, .bare rfl (by simp) (by simp)⟩
      · refine Or.inr ⟨q, request, stage, rfl, ?_, ?_, ?_⟩
        · intro new hnew
          refine Or.inr ⟨d, rfl, hd, hwarrant, rfl, ?_⟩
          exact Option.some.inj (hnew.symm.trans hpair)
        · exact fun stored heq => absurd heq (hchecking stored)
        · exact fun response heq => absurd heq (hanswered _)
  | update q =>
      obtain ⟨request, stored, pair, hreq, rfl | ⟨row, _, _, rfl⟩⟩ := auth_update h
      · exact Or.inr ⟨q, request, _, rfl, .bare rfl (by simp) (by simp)⟩
      · refine Or.inr ⟨q, request, _, rfl, ?_, by simp, by simp⟩
        exact fun new hnew => Or.inl ⟨request, _, hreq, hnew⟩
  | commit q =>
      obtain ⟨request, ⟨new, hreq, rfl⟩ | ⟨_, pair, hreq, rfl⟩ | ⟨_, _, rfl⟩⟩ := auth_commit h
      · exact Or.inr ⟨q, request, _, rfl, .commit hreq rfl rfl⟩
      · exact Or.inr ⟨q, request, _, rfl, .commit hreq rfl rfl⟩
      · exact Or.inr ⟨q, request, _, rfl, .bare rfl (by simp) (by simp)⟩
  | abort q =>
      obtain ⟨request, _, _, _, rfl⟩ := auth_abort h
      exact Or.inr ⟨q, request, _, rfl, .bare rfl (by simp) (by simp)⟩
  | advance seconds =>
      obtain rfl := auth_advance h
      exact Or.inl rfl

end Keep

/-! ### The record agrees with the rows -/

/-- What the record says of the rows and of the pairs in the sessions. -/
structure Traces (fns : SecurityFunctions) (s : Traced) : Prop where
  books : TokenBooks s.accounts.auth
  reading : ReadingRefreshes fns s.accounts.auth
  raws : ∀ token d, s.drawings token = some d →
    token ∈ s.accounts.auth.drawn ∧ fns.hashRefreshToken d.raw = token
  rows : ∀ token row, s.accounts.auth.tokens token = some row → FromLogin fns s row.userId token
  pairs : ∀ q request stage new, s.accounts.auth.requests q = some (request, stage) →
    stage.pair = some new → FromLogin fns s new.row.userId new.row.tokenHash

section Record

variable {cfg : Settings} {fns : AccountFunctions} {s t : Traced} {a : AccountAction}

/-- A step of a registration adds users; any other is a step of `Auth`. -/
theorem traced_cases (h : tracedStep cfg fns s a = some t) :
    (∃ b added, a = .register b ∧ t.drawings = s.drawings ∧
      t.accounts.auth = { s.accounts.auth with users := s.accounts.auth.users ++ added }) ∨
    ∃ b, a = .auth b ∧ t.drawings = s.record fns.toSecurityFunctions (.auth b) ∧
      authStep cfg fns.toSecurityFunctions s.accounts.auth b = some t.accounts.auth := by
  obtain ⟨accounts, haccounts, rfl⟩ := Option.map_eq_some_iff.mp h
  cases a with
  | register b =>
      obtain ⟨added, hauth⟩ := register_frame haccounts
      exact Or.inl ⟨b, added, rfl, rfl, hauth⟩
  | auth b =>
      obtain ⟨auth, hauth, rfl⟩ := account_auth haccounts
      exact Or.inr ⟨b, rfl, rfl, hauth⟩

/-- The record changes at the drawing of a fresh token only. -/
theorem record_cases (h : Traces fns.toSecurityFunctions s) {b : AuthAction} {auth : AuthState}
    (hstep : authStep cfg fns.toSecurityFunctions s.accounts.auth b = some auth) :
    s.record fns.toSecurityFunctions (.auth b) = s.drawings ∨
    ∃ q d, b = .check q d.raw ∧
      s.accounts.auth.drawing fns.toSecurityFunctions q d.raw = some d ∧
      fns.hashRefreshToken d.raw ∉ s.accounts.auth.drawn ∧
      auth.drawn = fns.hashRefreshToken d.raw :: s.accounts.auth.drawn ∧
      s.record fns.toSecurityFunctions (.auth b) =
        update s.drawings (fns.hashRefreshToken d.raw) (some d) := by
  cases b with
  | check q raw =>
      have hrefresh : ∀ request stored,
          s.accounts.auth.requests q = some (request, .checking stored) →
          ∃ presented, request = .refresh presented := by
        intro request stored hreq
        obtain ⟨presented, hrequest, _⟩ := h.reading q request stored hreq
        exact ⟨presented, hrequest⟩
      rcases auth_drawing hrefresh hstep with ⟨hnone, _⟩ |
        ⟨d, request, stage, hd, rfl, _, hfresh, _, _, _, rfl⟩
      · exact Or.inl (by simp [Traced.record, hnone])
      · exact Or.inr ⟨q, d, rfl, hd, hfresh, rfl, by simp [Traced.record, hd]⟩
  | begin _ _ => exact Or.inl rfl
  | read _ => exact Or.inl rfl
  | update _ => exact Or.inl rfl
  | commit _ => exact Or.inl rfl
  | abort _ => exact Or.inl rfl
  | advance _ => exact Or.inl rfl

/-- **Nothing that a chain is made of disappears.** -/
theorem step_grows (h : Traces fns.toSecurityFunctions s)
    (hstep : tracedStep cfg fns s a = some t) : Grows s t := by
  rcases traced_cases hstep with ⟨b, added, _, hdrawings, hauth⟩ | ⟨b, _, hdrawings, hauth⟩
  · constructor
    · intro user huser
      rw [hauth]
      exact List.mem_append_left _ huser
    · intro token d hd
      rw [hdrawings]
      exact hd
    · intro token row hrow
      rw [hauth]
      exact ⟨row, hrow, rfl, id⟩
    · exact ⟨[], by rw [hauth]; rfl⟩
  · obtain ⟨hrows, husers, hdrawn⟩ := auth_rows h.books hauth
    refine ⟨fun user huser => husers ▸ huser, ?_, hrows.stay, hdrawn⟩
    intro token d hd
    rw [hdrawings]
    rcases record_cases h hauth with hsame | ⟨_, d', _, _, hfresh, _, hupdate⟩
    · rw [hsame]
      exact hd
    · rw [hupdate]
      refine update_some_iff.mpr (Or.inr ⟨?_, hd⟩)
      rintro rfl
      exact hfresh (h.raws _ d hd).1

/-- What a chain ends in has been drawn. -/
theorem FromLogin.drawing {u : UserId} {token : TokenHash}
    (h : FromLogin fns.toSecurityFunctions s u token) : ∃ d, s.drawings token = some d := by
  cases h with
  | login drawn _ _ _ _ _ => exact ⟨_, drawn⟩
  | refresh drawn _ _ _ _ _ _ _ _ _ _ _ _ => exact ⟨_, drawn⟩

/-- **A warranted drawing extends a chain**, or begins one. -/
theorem FromLogin.of_warrant (hinj : Injective fns.hashRefreshToken)
    (h : Traces fns.toSecurityFunctions s) (hgrows : Grows s t) {q : AuthId} {d : Drawing}
    (hwarrant : d.Warranted fns.toSecurityFunctions s.accounts.auth q)
    (hdrawn : t.accounts.auth.drawn =
      fns.hashRefreshToken d.raw :: s.accounts.auth.drawn)
    (hd : t.drawings (fns.hashRefreshToken d.raw) = some d) :
    FromLogin fns.toSecurityFunctions t d.user.id (fns.hashRefreshToken d.raw) := by
  obtain ⟨raw, user, warrant⟩ := d
  obtain ⟨haccount, hactive, ⟨email, password, _, rfl, haddress, hverified⟩ |
    ⟨presented, stored, hreq, rfl, howner, hunrevoked, hunexpired⟩⟩ := hwarrant
  · exact .login hd (hgrows.users _ haccount) rfl hactive haddress hverified
  · -- the chain of the row that the refresh has read
    obtain ⟨row, hrow, huser, _⟩ := h.books.rows q _ _ hreq
    have hlink := h.rows _ _ hrow
    rw [huser, howner] at hlink
    obtain ⟨older, holder⟩ := hlink.drawing
    obtain ⟨_, hrequest, hpresented⟩ := h.reading q _ _ hreq
    cases hrequest
    have hknown : older.raw = presented := hinj ((h.raws _ _ holder).2.trans hpresented.symm)
    obtain ⟨row', hrow', huser', _⟩ := hgrows.rows _ _ hrow
    exact .refresh hd (hgrows.users _ haccount) rfl hactive howner hunrevoked hunexpired hrow'
      (huser'.trans (huser.trans howner)) ⟨[], _, hdrawn, (h.books.keyed _ _ hrow).2⟩
      (hgrows.drawings _ _ holder) hknown (hlink.grows hgrows)

/-- A registration keeps the record in agreement with the rows. -/
theorem Traces.register (h : Traces fns.toSecurityFunctions s) (hgrows : Grows s t)
    {added : List User} (hdrawings : t.drawings = s.drawings)
    (hauth : t.accounts.auth =
      { s.accounts.auth with users := s.accounts.auth.users ++ added }) :
    Traces fns.toSecurityFunctions t := by
  constructor
  · rw [hauth]
    exact ⟨h.books.keyed, h.books.rows, h.books.pairs, h.books.apart, h.books.consumed⟩
  · rw [hauth]
    exact h.reading
  · rw [hauth, hdrawings]
    exact h.raws
  · intro token row hrow
    rw [hauth] at hrow
    exact (h.rows token row hrow).grows hgrows
  · intro q request stage new hreq hnew
    rw [hauth] at hreq
    exact (h.pairs q request stage new hreq hnew).grows hgrows

/-- Any other step keeps the requests that read rows, -/
theorem Traces.reading_kept (h : Traces fns.toSecurityFunctions s) {b : AuthAction}
    (hauth : authStep cfg fns.toSecurityFunctions s.accounts.auth b = some t.accounts.auth) :
    ReadingRefreshes fns.toSecurityFunctions t.accounts.auth := by
  intro q request stored hreq
  rcases auth_requests h.reading hauth with hsame | ⟨p, request', stage, hmoved, hfrom⟩
  · rw [hsame] at hreq
    exact h.reading q request stored hreq
  · rw [hmoved] at hreq
    rcases update_some_iff.mp hreq with ⟨rfl, heq⟩ | ⟨_, hold⟩
    · cases heq
      obtain ⟨raw, _, hrequest, _, hstored⟩ := hfrom.reading stored rfl
      exact ⟨raw, hrequest, (h.books.keyed _ _ hstored).1.symm⟩
    · exact h.reading q request stored hold

/-- the hashes under which tokens are recorded, -/
theorem Traces.raws_kept (h : Traces fns.toSecurityFunctions s) {b : AuthAction}
    (hdrawings : t.drawings = s.record fns.toSecurityFunctions (.auth b))
    (hauth : authStep cfg fns.toSecurityFunctions s.accounts.auth b = some t.accounts.auth) :
    ∀ token d, t.drawings token = some d →
      token ∈ t.accounts.auth.drawn ∧ fns.hashRefreshToken d.raw = token := by
  obtain ⟨_, _, newer, hnewer⟩ := auth_rows h.books hauth
  have hold : ∀ token d, s.drawings token = some d →
      token ∈ t.accounts.auth.drawn ∧ fns.hashRefreshToken d.raw = token := by
    intro token d hd
    obtain ⟨hmem, hraw⟩ := h.raws token d hd
    exact ⟨hnewer ▸ List.mem_append_right _ hmem, hraw⟩
  intro token d hd
  rw [hdrawings] at hd
  rcases record_cases h hauth with hsame | ⟨_, d', _, _, _, hdrawn, hupdate⟩
  · rw [hsame] at hd
    exact hold token d hd
  · rw [hupdate] at hd
    rcases update_some_iff.mp hd with ⟨rfl, rfl⟩ | ⟨_, hd⟩
    · exact ⟨hdrawn ▸ List.mem_cons_self, rfl⟩
    · exact hold token d hd

/-- and the chains of the pairs in the sessions. -/
theorem Traces.pairs_kept (hinj : Injective fns.hashRefreshToken)
    (h : Traces fns.toSecurityFunctions s) (hgrows : Grows s t) {b : AuthAction}
    (hdrawings : t.drawings = s.record fns.toSecurityFunctions (.auth b))
    (hauth : authStep cfg fns.toSecurityFunctions s.accounts.auth b = some t.accounts.auth) :
    ∀ q request stage new, t.accounts.auth.requests q = some (request, stage) →
      stage.pair = some new →
      FromLogin fns.toSecurityFunctions t new.row.userId new.row.tokenHash := by
  intro q request stage new hreq hnew
  rcases auth_requests h.reading hauth with hsame | ⟨p, request', stage', hmoved, hfrom⟩
  · rw [hsame] at hreq
    exact (h.pairs q request stage new hreq hnew).grows hgrows
  · rw [hmoved] at hreq
    rcases update_some_iff.mp hreq with ⟨rfl, heq⟩ | ⟨_, hold⟩
    · cases heq
      rcases hfrom.pair new hnew with ⟨request', stage', hreq', hnew'⟩ |
        ⟨d, rfl, hd, hwarrant, hdrawn, rfl⟩
      · exact (h.pairs q request' stage' new hreq' hnew').grows hgrows
      · have hrecorded : t.drawings (fns.hashRefreshToken d.raw) = some d := by
          simp [hdrawings, Traced.record, hd]
        exact .of_warrant hinj h hgrows hwarrant hdrawn hrecorded
    · exact (h.pairs q request stage new hold hnew).grows hgrows

/-- **One step keeps the record in agreement with the rows.** -/
theorem step_traces (hinj : Injective fns.hashRefreshToken) (h : Traces fns.toSecurityFunctions s)
    (hstep : tracedStep cfg fns s a = some t) : Traces fns.toSecurityFunctions t := by
  have hgrows := step_grows h hstep
  rcases traced_cases hstep with ⟨_, _, _, hdrawings, hauth⟩ | ⟨b, _, hdrawings, hauth⟩
  · exact h.register hgrows hdrawings hauth
  · have hrows := (auth_rows h.books hauth).1
    refine ⟨step_tokenBooks h.books hauth, h.reading_kept hauth, h.raws_kept hdrawings hauth, ?_,
      h.pairs_kept hinj hgrows hdrawings hauth⟩
    intro token row hrow
    rcases hrows.origin token row hrow with ⟨old, hold, huser⟩ |
      ⟨q, request, stage, new, hreq, hnew, rfl, rfl⟩
    · exact huser ▸ (h.rows token old hold).grows hgrows
    · exact (h.pairs q request stage new hreq hnew).grows hgrows

end Record

/-! ### A client that knows nothing of a user -/

/-- The client `mine` has read no row of `u`, has no pair for `u` in a session
and was answered with tokens of other users only. -/
structure Uninvolved (cfg : Settings) (fns : SecurityFunctions) (u : UserId)
    (mine : AuthId → Prop) (s : AuthState) : Prop where
  reading : ∀ q request stored, mine q → s.requests q = some (request, .checking stored) →
    stored.userId ≠ u
  pairs : ∀ q request stage new, mine q → s.requests q = some (request, stage) →
    stage.pair = some new →
    ∃ user raw now, user.id ≠ u ∧ new = issueTokenPair cfg fns user raw now
  answered : ∀ q request response, mine q →
    s.requests q = some (request, .answered (.issued response)) →
    ∃ row role issuedAt, s.tokens (fns.hashRefreshToken response.refreshToken) = some row ∧
      row.userId ≠ u ∧ response.accessToken = fns.createAccessToken row.userId role issuedAt

section Client

variable {cfg : Settings} {fns : AccountFunctions} {s t : Traced} {a : AccountAction} {u : UserId}
  {mine : AuthId → Prop}

/-- What the client was answered with is still not for `u`. -/
theorem Uninvolved.answered_grows
    (h : Uninvolved cfg fns.toSecurityFunctions u mine s.accounts.auth) (hgrows : Grows s t)
    {q : AuthId} {request : AuthRequest} {response : TokenResponse} (hmine : mine q)
    (hreq : s.accounts.auth.requests q = some (request, .answered (.issued response))) :
    ∃ row role issuedAt,
      t.accounts.auth.tokens (fns.hashRefreshToken response.refreshToken) = some row ∧
      row.userId ≠ u ∧ response.accessToken = fns.createAccessToken row.userId role issuedAt := by
  obtain ⟨row, role, issuedAt, hrow, hother, haccess⟩ := h.answered q request response hmine hreq
  obtain ⟨row', hrow', huser, _⟩ := hgrows.rows _ _ hrow
  exact ⟨row', role, issuedAt, hrow', huser ▸ hother, huser ▸ haccess⟩

/-- A step that moves no request. -/
theorem Uninvolved.unmoved
    (h : Uninvolved cfg fns.toSecurityFunctions u mine s.accounts.auth) (hgrows : Grows s t)
    (hsame : t.accounts.auth.requests = s.accounts.auth.requests) :
    Uninvolved cfg fns.toSecurityFunctions u mine t.accounts.auth where
  reading := by
    rw [hsame]
    exact h.reading
  pairs := by
    rw [hsame]
    exact h.pairs
  answered := by
    intro q request response hmine hreq
    rw [hsame] at hreq
    exact h.answered_grows hgrows hmine hreq

/-- The row that a refresh of an ignorant client reads is not of `u`: it could
only be that of a token that the client was answered with. -/
theorem Uninvolved.read_other
    (h : Uninvolved cfg fns.toSecurityFunctions u mine s.accounts.auth) {q : AuthId}
    (hok : ignorant fns.toSecurityFunctions u mine s (.auth (.read q))) (hmine : mine q)
    {raw : String} (hstarting : s.accounts.auth.requests q = some (.refresh raw, .starting))
    {stored : RefreshToken}
    (hstored : s.accounts.auth.tokens (fns.hashRefreshToken raw) = some stored) :
    stored.userId ≠ u := by
  intro hmeet
  obtain ⟨_, _, response, hmine', hanswered, rfl⟩ := hok hmine raw hstarting stored hstored hmeet
  obtain ⟨row, _, _, hrow, hother, _⟩ := h.answered _ _ _ hmine' hanswered
  obtain rfl : stored = row := Option.some.inj (hstored.symm.trans hrow)
  exact hother hmeet

/-- What an ignorant client has a warrant for is not for `u`. -/
theorem Uninvolved.drawn_other
    (h : Uninvolved cfg fns.toSecurityFunctions u mine s.accounts.auth) {q : AuthId}
    {d : Drawing}
    (hok : ignorant fns.toSecurityFunctions u mine s (.auth (.check q d.raw))) (hmine : mine q)
    (hwarrant : d.Warranted fns.toSecurityFunctions s.accounts.auth q) : d.user.id ≠ u := by
  intro hmeet
  obtain ⟨haccount, _, ⟨email, password, hstarting, _, _, hverified⟩ |
    ⟨presented, stored, hchecking, _, howner, _, _⟩⟩ := hwarrant
  · have hwrong := hok hmine email password hstarting d.user haccount hmeet
    rw [hverified] at hwrong
    cases hwrong
  · exact h.reading q _ stored hmine hchecking (howner.trans hmeet)

/-- A step of an ignorant client, or of anybody else, that moves a request. -/
theorem Uninvolved.moved
    (h : Uninvolved cfg fns.toSecurityFunctions u mine s.accounts.auth) (hgrows : Grows s t)
    {b : AuthAction} (hok : ignorant fns.toSecurityFunctions u mine s (.auth b)) {p : AuthId}
    {request : AuthRequest} {stage : AuthStage}
    (hmoved : t.accounts.auth.requests =
      update s.accounts.auth.requests p (some (request, stage)))
    (hfrom : StageFrom cfg fns.toSecurityFunctions s.accounts.auth t.accounts.auth b p request
      stage) :
    Uninvolved cfg fns.toSecurityFunctions u mine t.accounts.auth where
  reading := by
    intro q request' stored hmine hreq
    rw [hmoved] at hreq
    rcases update_some_iff.mp hreq with ⟨rfl, heq⟩ | ⟨_, hold⟩
    · cases heq
      obtain ⟨raw, rfl, _, hstarting, hstored⟩ := hfrom.reading stored rfl
      exact h.read_other hok hmine hstarting hstored
    · exact h.reading q request' stored hmine hold
  pairs := by
    intro q request' stage' new hmine hreq hnew
    rw [hmoved] at hreq
    rcases update_some_iff.mp hreq with ⟨rfl, heq⟩ | ⟨_, hold⟩
    · cases heq
      rcases hfrom.pair new hnew with ⟨_, _, hreq', hnew'⟩ | ⟨d, rfl, _, hwarrant, _, rfl⟩
      · exact h.pairs q _ _ new hmine hreq' hnew'
      · exact ⟨d.user, d.raw, _, h.drawn_other hok hmine hwarrant, rfl⟩
    · exact h.pairs q request' stage' new hmine hold hnew
  answered := by
    intro q request' response hmine hreq
    rw [hmoved] at hreq
    rcases update_some_iff.mp hreq with ⟨rfl, heq⟩ | ⟨_, hold⟩
    · cases heq
      obtain ⟨_, _, new, hreq', hnew, rfl, hrow⟩ := hfrom.answered response rfl
      obtain ⟨user, raw, now, hother, rfl⟩ := h.pairs q _ _ new hmine hreq' hnew
      exact ⟨_, user.role, now, hrow, hother, rfl⟩
    · exact h.answered_grows hgrows hmine hold

/-- A step of an ignorant client, or of anybody else, leaves it uninvolved. -/
theorem step_uninvolved (h : Traces fns.toSecurityFunctions s)
    (hclient : Uninvolved cfg fns.toSecurityFunctions u mine s.accounts.auth)
    (hok : ignorant fns.toSecurityFunctions u mine s a)
    (hstep : tracedStep cfg fns s a = some t) :
    Uninvolved cfg fns.toSecurityFunctions u mine t.accounts.auth := by
  have hgrows := step_grows h hstep
  rcases traced_cases hstep with ⟨_, _, _, _, hauth⟩ | ⟨b, rfl, _, hauth⟩
  · exact hclient.unmoved hgrows (by rw [hauth])
  · rcases auth_requests h.reading hauth with hsame | ⟨p, request, stage, hmoved, hfrom⟩
    · exact hclient.unmoved hgrows hsame
    · exact hclient.moved hgrows hok hmoved hfrom

end Client

section Provenance

variable {cfg : Settings} {fns : AccountFunctions} {users : List User}
  {acts : List AccountAction} {s : Traced}

theorem traces_init : Traces fns.toSecurityFunctions (.init users) where
  books := by
    have hnil : Steps (authSystem {} fns.toSecurityFunctions) free (.init users) []
        (.init users) := .nil _
    exact token_books_kept hnil
  reading := fun _ _ _ hnone => by cases hnone
  raws := fun _ _ hnone => by cases hnone
  rows := fun _ _ hnone => by cases hnone
  pairs := fun _ _ _ _ hnone => by cases hnone

/-- The record agrees with the rows in every run. -/
theorem traces_kept (hinj : Injective fns.hashRefreshToken)
    (h : Steps (tracedSystem cfg fns) free (.init users) acts s) :
    Traces fns.toSecurityFunctions s :=
  h.invariant (Traces fns.toSecurityFunctions) traces_init
    fun _ _ _ hs _ hstep => step_traces hinj hs hstep

/-- **Refresh tokens descend from logins.**  Let the hash be injective and an
access token carry its subject.  Then in every run

* each row of a user has a chain of refreshes that begins with a login of that
  user;
* a row that is revoked stays revoked;
* a client that knows neither the password of `u` nor a token of `u` receives
  neither an access token nor a refresh token of `u`. -/
theorem tokens_descend_from_logins (hinj : Injective fns.hashRefreshToken)
    (hsubject : ∀ u v role role' now now',
      fns.createAccessToken u role now = fns.createAccessToken v role' now' → u = v)
    (h : Steps (tracedSystem cfg fns) free (.init users) acts s) :
    (∀ token row, s.accounts.auth.tokens token = some row →
      FromLogin fns.toSecurityFunctions s row.userId token) ∧
    (∀ more t, Steps (tracedSystem cfg fns) free s more t →
      ∀ token, s.accounts.auth.Revoked token → t.accounts.auth.Revoked token) ∧
    ∀ u mine, Steps (tracedSystem cfg fns) (ignorant fns.toSecurityFunctions u mine)
        (.init users) acts s →
      ∀ q request response, mine q →
        s.accounts.auth.requests q = some (request, .answered (.issued response)) →
        (∀ role now, response.accessToken ≠ fns.createAccessToken u role now) ∧
        ∃ row, s.accounts.auth.tokens (fns.hashRefreshToken response.refreshToken) = some row ∧
          row.userId ≠ u := by
  have htraces := traces_kept hinj h
  refine ⟨htraces.rows, ?_, ?_⟩
  · intro more t hmore token hrevoked
    have hgrows : Grows s t := hmore.along Grows .refl (fun _ _ _ => .trans)
      (Traces fns.toSecurityFunctions) htraces
      (fun _ _ _ hs _ hstep => step_traces hinj hs hstep)
      (fun _ _ _ hs _ hstep => step_grows hs hstep)
    obtain ⟨row, hrow, hset⟩ := hrevoked
    obtain ⟨row', hrow', _, hset'⟩ := hgrows.rows token row hrow
    exact ⟨row', hrow', hset' hset⟩
  · intro u mine hignorant q request response hmine hreq
    have hclient : Uninvolved cfg fns.toSecurityFunctions u mine s.accounts.auth := by
      refine hignorant.invariant_under (Traces fns.toSecurityFunctions)
        (fun s => Uninvolved cfg fns.toSecurityFunctions u mine s.accounts.auth)
        traces_init ⟨?_, ?_, ?_⟩
        (fun _ _ _ hs hstep => step_traces hinj hs hstep)
        (fun _ _ _ hs hJ hok hstep => step_uninvolved hs hJ hok hstep)
      · exact fun _ _ _ _ hnone => by cases hnone
      · exact fun _ _ _ _ _ hnone => by cases hnone
      · exact fun _ _ _ _ hnone => by cases hnone
    obtain ⟨row, role, issuedAt, hrow, hother, haccess⟩ :=
      hclient.answered q request response hmine hreq
    refine ⟨fun role' now heq => ?_, row, hrow, hother⟩
    exact hother (hsubject _ _ _ _ _ _ (haccess.symm.trans heq))

end Provenance

/-- A string of as many dots. -/
def dots (n : Nat) : String := String.ofList (List.replicate n '.')

theorem dots_injective : Injective dots := by
  intro m n h
  simpa [dots] using congrArg String.length h

/-- The hash of the second passenger's password, and its access token at time
0. -/
def otherHashedPassword : String :=
  "$2b$12$KIXhQvS0m1w8yqk3Rk0rAePjYw3m3mI2m0x1l9oK6c5J0yQf7bXyW"

def otherAccessToken : String :=
  "eyJhbGciOiJIUzI1NiIsInR5cCI6IkpXVCJ9." ++
  "eyJzdWIiOiIyIiwicm9sZSI6InBhc3NlbmdlciIsInR5cGUiOiJhY2Nlc3MiLCJleHAiOjkwMH0." ++
  "5bCRc6MpbuaP6-UKsIgB37oWhPLklkkkj7bnjbNBufE"

/-- The functions on two passwords, on the access tokens of passengers 1 and 2
and on `sampleTokens`: one-to-one, by swapping these values for others. -/
def sampleAccountFunctions : AccountFunctions where
  hashPassword := fun password _ =>
    if password = "supersecret1" then sampleAccount.hashedPassword else otherHashedPassword
  verifyPassword := fun plain hashed =>
    (plain = "supersecret1" ∧ hashed = sampleAccount.hashedPassword) ∨
      (plain = "correcthorse" ∧ hashed = otherHashedPassword)
  createAccessToken := fun id _ _ =>
    Equiv.swap (dots 1) (sampleSecurity.createAccessToken 1 .passenger 0)
      (Equiv.swap (dots 2) otherAccessToken (dots id))
  hashRefreshToken := fun raw =>
    Equiv.swap (sampleRaw 0) (sampleHash 0)
      (Equiv.swap (sampleRaw 1) (sampleHash 1) (Equiv.swap (sampleRaw 2) (sampleHash 2) raw))

theorem sampleAccountFunctions_injective : Injective sampleAccountFunctions.hashRefreshToken :=
  (Equiv.injective _).comp ((Equiv.injective _).comp (Equiv.injective _))

/-- The sample access tokens differ with their subjects. -/
theorem sampleAccountFunctions_subject (u v : UserId) (role role' : UserRole) (now now' : Timestamp)
    (h : sampleAccountFunctions.createAccessToken u role now =
      sampleAccountFunctions.createAccessToken v role' now') : u = v :=
  ((Equiv.injective _).comp ((Equiv.injective _).comp dots_injective)) h

/-- The body of a registration, with an address, a password and a name. -/
def sampleRegister (email password : String)
    (hpassword : 8 ≤ password.length ∧ password.length ≤ 128) : RegisterRequest :=
  ⟨email, password, "A", .passenger, hpassword, by decide⟩

/-- Two passengers register and log in; the first one refreshes, and requests 4
and 5, of the second one, try a wrong password and a made-up token. -/
def guessing : List AccountAction :=
  [.register (.begin 0 (sampleRegister "a@example.com" "supersecret1" (by decide))),
    .register (.begin 1 (sampleRegister "b@example.com" "correcthorse" (by decide))),
    .register (.select 0), .register (.select 1), .register (.insert 0 1 "salt"),
    .register (.insert 1 2 "salt"), .register (.commit 1), .register (.commit 0),
    .auth (.begin 0 (.login "a@example.com" "supersecret1")), .auth (.check 0 (sampleRaw 0)),
    .auth (.begin 3 (.login "b@example.com" "correcthorse")), .auth (.check 3 (sampleRaw 1)),
    .auth (.commit 0), .auth (.commit 3),
    .auth (.begin 1 (.refresh (sampleRaw 0))), .auth (.read 1), .auth (.check 1 (sampleRaw 2)),
    .auth (.begin 4 (.login "a@example.com" "correcthorse")), .auth (.check 4 "fresh"),
    .auth (.update 1), .auth (.commit 1),
    .auth (.begin 5 (.refresh "made-up")), .auth (.read 5)]

/-- The requests 3, 4 and 5 present nothing of user 1. -/
def presentsNothing (s : Traced) : AccountAction → Bool
  | .auth (.check q _) =>
      match s.accounts.auth.requests q with
      | some (.login _ password, .starting) => 3 ≤ q →
          s.accounts.auth.users.all fun user => user.id = 1 →
            sampleAccountFunctions.verifyPassword password user.hashedPassword = false
      | _ => true
  | .auth (.read q) =>
      match s.accounts.auth.requests q with
      | some (.refresh raw, .starting) => 3 ≤ q →
          (s.accounts.auth.tokens (sampleAccountFunctions.hashRefreshToken raw)).all fun row =>
            row.userId ≠ 1
      | _ => true
  | _ => true

theorem presentsNothing_ignorant {s : Traced} {a : AccountAction}
    (h : presentsNothing s a = true) :
    ignorant sampleAccountFunctions.toSecurityFunctions 1 (fun q => 3 ≤ q) s a := by
  match a, h with
  | .register _, _ => trivial
  | .auth (.begin _ _), _ => trivial
  | .auth (.update _), _ => trivial
  | .auth (.commit _), _ => trivial
  | .auth (.abort _), _ => trivial
  | .auth (.advance _), _ => trivial
  | .auth (.check q raw), h =>
      intro hmine email password hreq user huser hid
      simp only [presentsNothing, hreq, hmine, decide_eq_true_eq, List.all_eq_true, true_implies]
        at h
      exact h user huser hid
  | .auth (.read q), h =>
      intro hmine raw hreq row hrow hid
      simp [presentsNothing, hreq, hmine, hrow, hid] at h

/-- The token of the refresh descends from the login of passenger 1, and the
second passenger has received an access token of its own only. -/
theorem guesses_rejected : ∃ s,
    Steps (tracedSystem {} sampleAccountFunctions) free (.init []) guessing s ∧
    FromLogin sampleAccountFunctions.toSecurityFunctions s 1 (sampleHash 2) ∧
    ∃ request response,
      s.accounts.auth.requests 3 = some (request, .answered (.issued response)) ∧
      ∀ role now, response.accessToken ≠ sampleAccountFunctions.createAccessToken 1 role now := by
  have hreplay : (execWhere (tracedSystem {} sampleAccountFunctions) (fun s a => presentsNothing s a)
      (.init []) guessing).any (fun s =>
        (s.accounts.auth.tokens (sampleHash 2)).map RefreshToken.userId = some 1 ∧
        s.accounts.auth.requests 3 = some (.login "b@example.com" "correcthorse",
          .answered (.issued ⟨otherAccessToken, sampleRaw 1⟩))) = true := by decide +kernel
  obtain ⟨s, hrun, hs⟩ := Steps.of_execWhere_any hreplay
  obtain ⟨hrow, hanswered⟩ := of_decide_eq_true hs
  obtain ⟨row, hrow, huser⟩ := Option.map_eq_some_iff.mp hrow
  have hfree : Steps (tracedSystem {} sampleAccountFunctions) free (.init []) guessing s :=
    hrun.mono fun _ _ _ => trivial
  obtain ⟨hdescends, _, hclient⟩ :=
    tokens_descend_from_logins sampleAccountFunctions_injective sampleAccountFunctions_subject hfree
  refine ⟨s, hfree, huser ▸ hdescends _ row hrow, _, _, hanswered, ?_⟩
  have hignorant := hrun.mono fun _ _ => presentsNothing_ignorant
  exact (hclient 1 _ hignorant 3 _ _ (Nat.le_refl 3) hanswered).1

end RideFlow
