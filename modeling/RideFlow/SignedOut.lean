import RideFlow.Sessions

/-!
# Who has logged out is out

A user is *signed out* when all its refresh tokens are revoked or expired and no
request holds one that was read before, or a new pair of the user.  The second half
matters: a refresh checks the row that it has read, so one that read before the
logout still issues a pair after it.

From there, as long as nobody logs in as the user, nobody gets tokens of the user, the
user stays signed out, and when the lifetime of an access token is over no request is
served for the user (`signed_out_is_out`).
-/

namespace RideFlow

open Function Runs Tables

/-- A row that no refresh exchanges any more. -/
def RefreshToken.Dead (row : RefreshToken) (now : Timestamp) : Prop :=
  row.revoked = true ∨ row.expiresAt < now

/-- A stage without a living token of the user and without a pair of the user. -/
structure AuthStage.Without (u : UserId) (now : Timestamp) (stage : AuthStage) : Prop where
  reading : ∀ stored, stage = .checking stored → stored.userId = u → stored.Dead now
  pair : ∀ new, stage.pair = some new → new.row.userId ≠ u

/-- The tokens of the user are dead, and no request has any of them. -/
structure AuthState.SignedOut (s : AuthState) (u : UserId) : Prop where
  row : ∀ token row, s.tokens token = some row → row.userId = u → row.Dead s.clock
  stage : ∀ q request stage, s.requests q = some (request, stage) → stage.Without u s.clock

/-- Nobody logs in as the user: the password that is checked is not the user's. -/
def withoutLogin (fns : SecurityFunctions) (u : UserId) (s : AuthState) (a : AuthAction) : Prop :=
  ∀ q raw email password, a = .check q raw →
    s.requests q = some (.login email password, .starting) →
    ∀ user ∈ s.users, user.id = u → user.email = email →
      fns.verifyPassword password user.hashedPassword = false

/-- An answer with tokens was given before, or they are somebody else's. -/
def AnswersOthers (fns : SecurityFunctions) (u : UserId) (s t : AuthState) : Prop :=
  ∀ q request response, t.requests q = some (request, .answered (.issued response)) →
    s.requests q = some (request, .answered (.issued response)) ∨
      ∃ user ∈ t.users, user.id ≠ u ∧ AccessTokenOf fns t user response.accessToken

section Auth

variable {cfg : Settings} {fns : SecurityFunctions} {s t t' : AuthState} {a : AuthAction}
  {q : AuthId} {request : AuthRequest} {stage : AuthStage} {u : UserId} {now since : Timestamp}

/-- Dead is dead ever after. -/
theorem RefreshToken.Dead.later {row : RefreshToken} (h : row.Dead since) (hle : since ≤ now) :
    row.Dead now := by
  apply h.imp_right
  intro hexpired
  exact hexpired.trans_le hle

/-- What a stage is without it is without later on. -/
theorem AuthStage.Without.later (h : stage.Without u since) (hle : since ≤ now) :
    stage.Without u now where
  reading stored hstage huser := (h.reading stored hstage huser).later hle
  pair := h.pair

/-- A stage that holds neither a row to check nor a pair. -/
theorem AuthStage.Without.bare (hreading : ∀ stored, stage ≠ .checking stored)
    (hpair : stage.pair = none) : stage.Without u now where
  reading stored hstage := absurd hstage (hreading stored)
  pair new hnew := by
    rw [hpair] at hnew
    cases hnew

/-- A logout hands out nothing. -/
theorem AuthStage.Without.afterLogoutRead (found : Option RefreshToken) :
    (RideFlow.afterLogoutRead found).Without u now := by
  cases found with
  | none => exact .bare (by simp [RideFlow.afterLogoutRead]) rfl
  | some row =>
      unfold RideFlow.afterLogoutRead
      dsimp only
      split
      case isTrue => exact .bare (by simp) rfl
      case isFalse => exact .bare (by simp) rfl

/-- One request moves at its own time, and the rows of the user are dead. -/
theorem AuthState.SignedOut.move (h : s.SignedOut u) (hclock : t.clock = s.clock)
    (hreqs : t.requests = update s.requests q (some (request, stage)))
    (hrows : ∀ token row, t.tokens token = some row → row.userId = u → row.Dead s.clock)
    (hstage : stage.Without u s.clock) : t.SignedOut u := by
  constructor
  · rw [hclock]
    exact hrows
  · intro p request' stage' hp
    rw [hreqs] at hp
    rw [hclock]
    rcases update_some_iff.mp hp with ⟨_, hnew⟩ | ⟨_, hold⟩
    · cases hnew
      exact hstage
    · exact h.stage p request' stage' hold

/-- Rows stay dead when somebody else's row is added. -/
theorem insertToken_dead {tokens : TokenHash → Option RefreshToken} {pair : Option IssuedPair}
    (h : ∀ token row, tokens token = some row → row.userId = u → row.Dead now)
    (hpair : ∀ new, pair = some new → new.row.userId ≠ u) (token : TokenHash) (row : RefreshToken)
    (hrow : insertToken tokens pair token = some row) (huser : row.userId = u) :
    row.Dead now := by
  rcases insertToken_some hrow with ⟨new, hnew, _, rfl⟩ | hold
  · exact absurd huser (hpair new hnew)
  · exact h token row hold huser

/-- **One step keeps the user signed out**, unless it is a login of the user. -/
theorem step_signedOut (h : s.SignedOut u) (hok : withoutLogin fns u s a)
    (hstep : authStep cfg fns s a = some t) : t.SignedOut u := by
  cases a with
  | begin q request =>
      obtain ⟨_, rfl⟩ := auth_begin hstep
      exact h.move rfl rfl h.row (.bare (by simp) rfl)
  | read q =>
      obtain ⟨raw, ⟨_, rfl | ⟨stored, hrow, rfl⟩⟩ | ⟨_, rfl⟩⟩ := auth_read hstep
      · exact h.move rfl rfl h.row (.bare (by simp) rfl)
      · refine h.move rfl rfl h.row ⟨?_, by simp [AuthStage.pair]⟩
        intro stored' hstage huser
        cases hstage
        exact h.row _ stored hrow huser
      · exact h.move rfl rfl h.row (.afterLogoutRead _)
  | check q raw =>
      rcases auth_check_user hstep with ⟨_, _, _, _, _, rfl⟩ |
        ⟨_, _, user, hreq, hmem, ⟨email, password, rfl, rfl, hemail, hverified, rfl⟩ |
          ⟨stored, rfl, hid, hunrevoked, hunexpired, rfl⟩⟩
      · exact h.move rfl rfl h.row (.bare (by simp) rfl)
      · refine h.move rfl rfl h.row ⟨by simp, ?_⟩
        intro new hnew huser
        -- the pair is the user's only if the password was
        obtain rfl := Option.some.inj hnew
        have hfalse := hok q raw email password rfl hreq user hmem huser hemail
        rw [hverified] at hfalse
        cases hfalse
      · refine h.move rfl rfl h.row ⟨by simp, ?_⟩
        intro new hnew huser
        obtain rfl := Option.some.inj hnew
        -- a living row that was read is not the user's
        rcases (h.stage q _ _ hreq).reading stored rfl (hid.symm.trans huser) with
          hrevoked | hexpired
        · rw [hunrevoked] at hrevoked
          cases hrevoked
        · exact absurd hexpired (Nat.not_lt.mpr hunexpired)
  | update q =>
      obtain ⟨_, stored, pair, hreq, rfl | ⟨row, _, _, rfl⟩⟩ := auth_update hstep
      · exact h.move rfl rfl h.row (.bare (by simp) rfl)
      · exact h.move rfl rfl h.row ⟨by simp, (h.stage q _ _ hreq).pair⟩
  | commit q =>
      obtain ⟨_, ⟨pair, hreq, rfl⟩ | ⟨replaced, pair, hreq, rfl⟩ | ⟨_, _, rfl⟩⟩ := auth_commit hstep
      · exact h.move rfl rfl (insertToken_dead h.row (h.stage q _ _ hreq).pair)
          (.bare (by simp) rfl)
      · have hrevoked : ∀ token row, update s.tokens replaced.tokenHash (some replaced.revoke)
            token = some row → row.userId = u → row.Dead s.clock := by
          intro token row hrow huser
          rcases update_some_iff.mp hrow with ⟨_, rfl⟩ | ⟨_, hold⟩
          · exact Or.inl rfl
          · exact h.row token row hold huser
        exact h.move rfl rfl (insertToken_dead hrevoked (h.stage q _ _ hreq).pair)
          (.bare (by simp) rfl)
      · exact h.move rfl rfl h.row (.bare (by simp) rfl)
  | abort q =>
      obtain ⟨_, _, _, _, rfl⟩ := auth_abort hstep
      exact h.move rfl rfl h.row (.bare (by simp) rfl)
  | advance seconds =>
      obtain rfl := auth_advance hstep
      have hle : s.clock ≤ s.clock + seconds := Nat.le_add_right _ _
      exact ⟨fun token row hrow huser => (h.row token row hrow huser).later hle,
        fun p request stage hp => (h.stage p request stage hp).later hle⟩

/-- An answer with tokens is that of a pair. -/
theorem auth_issues {response : TokenResponse} (hstep : authStep cfg fns s a = some t)
    (hanswered : t.requests q = some (request, .answered (.issued response))) :
    s.requests q = some (request, .answered (.issued response)) ∨
      ∃ stage pair, s.requests q = some (request, stage) ∧ stage.pair = some pair ∧
        pair.response = response := by
  -- a step that moves a request to a stage that is no such answer gives none
  have hmoved : ∀ p request' stage', t.requests = update s.requests p (some (request', stage')) →
      (∀ response, stage' ≠ .answered (.issued response)) →
      s.requests q = some (request, .answered (.issued response)) := by
    intro p request' stage' hreqs hstage
    rw [hreqs] at hanswered
    rcases update_some_iff.mp hanswered with ⟨_, hnew⟩ | ⟨_, hold⟩
    · cases hnew
      exact absurd rfl (hstage response)
    · exact hold
  cases a with
  | begin p request' =>
      obtain ⟨_, rfl⟩ := auth_begin hstep
      exact Or.inl (hmoved p request' _ rfl (by simp))
  | read p =>
      obtain ⟨raw, ⟨_, rfl | ⟨stored, _, rfl⟩⟩ | ⟨_, rfl⟩⟩ := auth_read hstep
      · exact Or.inl (hmoved p _ _ rfl (by simp))
      · exact Or.inl (hmoved p _ _ rfl (by simp))
      · refine Or.inl (hmoved p _ _ rfl ?_)
        unfold afterLogoutRead
        split
        · simp
        · split
          · simp
          · simp
  | check p raw =>
      rcases auth_check hstep with ⟨request', _, _, _, _, rfl⟩ |
        ⟨request', _, _, _, _, ⟨_, _, _, _, rfl⟩ | ⟨_, _, _, _, rfl⟩⟩
      · exact Or.inl (hmoved p request' _ rfl (by simp))
      · exact Or.inl (hmoved p request' _ rfl (by simp))
      · exact Or.inl (hmoved p request' _ rfl (by simp))
  | update p =>
      obtain ⟨request', _, _, _, rfl | ⟨_, _, _, rfl⟩⟩ := auth_update hstep
      · exact Or.inl (hmoved p request' _ rfl (by simp))
      · exact Or.inl (hmoved p request' _ rfl (by simp))
  | commit p =>
      obtain ⟨request', ⟨pair, hreq, rfl⟩ | ⟨replaced, pair, hreq, rfl⟩ | ⟨_, _, rfl⟩⟩ :=
        auth_commit hstep
      · rcases update_some_iff.mp hanswered with ⟨rfl, hnew⟩ | ⟨_, hold⟩
        · cases hnew
          exact Or.inr ⟨_, pair, hreq, rfl, rfl⟩
        · exact Or.inl hold
      · rcases update_some_iff.mp hanswered with ⟨rfl, hnew⟩ | ⟨_, hold⟩
        · cases pair with
          | none => cases hnew
          | some issued =>
              cases hnew
              exact Or.inr ⟨_, issued, hreq, rfl, rfl⟩
        · exact Or.inl hold
      · exact Or.inl (hmoved p request' _ rfl (by simp))
  | abort p =>
      obtain ⟨request', _, _, _, rfl⟩ := auth_abort hstep
      exact Or.inl (hmoved p request' _ rfl (by simp))
  | advance _ =>
      obtain rfl := auth_advance hstep
      exact Or.inl hanswered

/-- A request that is there has been there before or begins. -/
theorem auth_entered (hstep : authStep cfg fns s a = some t)
    (hreq : t.requests q = some (request, stage)) :
    (∃ old, s.requests q = some old) ∨ ∃ begun, a = .begin q begun := by
  have hmoved : ∀ p entry entry', t.requests = update s.requests p (some entry) →
      s.requests p = some entry' → ∃ old, s.requests q = some old := by
    intro p entry entry' hreqs hbefore
    by_cases hp : q = p
    · exact ⟨entry', hp ▸ hbefore⟩
    · rw [hreqs, update_of_ne hp] at hreq
      exact ⟨_, hreq⟩
  cases a with
  | begin p begun =>
      obtain ⟨_, rfl⟩ := auth_begin hstep
      by_cases hp : q = p
      · exact Or.inr ⟨begun, hp ▸ rfl⟩
      · exact Or.inl ⟨_, (update_of_ne hp _ _).symm.trans hreq⟩
  | read p =>
      obtain ⟨raw, ⟨hbefore, rfl | ⟨stored, _, rfl⟩⟩ | ⟨hbefore, rfl⟩⟩ := auth_read hstep
      · exact Or.inl (hmoved p _ _ rfl hbefore)
      · exact Or.inl (hmoved p _ _ rfl hbefore)
      · exact Or.inl (hmoved p _ _ rfl hbefore)
  | check p raw =>
      rcases auth_check hstep with ⟨_, _, _, hbefore, _, rfl⟩ |
        ⟨_, _, _, hbefore, _, ⟨_, _, _, _, rfl⟩ | ⟨_, _, _, _, rfl⟩⟩
      · exact Or.inl (hmoved p _ _ rfl hbefore)
      · exact Or.inl (hmoved p _ _ rfl hbefore)
      · exact Or.inl (hmoved p _ _ rfl hbefore)
  | update p =>
      obtain ⟨_, _, _, hbefore, rfl | ⟨_, _, _, rfl⟩⟩ := auth_update hstep
      · exact Or.inl (hmoved p _ _ rfl hbefore)
      · exact Or.inl (hmoved p _ _ rfl hbefore)
  | commit p =>
      obtain ⟨_, ⟨_, hbefore, rfl⟩ | ⟨_, _, hbefore, rfl⟩ | ⟨_, hbefore, rfl⟩⟩ :=
        auth_commit hstep
      · exact Or.inl (hmoved p _ _ rfl hbefore)
      · exact Or.inl (hmoved p _ _ rfl hbefore)
      · exact Or.inl (hmoved p _ _ rfl hbefore)
  | abort p =>
      obtain ⟨_, _, hbefore, _, rfl⟩ := auth_abort hstep
      exact Or.inl (hmoved p _ _ rfl hbefore)
  | advance _ =>
      obtain rfl := auth_advance hstep
      exact Or.inl ⟨_, hreq⟩

/-- A pair that is held goes to whom it is for. -/
theorem AuthStage.Entitled.ownPair (h : stage.Entitled fns s request) {pair : IssuedPair}
    (hpair : stage.pair = some pair) : OwnPair fns s request pair := by
  cases stage with
  | issuing new =>
      obtain rfl := Option.some.inj hpair
      exact h
  | revoking _ new => exact h pair hpair
  | holding _ new => exact h.2 pair hpair
  | _ => cases hpair

/-- The answers of one step are not the user's. -/
theorem step_answersOthers (hent : s.Entitles fns) (h : s.SignedOut u)
    (hstep : authStep cfg fns s a = some t) : AnswersOthers fns u s t := by
  intro q request response hanswered
  apply (auth_issues hstep hanswered).imp_right
  intro hissued
  obtain ⟨stage, pair, hreq, hpair, rfl⟩ := hissued
  obtain ⟨user, hmem, hrow, htoken, _⟩ := (hent.stage q request stage hreq).ownPair hpair
  have hother : user.id ≠ u := hrow ▸ (h.stage q request stage hreq).pair pair hpair
  have hon := auth_goesOn hstep
  exact ⟨user, hon.users hmem, hother, htoken.goesOn hon⟩

/-- Answers to others of one stretch and of the next are answers to others. -/
theorem AnswersOthers.trans (h : AnswersOthers fns u s t) (hon : GoesOn t t')
    (h' : AnswersOthers fns u t t') : AnswersOthers fns u s t' := by
  intro q request response hanswered
  rcases h' q request response hanswered with hbefore | hother
  · apply (h q request response hbefore).imp_right
    intro hother
    obtain ⟨user, hmem, hne, htoken⟩ := hother
    exact ⟨user, hon.users hmem, hne, htoken.goesOn hon⟩
  · exact Or.inr hother

end Auth

section Server

variable {cfg : Settings} {fns : ServerFunctions} {users : List User} {s t t' : ServerState}
  {a : ServerAction} {acts more : List ServerAction} {lifetime : Nat} {u : UserId}

/-- What a step of the server does to the sessions: a step of their own, or users are
added. -/
theorem server_sessions (hstep : serverStep cfg fns s a = some t) :
    (∃ added, t.accounts.auth =
      { s.accounts.auth with users := s.accounts.auth.users ++ added }) ∨
    ∃ b, (a = .auth b ∨ ∃ seconds, b = .advance seconds) ∧
      authStep cfg fns.toSecurityFunctions s.accounts.auth b = some t.accounts.auth := by
  have hsame : s.accounts.auth =
      { s.accounts.auth with users := s.accounts.auth.users ++ [] } := by simp
  have hmove := (server_cases hstep).2
  cases a with
  | arrive request token =>
      rcases server_arrive hmove with ⟨_, _, _, rfl⟩ | ⟨_, _, hbegin⟩
      · exact Or.inl ⟨[], hsame⟩
      · rcases enterHandler_cases hbegin with ⟨_, _, _, _, _, rfl⟩ | ⟨_, _, _, _, _, _, rfl⟩ |
          ⟨_, _, _, _, _, _, rfl⟩
        · exact Or.inl ⟨[], hsame⟩
        · exact Or.inl ⟨[], hsame⟩
        · exact Or.inl ⟨[], hsame⟩
  | register b =>
      obtain ⟨_, haccounts, rfl⟩ := server_register hmove
      exact Or.inl (register_frame haccounts)
  | auth b =>
      obtain ⟨_, _, hauth, rfl⟩ := server_auth hmove
      exact Or.inr ⟨b, Or.inl rfl, hauth⟩
  | driver _ =>
      obtain ⟨_, _, _, rfl⟩ := server_driver hmove
      exact Or.inl ⟨[], hsame⟩
  | ride _ =>
      obtain ⟨_, _, _, _, rfl⟩ := server_ride hmove
      exact Or.inl ⟨[], hsame⟩
  | create _ =>
      obtain ⟨_, _, _, rfl⟩ := server_create hmove
      exact Or.inl ⟨[], hsame⟩
  | advance seconds =>
      cases hmove
      exact Or.inr ⟨.advance seconds, Or.inr ⟨seconds, rfl⟩, rfl⟩

/-- New users change nothing for the old ones. -/
theorem users_goOn (s : AuthState) (added : List User) :
    GoesOn s { s with users := s.users ++ added } :=
  ⟨List.subset_append_left _ _, le_rfl, fun _ _ _ hreq => hreq⟩

/-- A step of the server goes on from the tokens that are there. -/
theorem server_goesOn (hstep : serverStep cfg fns s a = some t) :
    GoesOn s.accounts.auth t.accounts.auth := by
  rcases server_sessions hstep with ⟨added, hadded⟩ | ⟨b, _, hauth⟩
  · rw [hadded]
    exact users_goOn _ added
  · exact auth_goesOn hauth

/-- It keeps every stage entitled to what it holds. -/
theorem server_entitles (h : s.accounts.auth.Entitles fns.toSecurityFunctions)
    (hstep : serverStep cfg fns s a = some t) :
    t.accounts.auth.Entitles fns.toSecurityFunctions := by
  rcases server_sessions hstep with ⟨added, hadded⟩ | ⟨b, _, hauth⟩
  · rw [hadded]
    have hon := users_goOn s.accounts.auth added
    exact ⟨fun token row hrow => (h.row token row hrow).goesOn hon,
      fun q request stage hreq => (h.stage q request stage hreq).goesOn hon⟩
  · exact step_entitles h hauth

/-- So does a run. -/
theorem run_entitles (h : Steps (serverSystem cfg fns) free (.init users) acts s) :
    s.accounts.auth.Entitles fns.toSecurityFunctions :=
  h.invariant (fun s => s.accounts.auth.Entitles fns.toSecurityFunctions) (vouched_init users).auth
    fun _ _ _ hs _ hstep => server_entitles hs hstep

/-- Nobody logs in as the user at the server. -/
def withoutLoginOf (fns : ServerFunctions) (u : UserId) (s : ServerState) (a : ServerAction) :
    Prop :=
  ∀ b, a = .auth b → withoutLogin fns.toSecurityFunctions u s.accounts.auth b

/-- The user stays signed out, and what was answered since is not the user's. -/
structure ServerState.StaysOut (fns : ServerFunctions) (u : UserId) (s t : ServerState) :
    Prop where
  entitles : t.accounts.auth.Entitles fns.toSecurityFunctions
  signedOut : t.accounts.auth.SignedOut u
  answers : AnswersOthers fns.toSecurityFunctions u s.accounts.auth t.accounts.auth

/-- **One step of the server** keeps the user out. -/
theorem server_staysOut (h : s.StaysOut fns u t) (hok : withoutLoginOf fns u t a)
    (hstep : serverStep cfg fns t a = some t') : s.StaysOut fns u t' := by
  have hon := server_goesOn hstep
  have hent := server_entitles h.entitles hstep
  rcases server_sessions hstep with ⟨added, hadded⟩ | ⟨b, hb, hauth⟩
  · refine ⟨hent, ?_, h.answers.trans hon ?_⟩
    · rw [hadded]
      exact ⟨h.signedOut.row, h.signedOut.stage⟩
    · rw [hadded]
      exact fun q request response hanswered => Or.inl hanswered
  · have hwithout : withoutLogin fns.toSecurityFunctions u t.accounts.auth b := by
      rcases hb with hb | ⟨seconds, rfl⟩
      · exact hok b hb
      · intro q raw email password hcheck
        cases hcheck
    exact ⟨hent, step_signedOut h.signedOut hwithout hauth,
      h.answers.trans hon (step_answersOthers h.entitles h.signedOut hauth)⟩

/-- Old access tokens of the user are over, and nobody has new ones. -/
theorem staysOut_authenticated (hdecode : ReadsOwnTokens fns lifetime)
    (hstart : s.accounts.auth.Entitles fns.toSecurityFunctions) (h : s.StaysOut fns u t)
    (hover : s.accounts.auth.clock + lifetime < t.accounts.auth.clock)
    {request : ProtectedRequest} {token : String} {user : User}
    (hpresent : Presentable fns t token) (hauth : t.authenticated fns request token = .ok user) :
    user.id ≠ u := by
  obtain ⟨claims, hclaims, hsub⟩ := authenticated_claims hauth
  rcases hpresent with ⟨q, sent, response, rfl, hanswered⟩ | hunsigned
  · rcases h.answers q sent response hanswered with hbefore | ⟨owner, _, hne, issuedAt, _, htoken⟩
    · -- the token was issued before the user was signed out
      obtain ⟨owner, _, ⟨issuedAt, hissued, htoken⟩, _⟩ :=
        hstart.stage q sent _ hbefore response rfl
      rw [htoken] at hclaims
      have hlives := (hdecode _ _ _ _ _ hclaims).2
      have hend := hlives.trans (Nat.add_le_add_right hissued lifetime)
      exact absurd hover (Nat.not_lt.mpr hend)
    · rw [htoken] at hclaims
      have hid := Option.some.inj ((hdecode _ _ _ _ _ hclaims).1.symm.trans hsub)
      exact hid ▸ hne
  · rw [hunsigned] at hclaims
    cases hclaims

/-- **Who has logged out is out.**  From a state in which a user is signed out, as long
as nobody logs in with a password of the user:

* the user stays signed out, so each refresh of a token of the user is rejected;
* an answer with tokens that is given from then on has the access token of somebody
  else;
* when the lifetime of an access token is over, a request that arrives with a token that
  a client can have is refused, or it is served for somebody else. -/
theorem signed_out_is_out (hdecode : ReadsOwnTokens fns lifetime)
    (h : Steps (serverSystem cfg fns) free (.init users) acts s)
    (hout : s.accounts.auth.SignedOut u)
    (h' : Steps (serverSystem cfg fns) (withoutLoginOf fns u) s more t) :
    t.accounts.auth.SignedOut u ∧
    AnswersOthers fns.toSecurityFunctions u s.accounts.auth t.accounts.auth ∧
    (s.accounts.auth.clock + lifetime < t.accounts.auth.clock →
      ∀ request token t', Presentable fns t token →
        serverStep cfg fns t (.arrive request token) = some t' →
        (t'.refused request.name).isSome = true ∨
          ∃ user, t'.caller request.name = some user ∧ user.id ≠ u) := by
  have hstart := run_entitles h
  have hstays : s.StaysOut fns u t :=
    h'.invariant (s.StaysOut fns u) ⟨hstart, hout, fun _ _ _ hanswered => Or.inl hanswered⟩
      fun _ _ _ hs hok hstep => server_staysOut hs hok hstep
  refine ⟨hstays.signedOut, hstays.answers, ?_⟩
  intro hover request token t' hpresent hstep
  rcases server_arrive (server_cases hstep).2 with ⟨_, _, _, rfl⟩ | ⟨user, huser, hbegin⟩
  · exact Or.inl (by simp [ServerState.refuse])
  · exact Or.inr ⟨user, entered_caller hbegin,
      staysOut_authenticated hdecode hstart hstays hover hpresent huser⟩

/-- A registration leaves the books of the tokens as they are. -/
theorem TokenBooks.register {auth : AuthState} (h : TokenBooks auth) (added : List User) :
    TokenBooks { auth with users := auth.users ++ added } where
  keyed := h.keyed
  rows q request stage hreq := (h.rows q request stage hreq).same rfl rfl
  pairs := h.pairs
  apart := h.apart
  consumed := h.consumed

/-- The books of the tokens in every run of the server. -/
theorem run_tokenBooks (h : Steps (serverSystem cfg fns) free (.init users) acts s) :
    TokenBooks s.accounts.auth := by
  refine h.invariant (fun s => TokenBooks s.accounts.auth) ?_ ?_
  · have hbegin : Steps (authSystem cfg fns.toSecurityFunctions) free (.init users) []
        (.init users) := .nil _
    exact token_books_kept hbegin
  · intro s a t hbooks _ hstep
    rcases server_sessions hstep with ⟨added, hadded⟩ | ⟨b, _, hauth⟩
    · rw [hadded]
      exact hbooks.register added
    · exact step_tokenBooks hbooks hauth

/-- A login, refresh or logout that a state knows has begun. -/
theorem auth_begun {q : AuthId} {request : AuthRequest} {stage : AuthStage}
    (h : Steps (serverSystem cfg fns) free (.init users) acts s)
    (hreq : s.accounts.auth.requests q = some (request, stage)) :
    ∃ begun, ServerAction.auth (.begin q begun) ∈ acts := by
  refine h.history (fun acts s => ∀ q request stage,
    s.accounts.auth.requests q = some (request, stage) →
      ∃ begun, ServerAction.auth (.begin q begun) ∈ acts) ?_ ?_ q request stage hreq
  · intro q request stage hreq
    cases hreq
  · intro acts s a t _ ih _ hstep q request stage hreq
    have hold : ∀ old, s.accounts.auth.requests q = some old →
        ∃ begun, ServerAction.auth (.begin q begun) ∈ acts ++ [a] := by
      intro old hold
      obtain ⟨begun, hmem⟩ := ih q old.1 old.2 hold
      exact ⟨begun, List.mem_append_left _ hmem⟩
    rcases server_sessions hstep with ⟨added, hadded⟩ | ⟨b, hb, hauth⟩
    · rw [hadded] at hreq
      exact hold _ hreq
    · rcases auth_entered hauth hreq with ⟨old, hbefore⟩ | ⟨begun, rfl⟩
      · exact hold _ hbefore
      · rcases hb with rfl | ⟨_, hb⟩
        · exact ⟨begun, by simp⟩
        · cases hb

end Server

/-- The passenger logs out. -/
def loggingOut : List ServerAction :=
  loggingIn ++ [.auth (.begin 1 (.logout (sampleRaw 0))), .auth (.read 1), .auth (.update 1),
    .auth (.commit 1)]

/-- All rows are revoked, and these requests are answered. -/
def allOver (s : AuthState) (requests : List AuthId) : Bool :=
  (s.drawn.all fun token => (s.tokens token).all fun row => row.revoked) &&
    requests.all fun q => (s.requests q).all fun entry =>
      match entry.2 with
      | .answered _ => true
      | _ => false

/-- When all requests are over nobody holds a pair. -/
theorem allOver_signedOut {cfg : Settings} {fns : ServerFunctions} {users : List User}
    {acts : List ServerAction} {s : ServerState} {requests : List AuthId} (u : UserId)
    (h : Steps (serverSystem cfg fns) free (.init users) acts s)
    (hlisted : ∀ q begun, ServerAction.auth (.begin q begun) ∈ acts → q ∈ requests)
    (hover : allOver s.accounts.auth requests = true) : s.accounts.auth.SignedOut u := by
  obtain ⟨hrows, hanswered⟩ := Bool.and_eq_true_iff.mp hover
  constructor
  · intro token row hrow _
    have hdrawn := ((run_tokenBooks h).keyed token row hrow).2
    have hrevoked := List.all_eq_true.mp hrows token hdrawn
    rw [hrow] at hrevoked
    exact Or.inl hrevoked
  · intro q request stage hreq
    obtain ⟨begun, hmem⟩ := auth_begun h hreq
    have hstage := List.all_eq_true.mp hanswered q (hlisted q begun hmem)
    rw [hreq] at hstage
    cases stage with
    | answered outcome => exact .bare (by simp) rfl
    | _ => cases hstage

/-- The old refresh token is tried, and fifteen minutes pass. -/
def tryingLater : List ServerAction :=
  [.auth (.begin 2 (.refresh (sampleRaw 0))), .auth (.read 2), .auth (.check 2 (sampleRaw 1)),
    .advance 901]

/-- No password is checked. -/
def checksNoPassword (s : ServerState) : ServerAction → Bool
  | .auth (.check q _) =>
      match s.accounts.auth.requests q with
      | some (.login _ _, _) => false
      | _ => true
  | _ => true

/-- Where no password is checked nobody logs in. -/
theorem checksNoPassword_withoutLogin {fns : ServerFunctions} {u : UserId} {s : ServerState}
    {a : ServerAction} (h : checksNoPassword s a = true) : withoutLoginOf fns u s a := by
  intro b ha q raw email password hb hreq
  subst ha
  subst hb
  unfold checksNoPassword at h
  dsimp only at h
  rw [hreq] at h
  cases h

/-- The access token from before the logout is of no use then. -/
theorem logged_out_passenger_refused : ∃ s t t',
    Steps (serverSystem {} sampleSession) free (.init []) loggingOut s ∧
    Steps (serverSystem {} sampleSession) (withoutLoginOf sampleSession 2) s tryingLater t ∧
    (t.accounts.auth.requests 2).map Prod.snd =
      some (.answered (.rejected ⟨401, "Refresh token has been revoked"⟩)) ∧
    serverStep {} sampleSession t (.arrive (.createRide ⟨2, 1⟩ sampleBody none)
      otherAccessToken) = some t' ∧
    (t'.refused (.create ⟨2, 1⟩)).isSome = true := by
  have hreplay : (exec (serverSystem {} sampleSession) (.init []) loggingOut).any (fun s =>
      allOver s.accounts.auth [0, 1] = true ∧
      (execWhere (serverSystem {} sampleSession) (fun s a => checksNoPassword s a) s
        tryingLater).any (fun t =>
          s.accounts.auth.clock + 900 < t.accounts.auth.clock ∧
          (t.accounts.auth.requests 2).map Prod.snd =
            some (.answered (.rejected ⟨401, "Refresh token has been revoked"⟩)) ∧
          (t.accounts.auth.requests 0).map Prod.snd =
            some (.answered (.issued ⟨otherAccessToken, sampleRaw 0⟩)) ∧
          (serverStep {} sampleSession t (.arrive (.createRide ⟨2, 1⟩ sampleBody none)
            otherAccessToken)).any (fun t' => t'.caller (.create ⟨2, 1⟩) = none))) = true := by
    decide +kernel
  obtain ⟨s, hrun, hs⟩ := Steps.of_exec_any hreplay
  obtain ⟨hover, hlater⟩ := of_decide_eq_true hs
  obtain ⟨t, hmore, ht⟩ := Steps.of_execWhere_any hlater
  obtain ⟨hclock, hrejected, hanswered, hstep⟩ := of_decide_eq_true ht
  obtain ⟨t', hstep, hcaller⟩ := (Option.any_eq_true _ _).mp hstep
  have hwithout : Steps (serverSystem {} sampleSession) (withoutLoginOf sampleSession 2) s
      tryingLater t := hmore.mono fun _ _ hok => checksNoPassword_withoutLogin hok
  have hlisted : ∀ q begun, ServerAction.auth (.begin q begun) ∈ loggingOut → q ∈ [0, 1] := by
    intro q begun hmem
    simp [loggingOut, loggingIn] at hmem
    rcases hmem with ⟨rfl, _⟩ | ⟨rfl, _⟩
    · simp
    · simp
  have hpresent : Presentable sampleSession t otherAccessToken := by
    obtain ⟨⟨request, stage⟩, hreq, hstage⟩ := Option.map_eq_some_iff.mp hanswered
    cases hstage
    exact Or.inl ⟨0, request, _, rfl, hreq⟩
  have hout := allOver_signedOut 2 hrun hlisted hover
  rcases (signed_out_is_out sampleSession_readsOwnTokens hrun hout hwithout).2.2 hclock _ _ t'
    hpresent hstep with hrefused | ⟨user, huser, _⟩
  · exact ⟨s, t, t', hrun, hwithout, hrejected, hstep, hrefused⟩
  · rw [ProtectedRequest.name, of_decide_eq_true hcaller] at huser
    cases huser

end RideFlow
