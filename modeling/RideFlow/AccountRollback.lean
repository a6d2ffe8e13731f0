import RideFlow.Accounts
import RideFlow.Library.Erasure

/-!
# What a rejected account request leaves

`AuthState.without` and `AccountState.without` forget a set of requests: their
entries, and the row locks and emails that they hold.  For logins, refreshes
and logouts, and again for registrations:

* `*_without` -- what anybody else does is the same without them;
* `*_unseen` -- what one of them does is not seen until it is spent: it has
  drawn a token or an id, or it is past the point where it could be rejected;
* `*_spent` -- it then stays so.

A refresh whose handler has set `revoked` in memory and is rejected afterwards
has sent no UPDATE, since the session does not autoflush.
-/

namespace RideFlow

open Function Erasure

/-! ### Logins, refreshes and logouts -/

/-- The state without the requests that are gone. -/
def AuthState.without (gone : AuthId → Bool) (s : AuthState) : AuthState :=
  { s with
    requests := hide gone s.requests
    locks := unlock gone s.locks }

/-- No longer to be rejected. -/
def AuthStage.Spent : AuthStage → Prop
  | .starting => False
  | .checking _ => False
  | .answered (.rejected _) => False
  | _ => True

/-- It has drawn a token, or is past the point where it could be rejected. -/
def AuthState.Spent (s : AuthState) (q : AuthId) : Prop :=
  SpentAt (fun entry => entry.2.Spent) s.requests q

namespace AuthState

variable {gone : AuthId → Bool} {s : AuthState} {q : AuthId}

/-- There is nothing to forget where nothing was requested. -/
theorem without_quiet (hrequests : s.requests = fun _ => none) (hlocks : s.locks = fun _ => none) :
    s.without gone = s := by
  cases s
  subst hrequests hlocks
  simp only [without, hide_none, unlock_none]

/-- The users are those of the state. -/
@[simp] theorem without_users : (s.without gone).users = s.users := rfl

/-- So are the refresh tokens. -/
@[simp] theorem without_tokens : (s.without gone).tokens = s.tokens := rfl

/-- So are the hashes that were drawn. -/
@[simp] theorem without_drawn : (s.without gone).drawn = s.drawn := rfl

/-- So is the time. -/
@[simp] theorem without_clock : (s.without gone).clock = s.clock := rfl

/-- Requests that are not gone stand where they stood. -/
theorem without_requests (hq : gone q = false) : (s.without gone).requests q = s.requests q :=
  hide_apply hq

/-- A token that nobody holds is free. -/
theorem without_locks {token : TokenHash} (h : s.locks token = none) :
    (s.without gone).locks token = none :=
  unlock_apply h

/-- Another request moves on the same way. -/
theorem without_at_ (hq : gone q = false) (request : AuthRequest) (stage : AuthStage) :
    (s.at_ q request stage).without gone = (s.without gone).at_ q request stage := by
  simp only [without, at_, hide_update hq]

/-- It is answered the same. -/
theorem without_finish (hq : gone q = false) (request : AuthRequest) (outcome : AuthOutcome) :
    (s.finish q request outcome).without gone = (s.without gone).finish q request outcome := by
  simp only [without, finish, at_, hide_update hq, unlock_release hq]
  rfl

/-- It takes its lock the same way. -/
theorem without_hold (hq : gone q = false) (request : AuthRequest) (replaced : RefreshToken)
    (pair : Option IssuedPair) :
    (s.hold q request replaced pair).without gone =
      (s.without gone).hold q request replaced pair := by
  simp only [without, hold, at_, hide_update hq, unlock_update hq]

/-- So it moves on with the hash it has drawn. -/
theorem without_draw (hq : gone q = false) (request : AuthRequest) (stage : AuthStage)
    (drawn : List TokenHash) :
    ({ s.at_ q request stage with drawn := drawn } : AuthState).without gone =
      { (s.without gone).at_ q request stage with drawn := drawn } := by
  simp only [without, at_, hide_update hq]

/-- Its COMMIT of a login is the same. -/
theorem without_commitLogin (hq : gone q = false) (request : AuthRequest) (pair : IssuedPair) :
    (s.commitLogin q request pair).without gone =
      (s.without gone).commitLogin q request pair := by
  simp only [without, commitLogin, finish, at_, hide_update hq, unlock_release hq]
  rfl

/-- So is that of a refresh or a logout that holds its token. -/
theorem without_commitHeld (hq : gone q = false) (request : AuthRequest)
    (replaced : RefreshToken) (pair : Option IssuedPair) :
    (s.commitHeld q request replaced pair).without gone =
      (s.without gone).commitHeld q request replaced pair := by
  simp only [without, commitHeld, finish, at_, hide_update hq, unlock_release hq]
  rfl

/-- So is that of a logout that changes nothing. -/
theorem without_commitLeaving (hq : gone q = false) (request : AuthRequest)
    (stored : Option RefreshToken) :
    (s.commitLeaving q request stored).without gone =
      (s.without gone).commitLeaving q request stored := by
  simp only [without, commitLeaving, finish, at_, hide_update hq, unlock_release hq]
  rfl

/-- A request that is gone moves on unseen. -/
theorem without_gone_at (hq : gone q = true) (request : AuthRequest) (stage : AuthStage) :
    (s.at_ q request stage).without gone = s.without gone := by
  simp only [without, at_, hide_update_gone hq]

/-- So is its answer unseen. -/
theorem without_gone_finish (hq : gone q = true) (request : AuthRequest) (outcome : AuthOutcome) :
    (s.finish q request outcome).without gone = s.without gone := by
  simp only [without, finish, at_, hide_update_gone hq]
  exact congrArg (fun locks => { s.without gone with locks := locks }) (unlock_release_absent hq)

end AuthState

section Auth

variable {cfg : Settings} {fns : SecurityFunctions} {s t : AuthState} {a : AuthAction}
  {gone : AuthId → Bool} {p q : AuthId}

open AuthState

/-- What another request does is the same without those that are gone. -/
theorem auth_without (hother : ∀ q, a.request = some q → gone q = false)
    (h : authStep cfg fns s a = some t) :
    authStep cfg fns (s.without gone) a = some (t.without gone) := by
  cases a with
  | begin q request =>
      have hq := hother q rfl
      obtain ⟨hnone, rfl⟩ := auth_begin h
      simp [authStep, without_requests hq, hnone, without_at_ hq]
  | read q =>
      have hq := hother q rfl
      revert h
      simp only [authStep, without_requests hq, without_tokens]
      split
      · split
        · rintro ⟨⟩
          rw [without_finish hq]
        · rintro ⟨⟩
          rw [without_at_ hq]
      · rintro ⟨⟩
        rw [without_at_ hq]
      · rintro ⟨⟩
  | check q raw =>
      have hq := hother q rfl
      revert h
      simp only [authStep, without_requests hq, without_users, without_drawn, without_clock]
      split
      · split
        · rintro ⟨⟩
          rw [without_finish hq]
        · by_cases hfresh : fns.hashRefreshToken raw ∈ s.drawn
          · simp [hfresh]
          · simp only [hfresh, if_false]
            rintro ⟨⟩
            rw [without_draw hq]
      · split
        · rintro ⟨⟩
          rw [without_finish hq]
        · by_cases hfresh : fns.hashRefreshToken raw ∈ s.drawn
          · simp [hfresh]
          · simp only [hfresh, if_false]
            rintro ⟨⟩
            rw [without_draw hq]
      · rintro ⟨⟩
  | update q =>
      have hq := hother q rfl
      revert h
      simp only [authStep, without_requests hq, without_tokens]
      split
      · split
        · rintro ⟨⟩
          rw [without_finish hq]
        · intro h
          split at h
          case isTrue hfree =>
              cases h
              rw [if_pos (without_locks hfree), without_hold hq]
          case isFalse => cases h
      · rintro ⟨⟩
  | commit q =>
      have hq := hother q rfl
      revert h
      simp only [authStep, without_requests hq]
      split
      · rintro ⟨⟩
        rw [without_commitLogin hq]
      · rintro ⟨⟩
        rw [without_commitHeld hq]
      · rintro ⟨⟩
        rw [without_commitLeaving hq]
      · rintro ⟨⟩
  | abort q =>
      have hq := hother q rfl
      revert h
      simp only [authStep, without_requests hq]
      split
      · rintro ⟨⟩
      · rintro ⟨⟩
        rw [without_finish hq]
      · rintro ⟨⟩
  | advance seconds =>
      cases h
      rfl

/-- A request that is gone is not seen until it is spent. -/
theorem auth_unseen (hmine : a.request = some q) (hq : gone q = true)
    (h : authStep cfg fns s a = some t) : t.without gone = s.without gone ∨ t.Spent q := by
  cases a with
  | begin p request =>
      cases hmine
      obtain ⟨_, rfl⟩ := auth_begin h
      exact Or.inl (without_gone_at hq _ _)
  | read p =>
      cases hmine
      obtain ⟨raw, ⟨_, rfl | ⟨stored, _, rfl⟩⟩ | ⟨_, rfl⟩⟩ := auth_read h
      · exact Or.inl (without_gone_finish hq _ _)
      · exact Or.inl (without_gone_at hq _ _)
      · exact Or.inl (without_gone_at hq _ _)
  | check p raw =>
      cases hmine
      rcases auth_check h with ⟨_, _, _, _, _, rfl⟩ | ⟨_, _, _, _, _, hcases⟩
      · exact Or.inl (without_gone_finish hq _ _)
      · rcases hcases with ⟨_, _, _, _, rfl⟩ | ⟨_, _, _, _, rfl⟩
        · exact Or.inr (spentAt_update trivial)
        · exact Or.inr (spentAt_update trivial)
  | update p =>
      cases hmine
      obtain ⟨_, _, _, _, rfl | ⟨_, _, _, rfl⟩⟩ := auth_update h
      · exact Or.inr (spentAt_update trivial)
      · exact Or.inr (spentAt_update trivial)
  | commit p =>
      cases hmine
      obtain ⟨_, ⟨_, _, rfl⟩ | ⟨_, pair, _, rfl⟩ | ⟨_, _, rfl⟩⟩ := auth_commit h
      · exact Or.inr (spentAt_update trivial)
      · cases pair with
        | none => exact Or.inr (spentAt_update trivial)
        | some _ => exact Or.inr (spentAt_update trivial)
      · exact Or.inr (spentAt_update trivial)
  | abort p =>
      cases hmine
      obtain ⟨_, _, _, _, rfl⟩ := auth_abort h
      exact Or.inr (spentAt_update trivial)
  | advance seconds => cases hmine

/-- Only a request that is not spent is checked. -/
theorem check_unspent {raw : String} (h : authStep cfg fns s (.check q raw) = some t) :
    ∃ entry, s.requests q = some entry ∧ ¬ entry.2.Spent := by
  dsimp only [authStep] at h
  split at h
  case h_1 hreq => exact ⟨_, hreq, id⟩
  case h_2 hreq => exact ⟨_, hreq, id⟩
  case h_3 => cases h

/-- A spent request stays spent. -/
theorem auth_spent (hs : s.Spent p) (h : authStep cfg fns s a = some t) : t.Spent p := by
  cases a with
  | begin q request =>
      obtain ⟨hnone, rfl⟩ := auth_begin h
      exact SpentAt.insert hs hnone
  | read q =>
      obtain ⟨raw, ⟨hreq, rfl | ⟨stored, _, rfl⟩⟩ | ⟨hreq, rfl⟩⟩ := auth_read h
      · exact SpentAt.beside hs hreq id
      · exact SpentAt.beside hs hreq id
      · exact SpentAt.beside hs hreq id
  | check q raw =>
      obtain ⟨_, hreq, hunspent⟩ := check_unspent h
      rcases auth_check h with ⟨_, _, _, _, _, rfl⟩ | ⟨_, _, _, _, _, hcases⟩
      · exact SpentAt.beside hs hreq hunspent
      · rcases hcases with ⟨_, _, _, _, rfl⟩ | ⟨_, _, _, _, rfl⟩
        · exact SpentAt.update hs fun _ _ _ => trivial
        · exact SpentAt.update hs fun _ _ _ => trivial
  | update q =>
      obtain ⟨_, _, _, _, rfl | ⟨_, _, _, rfl⟩⟩ := auth_update h
      · exact SpentAt.update hs fun _ _ _ => trivial
      · exact SpentAt.update hs fun _ _ _ => trivial
  | commit q =>
      obtain ⟨_, ⟨_, _, rfl⟩ | ⟨_, pair, _, rfl⟩ | ⟨_, _, rfl⟩⟩ := auth_commit h
      · exact SpentAt.update hs fun _ _ _ => trivial
      · cases pair with
        | none => exact SpentAt.update hs fun _ _ _ => trivial
        | some _ => exact SpentAt.update hs fun _ _ _ => trivial
      · exact SpentAt.update hs fun _ _ _ => trivial
  | abort q =>
      obtain ⟨_, _, _, _, rfl⟩ := auth_abort h
      exact SpentAt.update hs fun _ _ _ => trivial
  | advance seconds =>
      obtain rfl := auth_advance h
      exact hs

end Auth

/-! ### Registrations -/

/-- The accounts without the requests that are gone. -/
def AccountState.without (goneAuth : AuthId → Bool) (gone : RegisterId → Bool)
    (s : AccountState) : AccountState :=
  { s with
    auth := s.auth.without goneAuth
    registers := hide gone s.registers
    taken := unlock gone s.taken }

/-- No longer to be rejected. -/
def RegisterStage.Spent : RegisterStage → Prop
  | .starting => False
  | .inserting => False
  | .answered (.rejected _) => False
  | _ => True

/-- It has drawn an id, and is past the point where it could be rejected. -/
def AccountState.Spent (s : AccountState) (q : RegisterId) : Prop :=
  SpentAt (fun entry => entry.2.Spent) s.registers q

namespace AccountState

variable {goneAuth : AuthId → Bool} {gone : RegisterId → Bool} {s : AccountState}
  {q : RegisterId}

/-- There is nothing to forget where nothing was requested. -/
theorem without_quiet (hauth : s.auth.without goneAuth = s.auth)
    (hregisters : s.registers = fun _ => none) (htaken : s.taken = fun _ => none) :
    s.without goneAuth gone = s := by
  cases s
  subst hregisters htaken
  simp only [without, hide_none, unlock_none]
  rw [hauth]

/-- The logins and tokens are those without the requests that are gone there. -/
@[simp] theorem without_auth : (s.without goneAuth gone).auth = s.auth.without goneAuth := rfl

/-- The ids that were drawn are those of the state. -/
@[simp] theorem without_drawnIds : (s.without goneAuth gone).drawnIds = s.drawnIds := rfl

/-- Registrations that are not gone stand where they stood. -/
theorem without_registers (hq : gone q = false) :
    (s.without goneAuth gone).registers q = s.registers q :=
  hide_apply hq

/-- An email that nobody holds is free. -/
theorem without_taken {email : String} (h : s.taken email = none) :
    (s.without goneAuth gone).taken email = none :=
  unlock_apply h

/-- Another registration moves on the same way. -/
theorem without_at_ (hq : gone q = false) (request : RegisterRequest) (stage : RegisterStage) :
    (s.at_ q request stage).without goneAuth gone =
      (s.without goneAuth gone).at_ q request stage := by
  simp only [without, at_, hide_update hq]

/-- It is answered the same. -/
theorem without_finish (hq : gone q = false) (request : RegisterRequest)
    (outcome : RegisterOutcome) :
    (s.finish q request outcome).without goneAuth gone =
      (s.without goneAuth gone).finish q request outcome := by
  simp only [without, finish, at_, hide_update hq, unlock_release hq]
  rfl

/-- It INSERTs its user the same way. -/
theorem without_flush (hq : gone q = false) (request : RegisterRequest) (user : User) :
    (s.flush q request user).without goneAuth gone =
      (s.without goneAuth gone).flush q request user := by
  simp only [without, flush, at_, hide_update hq, unlock_update hq]

/-- Its COMMIT is the same. -/
theorem without_commit (hq : gone q = false) (request : RegisterRequest) (user : User) :
    (s.commit q request user).without goneAuth gone =
      (s.without goneAuth gone).commit q request user := by
  simp only [without, commit, finish, at_, hide_update hq, unlock_release hq]
  rfl

/-- A registration that is gone moves on unseen. -/
theorem without_gone_at (hq : gone q = true) (request : RegisterRequest) (stage : RegisterStage) :
    (s.at_ q request stage).without goneAuth gone = s.without goneAuth gone := by
  simp only [without, at_, hide_update_gone hq]

/-- So is its answer unseen. -/
theorem without_gone_finish (hq : gone q = true) (request : RegisterRequest)
    (outcome : RegisterOutcome) :
    (s.finish q request outcome).without goneAuth gone = s.without goneAuth gone := by
  simp only [without, finish, at_, hide_update_gone hq]
  exact congrArg (fun taken => { s.without goneAuth gone with taken := taken })
    (unlock_release_absent hq)

end AccountState

section Register

variable {fns : AccountFunctions} {s t : AccountState} {a : RegisterAction}
  {goneAuth : AuthId → Bool} {gone : RegisterId → Bool} {p : RegisterId}

open AccountState

/-- What another registration does is the same without those that are gone. -/
theorem register_without (hq : gone a.request = false) (h : registerStep fns s a = some t) :
    registerStep fns (s.without goneAuth gone) a = some (t.without goneAuth gone) := by
  cases a with
  | begin q request =>
      obtain ⟨hnone, rfl⟩ := register_begin h
      have hq : gone q = false := hq
      simp [registerStep, without_registers hq, hnone, without_at_ hq]
  | select q =>
      have hq : gone q = false := hq
      revert h
      simp only [registerStep, without_registers hq, without_auth, AuthState.without_users]
      split
      · split
        · rintro ⟨⟩
          rw [without_finish hq]
        · rintro ⟨⟩
          rw [without_at_ hq]
      · rintro ⟨⟩
  | insert q id salt =>
      have hq : gone q = false := hq
      revert h
      simp only [registerStep, without_registers hq, without_auth, AuthState.without_users,
        without_drawnIds]
      split
      case h_1 request _ =>
          by_cases hdrawn : id ∈ s.drawnIds
          · simp [hdrawn]
          · by_cases hemail : (findByEmail s.auth.users request.email).isSome
            · simp only [hdrawn, hemail, if_false, if_true]
              rintro ⟨⟩
              rw [without_finish hq]
            · simp only [hdrawn, hemail, if_false]
              intro h
              by_cases hfree : s.taken request.email = none
              · simp only [hfree, if_true] at h
                cases h
                simp only [without_taken hfree, if_true]
                rw [if_neg (by simp), without_flush hq]
              · simp [hfree] at h
      case h_2 => rintro ⟨⟩
  | commit q =>
      have hq : gone q = false := hq
      revert h
      simp only [registerStep, without_registers hq]
      split
      · rintro ⟨⟩
        rw [without_commit hq]
      · rintro ⟨⟩
  | abort q =>
      have hq : gone q = false := hq
      revert h
      simp only [registerStep, without_registers hq]
      split
      · rintro ⟨⟩
      · rintro ⟨⟩
        rw [without_finish hq]
      · rintro ⟨⟩

/-- A registration that is gone is not seen until it is spent. -/
theorem register_unseen (hq : gone a.request = true) (h : registerStep fns s a = some t) :
    t.without goneAuth gone = s.without goneAuth gone ∨ t.Spent a.request := by
  cases a with
  | begin q request =>
      obtain ⟨_, rfl⟩ := register_begin h
      exact Or.inl (without_gone_at hq _ _)
  | select q =>
      obtain ⟨_, _, rfl | rfl⟩ := register_select h
      · exact Or.inl (without_gone_finish hq _ _)
      · exact Or.inl (without_gone_at hq _ _)
  | insert q id salt =>
      obtain ⟨_, _, _, rfl | ⟨_, rfl⟩⟩ := register_insert h
      · exact Or.inr (spentAt_update trivial)
      · exact Or.inr (spentAt_update trivial)
  | commit q =>
      obtain ⟨_, _, _, rfl⟩ := register_commit h
      exact Or.inr (spentAt_update trivial)
  | abort q =>
      obtain ⟨_, _, _, _, rfl⟩ := register_abort h
      exact Or.inr (spentAt_update trivial)

/-- A spent registration stays spent. -/
theorem register_spent (hs : s.Spent p) (h : registerStep fns s a = some t) :
    t.Spent p := by
  cases a with
  | begin q request =>
      obtain ⟨hnone, rfl⟩ := register_begin h
      exact SpentAt.insert hs hnone
  | select q =>
      obtain ⟨_, hreq, rfl | rfl⟩ := register_select h
      · exact SpentAt.beside hs hreq id
      · exact SpentAt.beside hs hreq id
  | insert q id salt =>
      obtain ⟨_, _, _, rfl | ⟨_, rfl⟩⟩ := register_insert h
      · exact SpentAt.update hs fun _ _ _ => trivial
      · exact SpentAt.update hs fun _ _ _ => trivial
  | commit q =>
      obtain ⟨_, _, _, rfl⟩ := register_commit h
      exact SpentAt.update hs fun _ _ _ => trivial
  | abort q =>
      obtain ⟨_, _, _, _, rfl⟩ := register_abort h
      exact SpentAt.update hs fun _ _ _ => trivial

end Register

end RideFlow
