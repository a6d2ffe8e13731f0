import RideFlow.Auth
import RideFlow.Library.Tables

/-!
# Accounts

`register` of `routers/auth.py` next to the logins, refreshes and logouts, so
that the table of users grows while they run.

A registration SELECTs the email (`select`), INSERTs its row at the flush
(`insert`) and makes it visible with the COMMIT.  Between the two its email is
taken in the unique index: an INSERT of the same email waits for the open
transaction to end, and one that finds the email committed is an
IntegrityError, which no handler turns into an HTTP error.

bcrypt stays a parameter, with the salt that it draws.  The UUID of a row is
drawn at the flush and is that of no row drawn before.
-/

namespace RideFlow

open Function

abbrev RegisterId := Nat

/-- The body of `POST /auth/register`, with the lengths that the schema
checks. -/
structure RegisterRequest where
  email : String
  password : String
  fullName : String
  role : UserRole
  password_length : 8 ≤ password.length ∧ password.length ≤ 128
  full_name_length : 1 ≤ fullName.length ∧ fullName.length ≤ 255

/-- The functions of `security.py`, hashing of passwords included. -/
structure AccountFunctions extends SecurityFunctions where
  hashPassword : String → String → String

/-- How a registration is answered. -/
inductive RegisterOutcome
  | created (user : User)
  | rejected (error : Rejection)
  | failed
  deriving DecidableEq, Repr

/-- Where a registration stands; in `flushed` its row is INSERTed and not
committed. -/
inductive RegisterStage
  | starting
  | inserting
  | flushed (user : User)
  | answered (outcome : RegisterOutcome)
  deriving DecidableEq, Repr

/-- The steps of a registration. -/
inductive RegisterAction
  | begin (q : RegisterId) (request : RegisterRequest)
  | select (q : RegisterId)
  | insert (q : RegisterId) (id : UserId) (salt : String)
  | commit (q : RegisterId)
  | abort (q : RegisterId)

/-- The tables and requests of `Auth`, with the registrations.  `taken` holds
the emails of the rows in open transactions, `drawnIds` the UUIDs drawn so
far. -/
structure AccountState where
  auth : AuthState
  registers : RegisterId → Option (RegisterRequest × RegisterStage)
  taken : String → Option RegisterId
  drawnIds : List UserId

/-- The registered users, and no registration under way. -/
def AccountState.init (users : List User) : AccountState where
  auth := .init users
  registers := fun _ => none
  taken := fun _ => none
  drawnIds := users.map User.id

/-- The registration that an action serves. -/
def RegisterAction.request : RegisterAction → RegisterId
  | .begin q _ => q
  | .select q => q
  | .insert q _ _ => q
  | .commit q => q
  | .abort q => q

/-- A step of a registration, or of another request about accounts. -/
inductive AccountAction
  | register (a : RegisterAction)
  | auth (a : AuthAction)

/-- The 409 of `register`. -/
def emailRegistered : Rejection := ⟨409, "Email already registered"⟩

/-- The row that `register` adds. -/
def RegisterRequest.user (fns : AccountFunctions) (request : RegisterRequest) (id : UserId)
    (salt : String) : User where
  id := id
  email := request.email
  hashedPassword := fns.hashPassword request.password salt
  fullName := request.fullName
  role := request.role
  isActive := true

/-- `select(User).where(User.email == email)`. -/
def findByEmail (users : List User) (email : String) : Option User :=
  users.find? fun user => user.email = email

namespace AccountState

variable (s : AccountState)

/-- Put a registration into a stage. -/
def at_ (q : RegisterId) (request : RegisterRequest) (stage : RegisterStage) : AccountState :=
  { s with registers := update s.registers q (some (request, stage)) }

/-- End a registration: its email is no longer taken by an open transaction. -/
def finish (q : RegisterId) (request : RegisterRequest) (outcome : RegisterOutcome) :
    AccountState :=
  { s.at_ q request (.answered outcome) with
    taken := fun email => if s.taken email = some q then none else s.taken email }

/-- The INSERT of a user. -/
def flush (q : RegisterId) (request : RegisterRequest) (user : User) : AccountState :=
  { s.at_ q request (.flushed user) with
    taken := update s.taken user.email (some q)
    drawnIds := user.id :: s.drawnIds }

/-- COMMIT of a registration. -/
def commit (q : RegisterId) (request : RegisterRequest) (user : User) : AccountState :=
  { s.finish q request (.created user) with
    auth := { s.auth with users := s.auth.users ++ [user] } }

end AccountState

/-- What a step of a registration makes of the state; `none` where it cannot be taken. -/
def registerStep (fns : AccountFunctions) (s : AccountState) :
    RegisterAction → Option AccountState
  | .begin q request =>
      match s.registers q with
      | some _ => none
      | none => some (s.at_ q request .starting)
  | .select q =>
      match s.registers q with
      | some (request, .starting) =>
          match findByEmail s.auth.users request.email with
          | some _ => some (s.finish q request (.rejected emailRegistered))
          | none => some (s.at_ q request .inserting)
      | _ => none
  | .insert q id salt =>
      match s.registers q with
      | some (request, .inserting) =>
          if id ∈ s.drawnIds then none
          else if (findByEmail s.auth.users request.email).isSome then
            some (s.finish q request .failed)
          -- the INSERT waits for the transaction that holds the email
          else if s.taken request.email = none then
            some (s.flush q request (request.user fns id salt))
          else none
      | _ => none
  | .commit q =>
      match s.registers q with
      | some (request, .flushed user) => some (s.commit q request user)
      | _ => none
  | .abort q =>
      match s.registers q with
      | some (_, .answered _) => none
      | some (request, _) => some (s.finish q request .failed)
      | none => none

/-- What an action makes of the state; `none` where it cannot be taken. -/
def accountStep (cfg : Settings) (fns : AccountFunctions) (s : AccountState) :
    AccountAction → Option AccountState
  | .register a => registerStep fns s a
  | .auth a => (authStep cfg fns.toSecurityFunctions s.auth a).map fun auth =>
      { s with auth := auth }

/-- The system of concurrent registrations, logins, refreshes and logouts. -/
def accountSystem (cfg : Settings) (fns : AccountFunctions) :
    Runs.System AccountState AccountAction :=
  ⟨accountStep cfg fns⟩

/-! ### What each step did -/

section Inversion

variable {cfg : Settings} {fns : AccountFunctions} {s t : AccountState} {q : RegisterId}

/-- The other requests step as they do by themselves. -/
theorem account_auth {a : AuthAction} (h : accountStep cfg fns s (.auth a) = some t) :
    ∃ auth, authStep cfg fns.toSecurityFunctions s.auth a = some auth ∧
      t = { s with auth := auth } := by
  obtain ⟨auth, hauth, rfl⟩ := Option.map_eq_some_iff.mp h
  exact ⟨auth, hauth, rfl⟩

/-- A registration arrives under a new name. -/
theorem register_begin {request : RegisterRequest}
    (h : registerStep fns s (.begin q request) = some t) :
    s.registers q = none ∧ t = s.at_ q request .starting := by
  dsimp only [registerStep] at h
  split at h
  case h_1 => cases h
  case h_2 hnone => exact ⟨hnone, (Option.some.inj h).symm⟩

/-- The SELECT finds the email, which is a 409, or does not. -/
theorem register_select (h : registerStep fns s (.select q) = some t) :
    ∃ request, s.registers q = some (request, .starting) ∧
      (t = s.finish q request (.rejected emailRegistered) ∨ t = s.at_ q request .inserting) := by
  dsimp only [registerStep] at h
  split at h
  case h_1 request hreq =>
      refine ⟨request, hreq, ?_⟩
      split at h
      case h_1 => exact Or.inl (Option.some.inj h).symm
      case h_2 => exact Or.inr (Option.some.inj h).symm
  case h_2 => cases h

/-- The INSERT stands uncommitted, or fails on a user with the email. -/
theorem register_insert {id : UserId} {salt : String}
    (h : registerStep fns s (.insert q id salt) = some t) :
    ∃ request, s.registers q = some (request, .inserting) ∧ id ∉ s.drawnIds ∧
      (t = s.finish q request .failed ∨
      (s.taken request.email = none ∧ t = s.flush q request (request.user fns id salt))) := by
  dsimp only [registerStep] at h
  split at h
  case h_1 request hreq =>
      refine ⟨request, hreq, ?_⟩
      split at h
      case isTrue => cases h
      case isFalse hfresh =>
          refine ⟨hfresh, ?_⟩
          split at h
          case isTrue => exact Or.inl (Option.some.inj h).symm
          case isFalse =>
              split at h
              case isTrue hfree => exact Or.inr ⟨hfree, (Option.some.inj h).symm⟩
              case isFalse => cases h
  case h_2 => cases h

/-- The COMMIT stores the user. -/
theorem register_commit (h : registerStep fns s (.commit q) = some t) :
    ∃ request user, s.registers q = some (request, .flushed user) ∧
      t = s.commit q request user := by
  dsimp only [registerStep] at h
  split at h
  case h_1 request user hreq => exact ⟨request, user, hreq, (Option.some.inj h).symm⟩
  case h_2 => cases h

/-- A registration that is not answered can fail. -/
theorem register_abort (h : registerStep fns s (.abort q) = some t) :
    ∃ request stage, s.registers q = some (request, stage) ∧
      (∀ outcome, stage ≠ .answered outcome) ∧ t = s.finish q request .failed := by
  dsimp only [registerStep] at h
  split at h
  case h_1 => cases h
  case h_2 request stage hne hreq =>
      exact ⟨request, stage, hreq, hne, (Option.some.inj h).symm⟩
  case h_3 => cases h

end Inversion

/-- A registration leaves the tokens and the requests of the others alone, and
only adds users. -/
theorem register_frame {fns : AccountFunctions} {s t : AccountState} {a : RegisterAction}
    (h : registerStep fns s a = some t) :
    ∃ added, t.auth = { s.auth with users := s.auth.users ++ added } := by
  have hsame : t.auth = s.auth → ∃ added, t.auth = { s.auth with users := s.auth.users ++ added } :=
    fun heq => ⟨[], by rw [heq, List.append_nil]⟩
  cases a with
  | begin q request =>
      obtain ⟨_, rfl⟩ := register_begin h
      exact hsame rfl
  | select q =>
      obtain ⟨_, _, rfl | rfl⟩ := register_select h
      · exact hsame rfl
      · exact hsame rfl
  | insert q id salt =>
      obtain ⟨_, _, _, rfl | ⟨_, rfl⟩⟩ := register_insert h
      · exact hsame rfl
      · exact hsame rfl
  | commit q =>
      obtain ⟨_, user, _, rfl⟩ := register_commit h
      exact ⟨[user], rfl⟩
  | abort q =>
      obtain ⟨_, _, _, _, rfl⟩ := register_abort h
      exact hsame rfl

end RideFlow
