import RideFlow.References

/-!
# One account for each email

Two registrations of one email can both find it free at their SELECT.  The unique
index decides: while the row of the first one is INSERTed and not committed, the
second INSERT waits, and it fails once the first is committed.  So of all
registrations of an email one succeeds at most, whoever was registered at the
beginning included, the account that it was answered with is the one that a login
finds, and the 409 is answered only to those whose email has an account
(`one_account_per_email`).
-/

namespace RideFlow

open Function Runs Tables

/-- No two users have the same id or email. -/
structure Distinguished (users : List User) : Prop where
  ids : ∀ u ∈ users, ∀ v ∈ users, u.id = v.id → u = v
  emails : ∀ u ∈ users, ∀ v ∈ users, u.email = v.email → u = v

/-- One more, who differs from the others. -/
theorem apart_append {β : Type} {f : User → β} {users : List User} {new : User}
    (h : ∀ u ∈ users, ∀ v ∈ users, f u = f v → u = v) (hnew : ∀ u ∈ users, f u ≠ f new) :
    ∀ u ∈ users ++ [new], ∀ v ∈ users ++ [new], f u = f v → u = v := by
  intro u hu v hv hsame
  rcases List.mem_append.mp hu with hold | hlast
  · rcases List.mem_append.mp hv with hold' | hlast'
    · exact h u hold v hold' hsame
    · obtain rfl := List.mem_singleton.mp hlast'
      exact absurd hsame (hnew u hold)
  · obtain rfl := List.mem_singleton.mp hlast
    rcases List.mem_append.mp hv with hold' | hlast'
    · exact absurd hsame.symm (hnew v hold')
    · exact (List.mem_singleton.mp hlast').symm

/-- The user that is found has the email. -/
theorem findByEmail_some {users : List User} {email : String} {user : User}
    (h : findByEmail users email = some user) : user ∈ users ∧ user.email = email := by
  have hemail := List.find?_some h
  exact ⟨List.mem_of_find?_eq_some h, of_decide_eq_true hemail⟩

/-- A user is found by its email where no other has it. -/
theorem Distinguished.find {users : List User} (h : Distinguished users) {user : User}
    (hmem : user ∈ users) : findByEmail users user.email = some user := by
  cases hfound : findByEmail users user.email with
  | none =>
      have hnone := List.find?_eq_none.mp hfound user hmem
      simp at hnone
  | some other =>
      obtain ⟨hother, hemail⟩ := findByEmail_some hfound
      exact congrArg some (h.emails other hother user hmem hemail)

/-- What the stage of a registration says about the tables. -/
def RegisterStage.Stands (s : AccountState) (q : RegisterId) (request : RegisterRequest) :
    RegisterStage → Prop
  | .flushed user => user.email = request.email ∧ user.role = request.role ∧
      s.taken user.email = some q ∧ user.id ∈ s.drawnIds ∧
      ∀ u ∈ s.auth.users, u.id ≠ user.id ∧ u.email ≠ user.email
  | .answered (.created user) =>
      user ∈ s.auth.users ∧ user.email = request.email ∧ user.role = request.role
  | .answered (.rejected error) =>
      error = emailRegistered ∧ ∃ user ∈ s.auth.users, user.email = request.email
  | _ => True

/-- Users, ids and emails, as registrations have them in hand. -/
structure AccountBooks (s : AccountState) : Prop where
  users : Distinguished s.auth.users
  drawn : ∀ user ∈ s.auth.users, user.id ∈ s.drawnIds
  stage : ∀ q request stage, s.registers q = some (request, stage) → stage.Stands s q request
  apart : ∀ p q request request' user user', s.registers p = some (request, .flushed user) →
    s.registers q = some (request', .flushed user') → user.id = user'.id → p = q
  once : ∀ p q request request' user user',
    s.registers p = some (request, .answered (.created user)) →
    s.registers q = some (request', .answered (.created user')) → user.email = user'.email → p = q

section Steps

variable {fns : AccountFunctions} {s t : AccountState} {a : RegisterAction} {q : RegisterId}
  {request : RegisterRequest} {stage old : RegisterStage}

/-- A stage stands while the emails that others hold come and go. -/
theorem RegisterStage.Stands.keep (h : stage.Stands s q request)
    (hdrawn : ∀ id ∈ s.drawnIds, id ∈ t.drawnIds)
    (hgrow : ∀ u ∈ s.auth.users, u ∈ t.auth.users)
    (htaken : ∀ email, s.taken email = some q → t.taken email = some q)
    (hnew : ∀ user, stage = .flushed user →
      ∀ u ∈ t.auth.users, u ∈ s.auth.users ∨ u.id ≠ user.id ∧ u.email ≠ user.email) :
    stage.Stands t q request := by
  cases stage with
  | starting => trivial
  | inserting => trivial
  | flushed user =>
      obtain ⟨hemail, hrole, hheld, hid, hothers⟩ := h
      refine ⟨hemail, hrole, htaken _ hheld, hdrawn _ hid, fun u hu => ?_⟩
      rcases hnew user rfl u hu with hold | hapart
      · exact hothers u hold
      · exact hapart
  | answered outcome =>
      cases outcome with
      | created user => exact ⟨hgrow user h.1, h.2⟩
      | rejected error =>
          obtain ⟨herror, user, hmem, hemail⟩ := h
          exact ⟨herror, user, hgrow user hmem, hemail⟩
      | failed => trivial

/-- One registration moves, without an INSERT or a COMMIT. -/
theorem AccountBooks.move (h : AccountBooks s)
    (hreqs : t.registers = update s.registers q (some (request, stage)))
    (hauth : t.auth = s.auth) (hdrawn : t.drawnIds = s.drawnIds)
    (htaken : ∀ p, p ≠ q → ∀ email, s.taken email = some p → t.taken email = some p)
    (hstage : stage.Stands t q request) (hflushed : ∀ user, stage ≠ .flushed user)
    (hcreated : ∀ user, stage ≠ .answered (.created user)) : AccountBooks t := by
  refine ⟨hauth ▸ h.users, hauth ▸ hdrawn ▸ h.drawn, ?_, ?_, ?_⟩
  · intro p request' stage' hp
    rw [hreqs] at hp
    rcases update_some_iff.mp hp with ⟨rfl, hnew⟩ | ⟨hne, hold⟩
    · cases hnew
      exact hstage
    · exact (h.stage p request' stage' hold).keep (by simp [hdrawn]) (by simp [hauth])
        (htaken p hne) fun _ _ u hu => Or.inl (hauth ▸ hu)
  · intro p p' r r' user user' hp hp' hsame
    rw [hreqs] at hp hp'
    rcases update_some_iff.mp hp with ⟨_, hnew⟩ | ⟨_, hold⟩
    · cases hnew
      exact absurd rfl (hflushed user)
    · rcases update_some_iff.mp hp' with ⟨_, hnew⟩ | ⟨_, hold'⟩
      · cases hnew
        exact absurd rfl (hflushed user')
      · exact h.apart p p' r r' user user' hold hold' hsame
  · intro p p' r r' user user' hp hp' hsame
    rw [hreqs] at hp hp'
    rcases update_some_iff.mp hp with ⟨_, hnew⟩ | ⟨_, hold⟩
    · cases hnew
      exact absurd rfl (hcreated user)
    · rcases update_some_iff.mp hp' with ⟨_, hnew⟩ | ⟨_, hold'⟩
      · cases hnew
        exact absurd rfl (hcreated user')
      · exact h.once p p' r r' user user' hold hold' hsame

/-- A registration that ends takes its own emails from nobody else. -/
theorem finish_taken {p : RegisterId} (hne : p ≠ q) (request : RegisterRequest)
    (outcome : RegisterOutcome) (email : String) (h : s.taken email = some p) :
    (s.finish q request outcome).taken email = some p := by
  simp [AccountState.finish, h, hne]

/-- The INSERT of a user whose email nobody holds. -/
theorem AccountBooks.flush (h : AccountBooks s) {id : UserId} {salt : String}
    (hreq : s.registers q = some (request, .inserting)) (hid : id ∉ s.drawnIds)
    (hnone : findByEmail s.auth.users request.email = none)
    (hfree : s.taken request.email = none) :
    AccountBooks (s.flush q request (request.user fns id salt)) := by
  have hapart : ∀ u ∈ s.auth.users, u.id ≠ id ∧ u.email ≠ request.email := by
    intro u hu
    refine ⟨fun hsame => hid (hsame ▸ h.drawn u hu), ?_⟩
    simpa using List.find?_eq_none.mp hnone u hu
  refine ⟨h.users, fun u hu => List.mem_cons_of_mem id (h.drawn u hu), ?_, ?_, ?_⟩
  · intro p request' stage' hp
    rcases update_some_iff.mp hp with ⟨rfl, hnew⟩ | ⟨hne, hold⟩
    · cases hnew
      exact ⟨rfl, rfl, update_self _ _ _, List.mem_cons_self, hapart⟩
    · refine (h.stage p request' stage' hold).keep (fun _ hmem => List.mem_cons_of_mem id hmem)
        (fun _ hu => hu) (fun email hheld => ?_) fun _ _ u hu => Or.inl hu
      refine update_some_iff.mpr (Or.inr ⟨?_, hheld⟩)
      rintro rfl
      rw [show s.taken (request.user fns id salt).email = none from hfree] at hheld
      cases hheld
  · intro p p' r r' user user' hp hp' hsame
    have hdrawn : ∀ {p r user}, s.registers p = some (r, .flushed user) → user.id ≠ id :=
      fun hp hsame => hid (hsame ▸ (h.stage _ _ _ hp).2.2.2.1)
    rcases update_some_iff.mp hp with ⟨rfl, hnew⟩ | ⟨_, hold⟩
    · cases hnew
      rcases update_some_iff.mp hp' with ⟨rfl, _⟩ | ⟨_, hold'⟩
      · rfl
      · exact absurd hsame.symm (hdrawn hold')
    · rcases update_some_iff.mp hp' with ⟨rfl, hnew⟩ | ⟨_, hold'⟩
      · cases hnew
        exact absurd hsame (hdrawn hold)
      · exact h.apart p p' r r' user user' hold hold' hsame
  · intro p p' r r' user user' hp hp' hsame
    rcases update_some_iff.mp hp with ⟨_, hnew⟩ | ⟨_, hold⟩
    · cases hnew
    · rcases update_some_iff.mp hp' with ⟨_, hnew⟩ | ⟨_, hold'⟩
      · cases hnew
      · exact h.once p p' r r' user user' hold hold' hsame

/-- The COMMIT of a registration. -/
theorem AccountBooks.commit (h : AccountBooks s) {user : User}
    (hreq : s.registers q = some (request, .flushed user)) :
    AccountBooks (s.commit q request user) := by
  obtain ⟨hemail, hrole, hheld, hid, hothers⟩ := h.stage q request _ hreq
  refine ⟨⟨?_, ?_⟩, ?_, ?_, ?_, ?_⟩
  · exact apart_append h.users.ids fun u hu => (hothers u hu).1
  · exact apart_append h.users.emails fun u hu => (hothers u hu).2
  · intro u hu
    rcases List.mem_append.mp hu with hold | hnew
    · exact h.drawn u hold
    · obtain rfl := List.mem_singleton.mp hnew
      exact hid
  · intro p request' stage' hp
    rcases update_some_iff.mp hp with ⟨rfl, hnew⟩ | ⟨hne, hold⟩
    · cases hnew
      exact ⟨List.mem_append_right _ (List.mem_singleton_self user), hemail, hrole⟩
    · refine (h.stage p request' stage' hold).keep (fun _ hmem => hmem)
        (fun u hu => List.mem_append_left _ hu) (finish_taken hne request (.created user)) ?_
      rintro other rfl u hu
      rcases List.mem_append.mp hu with hold' | hnew
      · exact Or.inl hold'
      · obtain rfl := List.mem_singleton.mp hnew
        obtain ⟨_, _, hheld', _⟩ := h.stage p request' _ hold
        refine Or.inr ⟨fun hsame => hne (h.apart q p _ _ _ _ hreq hold hsame).symm, ?_⟩
        intro hsame
        rw [hsame, hheld'] at hheld
        exact hne (Option.some.inj hheld)
  · intro p p' r r' u u' hp hp' hsame
    rcases update_some_iff.mp hp with ⟨_, hnew⟩ | ⟨_, hold⟩
    · cases hnew
    · rcases update_some_iff.mp hp' with ⟨_, hnew⟩ | ⟨_, hold'⟩
      · cases hnew
      · exact h.apart p p' r r' u u' hold hold' hsame
  · intro p p' r r' u u' hp hp' hsame
    have hnobody : ∀ {p r u}, s.registers p = some (r, .answered (.created u)) →
        u.email ≠ user.email := fun hp => (hothers _ (h.stage _ _ _ hp).1).2
    rcases update_some_iff.mp hp with ⟨rfl, hnew⟩ | ⟨_, hold⟩
    · cases hnew
      rcases update_some_iff.mp hp' with ⟨rfl, _⟩ | ⟨_, hold'⟩
      · rfl
      · exact absurd hsame.symm (hnobody hold')
    · rcases update_some_iff.mp hp' with ⟨rfl, hnew⟩ | ⟨_, hold'⟩
      · cases hnew
        exact absurd hsame (hnobody hold)
      · exact h.once p p' r r' u u' hold hold' hsame

/-- One step of a registration keeps the books. -/
theorem step_accountBooks (h : AccountBooks s) (hstep : registerStep fns s a = some t) :
    AccountBooks t := by
  cases a with
  | begin q request =>
      obtain ⟨_, rfl⟩ := register_begin hstep
      exact h.move rfl rfl rfl (fun _ _ _ hheld => hheld) trivial (by simp) (by simp)
  | select q =>
      dsimp only [registerStep] at hstep
      split at hstep
      case h_1 request hreq =>
          split at hstep
          case h_1 found hfound =>
              cases hstep
              exact h.move rfl rfl rfl (fun _ hne => finish_taken hne _ _)
                ⟨rfl, found, findByEmail_some hfound⟩ (by simp) (by simp)
          case h_2 =>
              cases hstep
              exact h.move rfl rfl rfl (fun _ _ _ hheld => hheld) trivial (by simp) (by simp)
      case h_2 => cases hstep
  | insert q id salt =>
      dsimp only [registerStep] at hstep
      split at hstep
      case h_1 request hreq =>
          split at hstep
          case isTrue => cases hstep
          case isFalse hid =>
              split at hstep
              case isTrue =>
                  cases hstep
                  exact h.move rfl rfl rfl (fun _ hne => finish_taken hne _ _) trivial (by simp)
                    (by simp)
              case isFalse hnone =>
                  split at hstep
                  case isTrue hfree =>
                      cases hstep
                      exact h.flush hreq hid (by simpa using hnone) hfree
                  case isFalse => cases hstep
      case h_2 => cases hstep
  | commit q =>
      obtain ⟨_, _, hreq, rfl⟩ := register_commit hstep
      exact h.commit hreq
  | abort q =>
      obtain ⟨_, _, _, _, rfl⟩ := register_abort hstep
      exact h.move rfl rfl rfl (fun _ hne => finish_taken hne _ _) trivial (by simp) (by simp)

/-- What other requests do leaves the registrations alone. -/
theorem AccountBooks.same (h : AccountBooks s) {auth : AuthState}
    (husers : auth.users = s.auth.users) : AccountBooks { s with auth := auth } := by
  refine ⟨husers ▸ h.users, fun u hu => h.drawn u (husers ▸ hu), ?_, h.apart, h.once⟩
  intro p request stage hp
  exact (h.stage p request stage hp).keep (fun _ hmem => hmem) (by simp [husers])
    (fun _ hheld => hheld) fun _ _ u hu => Or.inl (husers ▸ hu)

end Steps

section Server

variable {cfg : Settings} {fns : ServerFunctions} {s t : ServerState} {a : ServerAction}
  {users : List User} {acts : List ServerAction}

/-- The books are in order at first. -/
theorem accountBooks_init (h : Distinguished users) : AccountBooks (.init users) where
  users := h
  drawn _ hmem := List.mem_map_of_mem hmem
  stage _ _ _ hp := nomatch hp
  apart _ _ _ _ _ _ hp := nomatch hp
  once _ _ _ _ _ _ hp := nomatch hp

/-- One step of the server keeps the books. -/
theorem server_accountBooks (h : AccountBooks s.accounts)
    (hstep : serverStep cfg fns s a = some t) : AccountBooks t.accounts := by
  have hmove := (server_cases hstep).2
  cases a with
  | arrive request token =>
      rcases server_arrive hmove with ⟨_, _, _, rfl⟩ | ⟨_, _, hbegin⟩
      · exact h
      · rcases enterHandler_cases hbegin with ⟨_, _, _, _, _, rfl⟩ | ⟨_, _, _, _, _, _, rfl⟩ |
          ⟨_, _, _, _, _, _, rfl⟩
        · exact h
        · exact h
        · exact h
  | register b =>
      obtain ⟨_, haccounts, rfl⟩ := server_register hmove
      exact step_accountBooks h haccounts
  | auth b =>
      obtain ⟨_, _, hauth, rfl⟩ := server_auth hmove
      exact h.same (auth_users hauth)
  | driver _ =>
      obtain ⟨_, _, _, rfl⟩ := server_driver hmove
      exact h
  | ride _ =>
      obtain ⟨_, _, _, _, rfl⟩ := server_ride hmove
      exact h
  | create _ =>
      obtain ⟨_, _, _, rfl⟩ := server_create hmove
      exact h
  | advance _ =>
      cases hmove
      exact h.same rfl

/-- The books are kept by every run. -/
theorem run_accountBooks (husers : Distinguished users)
    (h : Steps (serverSystem cfg fns) free (.init users) acts s) : AccountBooks s.accounts :=
  h.invariant (fun s => AccountBooks s.accounts) (accountBooks_init husers)
    fun _ _ _ hs _ hstep => server_accountBooks hs hstep

/-- **One account for each email.**  In every interleaving, where no two users have
the same id or email at the beginning,

* no two users ever have;
* of the registrations of an email one is answered 201 at most, and a login with that
  email finds its user, with the role that it asked for;
* a registration that is answered 409 asked for the email of a registered user. -/
theorem one_account_per_email (husers : Distinguished users)
    (h : Steps (serverSystem cfg fns) free (.init users) acts s) :
    Distinguished s.data.users ∧
    (∀ q request user, s.accounts.registers q = some (request, .answered (.created user)) →
      findByEmail s.data.users request.email = some user ∧ user.role = request.role ∧
      ∀ p request' user', s.accounts.registers p = some (request', .answered (.created user')) →
        request'.email = request.email → p = q) ∧
    ∀ q request error, s.accounts.registers q = some (request, .answered (.rejected error)) →
      error = emailRegistered ∧ (findByEmail s.data.users request.email).isSome = true := by
  have hbooks := run_accountBooks husers h
  refine ⟨hbooks.users, ?_, ?_⟩
  · intro q request user hq
    obtain ⟨hmem, hemail, hrole⟩ := hbooks.stage q request _ hq
    refine ⟨hemail ▸ hbooks.users.find hmem, hrole, fun p request' user' hp hsame => ?_⟩
    obtain ⟨_, hemail', _⟩ := hbooks.stage p request' _ hp
    exact hbooks.once p q _ _ _ _ hp hq (by rw [hemail, hemail', hsame])
  · intro q request error hq
    obtain ⟨herror, user, hmem, hemail⟩ := hbooks.stage q request _ hq
    refine ⟨herror, ?_⟩
    rw [← hemail, ServerState.data, hbooks.users.find hmem]
    rfl

end Server

/-- The password they send is neither too short nor too long. -/
theorem racing_password : 8 ≤ "supersecret1".length ∧ "supersecret1".length ≤ 128 := by decide

/-- What both of two racing registrations send. -/
def racingRegister : RegisterRequest :=
  sampleRegister "c@example.com" "supersecret1" racing_password

/-- Two registrations of an email find it free, and a third one comes later. -/
def racingRegistrations : List ServerAction :=
  [.register (.begin 0 racingRegister), .register (.begin 1 racingRegister),
    .register (.select 0), .register (.select 1), .register (.insert 0 3 "salt"),
    .register (.commit 0), .register (.insert 1 4 "salt"), .register (.begin 2 racingRegister),
    .register (.select 2)]

/-- The users of the town have different ids and emails. -/
theorem townUsers_distinguished : Distinguished townUsers :=
  ⟨by decide, by decide⟩

/-- The first one gets the account, the second one fails on the index and the third one
is told. -/
theorem first_registration_wins : ∃ s user,
    Steps (serverSystem {} sampleTown) free (.init townUsers) racingRegistrations s ∧
    (s.accounts.registers 0).map Prod.snd = some (.answered (.created user)) ∧
    (s.accounts.registers 1).map Prod.snd = some (.answered .failed) ∧
    (s.accounts.registers 2).map Prod.snd = some (.answered (.rejected emailRegistered)) ∧
    findByEmail s.data.users "c@example.com" = some user := by
  have hreplay : (exec (serverSystem {} sampleTown) (.init townUsers) racingRegistrations).any
      (fun s => (s.accounts.registers 0).map (fun entry => (entry.1.email, entry.2)) =
          some ("c@example.com", .answered (.created (racingRegister.user
            sampleTown.toAccountFunctions 3 "salt"))) ∧
        (s.accounts.registers 1).map Prod.snd = some (.answered .failed) ∧
        (s.accounts.registers 2).map Prod.snd =
          some (.answered (.rejected emailRegistered))) = true := by decide +kernel
  obtain ⟨s, hrun, hs⟩ := Steps.of_exec_any hreplay
  obtain ⟨hfirst, hsecond, hthird⟩ := of_decide_eq_true hs
  obtain ⟨⟨request, stage⟩, hreq, hentry⟩ := Option.map_eq_some_iff.mp hfirst
  obtain ⟨hemail, rfl⟩ := Prod.mk.inj hentry
  obtain ⟨hfound, _⟩ :=
    (one_account_per_email townUsers_distinguished hrun).2.1 0 request _ hreq
  exact ⟨s, _, hrun, by rw [hreq]; rfl, hsecond, hthird, hemail ▸ hfound⟩

end RideFlow
