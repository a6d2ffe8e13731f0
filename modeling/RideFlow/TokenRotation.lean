import Mathlib.Data.Finset.Card
import RideFlow.Auth
import RideFlow.Library.Tables

/-!
# Refresh token rotation

The books of a state hold in every run: locks and open transactions agree, a
row that was read is still there and revoked for good once it is, and a token
that some committed request consumed is revoked (`token_books_kept`).

Nothing in them stops a refresh from revoking a token a second time: the check
of `revoked` is made on the row that was read, and the UPDATE does not repeat
it.

* `token_exchanged_twice` -- two overlapping refreshes of one token;
* `token_consumed_once` -- as long as no refresh sends its UPDATE to a row that
  was revoked since it was read, nothing consumes a token and is followed by a
  refresh of it, and a user has no more unrevoked tokens than logins.
-/

namespace RideFlow

open Tables Function Runs

/-- Did this refresh or logout consume the token? -/
def AuthEvent.consumes (event : AuthEvent) (token : TokenHash) : Bool :=
  match event with
  | .loggedIn _ => false
  | .refreshed consumed _ => consumed = token
  | .loggedOut consumed => consumed = token

/-- Did this refresh exchange the token for a new pair? -/
def AuthEvent.refreshes (event : AuthEvent) (token : TokenHash) : Bool :=
  match event with
  | .refreshed consumed _ => consumed = token
  | _ => false

/-- Is it a login of `u`? -/
def AuthEvent.isLoginOf (event : AuthEvent) (u : UserId) : Bool :=
  match event with
  | .loggedIn issued => issued.userId = u
  | _ => false

/-- The successful logins of a user. -/
def AuthState.loginsOf (s : AuthState) (u : UserId) : Nat :=
  s.history.countP fun event => event.isLoginOf u

/-- An unrevoked token of user `u`. -/
def AuthState.Unrevoked (s : AuthState) (u : UserId) (token : TokenHash) : Prop :=
  ∃ row, s.tokens token = some row ∧ row.userId = u ∧ row.revoked = false

/-- The token is stored and revoked. -/
def AuthState.Revoked (s : AuthState) (token : TokenHash) : Prop :=
  ∃ row, s.tokens token = some row ∧ row.revoked = true

/-- A refresh sends its UPDATE to a row that is still unrevoked. -/
def updatesUnrevoked (s : AuthState) : AuthAction → Bool
  | .update q =>
      match s.requests q with
      | some (_, .revoking stored (some _)) =>
          (s.tokens stored.tokenHash).all fun row => row.revoked = false
      | _ => true
  | _ => true

/-- The pair in the session of a request. -/
def AuthStage.pair : AuthStage → Option IssuedPair
  | .issuing pair => some pair
  | .revoking _ pair => pair
  | .holding _ pair => pair
  | _ => none

/-- A row that was read is still there, of the same user, and revoked if it
was. -/
def StillThere (s : AuthState) (stored : RefreshToken) : Prop :=
  ∃ row, s.tokens stored.tokenHash = some row ∧ row.userId = stored.userId ∧
    (stored.revoked = true → row.revoked = true)

/-- What is known of the row that request `q` works on. -/
def AuthStage.RowFine (s : AuthState) (q : AuthId) : AuthStage → Prop
  | .checking stored => StillThere s stored
  | .revoking stored pair =>
      StillThere s stored ∧ ∀ new, pair = some new → new.row.userId = stored.userId
  | .holding replaced pair =>
      s.locks replaced.tokenHash = some q ∧ s.tokens replaced.tokenHash = some replaced ∧
        ∀ new, pair = some new → new.row.userId = replaced.userId
  | .leaving (some stored) => stored.revoked = true ∧ StillThere s stored
  | _ => True

/-- What is known of the row that a request is to INSERT. -/
def AuthStage.PairFine (s : AuthState) (stage : AuthStage) : Prop :=
  ∀ new, stage.pair = some new → new.row.tokenHash ∈ s.drawn ∧
    s.tokens new.row.tokenHash = none ∧ new.row.revoked = false

/-- The books of a state. -/
structure TokenBooks (s : AuthState) : Prop where
  keyed : ∀ token row, s.tokens token = some row → row.tokenHash = token ∧ token ∈ s.drawn
  rows : ∀ q request stage, s.requests q = some (request, stage) → stage.RowFine s q
  pairs : ∀ q request stage, s.requests q = some (request, stage) → stage.PairFine s
  apart : ∀ p q requestP requestQ stageP stageQ newP newQ,
    s.requests p = some (requestP, stageP) → s.requests q = some (requestQ, stageQ) →
    stageP.pair = some newP → stageQ.pair = some newQ →
    newP.row.tokenHash = newQ.row.tokenHash → p = q
  consumed : ∀ event ∈ s.history, ∀ token, event.consumes token = true → s.Revoked token

/-- What a step of request `q` leaves to the others. -/
structure Frame (q : AuthId) (s t : AuthState) : Prop where
  drawn : ∀ token ∈ s.drawn, token ∈ t.drawn
  grows : ∀ token row, s.tokens token = some row → ∃ row', t.tokens token = some row' ∧
    row'.userId = row.userId ∧ (row.revoked = true → row'.revoked = true)
  locked : ∀ token row p, p ≠ q → s.locks token = some p → s.tokens token = some row →
    t.locks token = some p ∧ t.tokens token = some row
  inserted : ∀ token, s.tokens token = none → t.tokens token ≠ none →
    ∃ request stage new, s.requests q = some (request, stage) ∧ stage.pair = some new ∧
      new.row.tokenHash = token

section Frames

variable {s t : AuthState} {q : AuthId} {request : AuthRequest} {stage : AuthStage}

/-- A step that writes no row leaves the others what they had. -/
theorem Frame.of_tokens (htokens : t.tokens = s.tokens)
    (hdrawn : ∀ token ∈ s.drawn, token ∈ t.drawn)
    (hlocks : ∀ token p, p ≠ q → s.locks token = some p → t.locks token = some p) :
    Frame q s t where
  drawn := hdrawn
  grows := by
    intro token row hrow
    exact ⟨row, htokens ▸ hrow, rfl, id⟩
  locked := by
    intro token row p hp hlock hrow
    exact ⟨hlocks token p hp hlock, htokens ▸ hrow⟩
  inserted := by
    intro token hnone hsome
    rw [htokens] at hsome
    exact absurd hnone hsome

theorem StillThere.frame (hframe : Frame q s t) {stored : RefreshToken}
    (h : StillThere s stored) : StillThere t stored := by
  obtain ⟨row, hrow, huser, hrevoked⟩ := h
  obtain ⟨row', hrow', huser', hrevoked'⟩ := hframe.grows _ _ hrow
  exact ⟨row', hrow', huser'.trans huser, fun hstored => hrevoked' (hrevoked hstored)⟩

theorem Revoked.frame (hframe : Frame q s t) {token : TokenHash} (h : s.Revoked token) :
    t.Revoked token := by
  obtain ⟨row, hrow, hrevoked⟩ := h
  obtain ⟨row', hrow', _, hrevoked'⟩ := hframe.grows _ _ hrow
  exact ⟨row', hrow', hrevoked' hrevoked⟩

/-- A step of `q` leaves the rows of another request as they were. -/
theorem AuthStage.RowFine.frame (hframe : Frame q s t) {p : AuthId} (hp : p ≠ q)
    (h : stage.RowFine s p) : stage.RowFine t p := by
  cases stage with
  | starting => trivial
  | checking stored => exact StillThere.frame hframe h
  | issuing _ => trivial
  | revoking stored pair => exact ⟨h.1.frame hframe, h.2⟩
  | holding replaced pair =>
      obtain ⟨hlock, hrow, huser⟩ := h
      obtain ⟨hlock', hrow'⟩ := hframe.locked _ _ p hp hlock hrow
      exact ⟨hlock', hrow', huser⟩
  | leaving stored =>
      cases stored with
      | none => trivial
      | some stored => exact ⟨h.1, h.2.frame hframe⟩
  | answered _ => trivial

/-- What is known of a row depends on the rows and the locks alone. -/
theorem AuthStage.RowFine.same (htokens : t.tokens = s.tokens) (hlocks : t.locks = s.locks)
    (h : stage.RowFine s q) : stage.RowFine t q := by
  cases stage with
  | starting => trivial
  | checking stored => simpa [AuthStage.RowFine, StillThere, htokens] using h
  | issuing _ => trivial
  | revoking stored pair => simpa [AuthStage.RowFine, StillThere, htokens] using h
  | holding replaced pair => simpa [AuthStage.RowFine, htokens, hlocks] using h
  | leaving stored =>
      cases stored with
      | none => trivial
      | some stored => simpa [AuthStage.RowFine, StillThere, htokens] using h
  | answered _ => trivial

/-- **Books survive a step of `q`** that leaves the others what they had, puts
`q` into a fine stage and records what `q` consumed. -/
theorem TokenBooks.step (h : TokenBooks s) (hframe : Frame q s t)
    (hreq : t.requests = update s.requests q (some (request, stage)))
    (hkeyed : ∀ token row, t.tokens token = some row → row.tokenHash = token ∧ token ∈ t.drawn)
    (hrow : stage.RowFine t q) (hpair : stage.PairFine t)
    (hfresh : ∀ new, stage.pair = some new → new.row.tokenHash ∉ s.drawn ∨
      ∃ request' stage', s.requests q = some (request', stage') ∧ stage'.pair = some new)
    (hconsumed : ∀ event ∈ t.history, event ∈ s.history ∨
      ∀ token, event.consumes token = true → t.Revoked token) : TokenBooks t := by
  have hapart : ∀ p requestP stageP newP newQ, p ≠ q → s.requests p = some (requestP, stageP) →
      stageP.pair = some newP → stage.pair = some newQ →
      newP.row.tokenHash ≠ newQ.row.tokenHash := by
    intro p requestP stageP newP newQ hpq hp hnewP hnewQ heq
    rcases hfresh newQ hnewQ with hnew | ⟨request', stage', hq, hold⟩
    · exact hnew (heq ▸ (h.pairs p requestP stageP hp newP hnewP).1)
    · exact hpq (h.apart p q _ _ _ _ newP newQ hp hq hnewP hold heq)
  constructor
  · exact hkeyed
  · intro p request' stage' hp
    rw [hreq] at hp
    rcases update_some_iff.mp hp with ⟨rfl, hnew⟩ | ⟨hne, hold⟩
    · cases hnew
      exact hrow
    · exact (h.rows p request' stage' hold).frame hframe hne
  · intro p request' stage' hp
    rw [hreq] at hp
    rcases update_some_iff.mp hp with ⟨rfl, hnew⟩ | ⟨hne, hold⟩
    · cases hnew
      exact hpair
    · intro new hnew
      obtain ⟨hdrawn, hnone, hvalid⟩ := h.pairs p request' stage' hold new hnew
      refine ⟨hframe.drawn _ hdrawn, ?_, hvalid⟩
      by_contra hsome
      obtain ⟨_, _, newQ, hq, hnewQ, heq⟩ := hframe.inserted _ hnone hsome
      exact hne (h.apart p q _ _ _ _ new newQ hold hq hnew hnewQ heq.symm)
  · intro p p' requestP requestP' stageP stageP' newP newP' hp hp' hnewP hnewP' heq
    rw [hreq] at hp hp'
    rcases update_some_iff.mp hp with ⟨rfl, hnew⟩ | ⟨hne, hold⟩
    · cases hnew
      rcases update_some_iff.mp hp' with ⟨rfl, _⟩ | ⟨hne', hold'⟩
      · rfl
      · exact absurd heq.symm (hapart p' _ _ newP' newP hne' hold' hnewP' hnewP)
    · rcases update_some_iff.mp hp' with ⟨rfl, hnew⟩ | ⟨_, hold'⟩
      · cases hnew
        exact absurd heq (hapart p _ _ newP newP' hne hold hnewP hnewP')
      · exact h.apart p p' _ _ _ _ newP newP' hold hold' hnewP hnewP' heq
  · intro event hmem token hconsumes
    rcases hconsumed event hmem with hold | hnew
    · exact Revoked.frame hframe (h.consumed event hold token hconsumes)
    · exact hnew token hconsumes

end Frames

section Keep

variable {cfg : Settings} {fns : SecurityFunctions} {s t : AuthState} {q : AuthId}
  {request : AuthRequest} {stage : AuthStage} {a : AuthAction}

/-- Locks of the others outlive a release. -/
theorem finish_locks {outcome : AuthOutcome} {token : TokenHash} {p : AuthId} (hp : p ≠ q)
    (h : s.locks token = some p) : (s.finish q request outcome).locks token = some p := by
  have hne : s.locks token ≠ some q := by
    rw [h]
    exact fun heq => hp (Option.some.inj heq)
  exact (if_neg hne).trans h

/-- Books survive a step that ends a request and writes no row. -/
theorem TokenBooks.finish (h : TokenBooks s) {outcome : AuthOutcome} :
    TokenBooks (s.finish q request outcome) :=
  h.step (.of_tokens rfl (fun _ => id) fun _ _ hp => finish_locks hp) rfl h.keyed trivial
    (fun _ hnone => nomatch hnone) (fun _ hnone => nomatch hnone) fun _ => Or.inl

/-- Books survive a step that reads a row. -/
theorem TokenBooks.at_ (h : TokenBooks s) (hrow : stage.RowFine s q) (hpair : stage.pair = none) :
    TokenBooks (s.at_ q request stage) := by
  refine h.step (.of_tokens rfl (fun _ => id) fun _ _ _ => id) rfl h.keyed (hrow.same rfl rfl)
    ?_ ?_ fun _ => Or.inl
  · intro new hnew
    rw [hpair] at hnew
    cases hnew
  · intro new hnew
    rw [hpair] at hnew
    cases hnew

/-- Books survive the drawing of a fresh token. -/
theorem TokenBooks.draw (h : TokenBooks s) (new : IssuedPair)
    (hfresh : new.row.tokenHash ∉ s.drawn) (hvalid : new.row.revoked = false)
    (hpair : stage.pair = some new) (hrow : stage.RowFine s q) :
    TokenBooks { s.at_ q request stage with drawn := new.row.tokenHash :: s.drawn } := by
  have hunused : s.tokens new.row.tokenHash = none := by
    by_contra hsome
    obtain ⟨row, hrow⟩ := Option.ne_none_iff_exists'.mp hsome
    exact hfresh (h.keyed _ _ hrow).2
  have hframe : Frame q s { s.at_ q request stage with drawn := new.row.tokenHash :: s.drawn } :=
    .of_tokens rfl (fun _ => List.mem_cons_of_mem _) fun _ _ _ => id
  refine h.step hframe rfl ?_ (hrow.same rfl rfl) ?_ ?_ fun _ => Or.inl
  · intro token row htoken
    obtain ⟨hkey, hdrawn⟩ := h.keyed token row htoken
    exact ⟨hkey, List.mem_cons_of_mem _ hdrawn⟩
  · intro new' hnew'
    obtain rfl : new = new' := Option.some.inj (hpair.symm.trans hnew')
    exact ⟨List.mem_cons_self, hunused, hvalid⟩
  · intro new' hnew'
    obtain rfl : new = new' := Option.some.inj (hpair.symm.trans hnew')
    exact Or.inl hfresh

/-- Books survive the UPDATE of a refresh or a logout. -/
theorem TokenBooks.hold (h : TokenBooks s) {stored row : RefreshToken} {pair : Option IssuedPair}
    (hreq : s.requests q = some (request, .revoking stored pair))
    (hrow : s.tokens stored.tokenHash = some row) (hfree : s.locks stored.tokenHash = none) :
    TokenBooks (s.hold q request row pair) := by
  have hkey : row.tokenHash = stored.tokenHash := (h.keyed _ _ hrow).1
  obtain ⟨⟨row', hrow', huser, _⟩, hpair⟩ := h.rows q request _ hreq
  obtain rfl : row = row' := Option.some.inj (hrow.symm.trans hrow')
  have hframe : Frame q s (s.hold q request row pair) := by
    refine .of_tokens rfl (fun _ => id) ?_
    intro token p _ hlock
    have hne : token ≠ row.tokenHash := by
      intro heq
      rw [heq, hkey, hfree] at hlock
      cases hlock
    exact (update_of_ne hne _ _).trans hlock
  refine h.step hframe rfl h.keyed ?_ ?_ ?_ fun _ => Or.inl
  · refine ⟨update_self _ _ _, ?_, fun new hnew => (hpair new hnew).trans huser.symm⟩
    rw [hkey]
    exact hrow
  · intro new hnew
    exact h.pairs q request _ hreq new hnew
  · exact fun new hnew => Or.inr ⟨request, _, hreq, hnew⟩

/-- The rows after an INSERT: the new one and the old ones. -/
theorem insertToken_some {tokens : TokenHash → Option RefreshToken} {pair : Option IssuedPair}
    {token : TokenHash} {row : RefreshToken}
    (h : insertToken tokens pair token = some row) :
    (∃ new, pair = some new ∧ token = new.row.tokenHash ∧ row = new.row) ∨
      tokens token = some row := by
  cases pair with
  | none => exact Or.inr h
  | some new =>
      rcases update_some_iff.mp h with ⟨rfl, rfl⟩ | ⟨_, hold⟩
      · exact Or.inl ⟨new, rfl, rfl, rfl⟩
      · exact Or.inr hold

/-- An INSERT under an unused hash leaves the other rows alone. -/
theorem insertToken_of_ne {tokens : TokenHash → Option RefreshToken} {pair : Option IssuedPair}
    {token : TokenHash} (h : ∀ new, pair = some new → token ≠ new.row.tokenHash) :
    insertToken tokens pair token = tokens token := by
  cases pair with
  | none => rfl
  | some new => exact update_of_ne (h new rfl) _ _

/-- A hash that a request is to INSERT is that of no row. -/
theorem TokenBooks.unused (h : TokenBooks s) (hreq : s.requests q = some (request, stage))
    {new : IssuedPair} (hnew : stage.pair = some new) {token : TokenHash} {row : RefreshToken}
    (hrow : s.tokens token = some row) : token ≠ new.row.tokenHash := by
  intro heq
  rw [heq, (h.pairs q request stage hreq new hnew).2.1] at hrow
  cases hrow

/-- Books survive the COMMIT of a login. -/
theorem TokenBooks.commitLogin (h : TokenBooks s) {new : IssuedPair}
    (hreq : s.requests q = some (request, .issuing new)) :
    TokenBooks (s.commitLogin q request new) := by
  have hframe : Frame q s (s.commitLogin q request new) := by
    constructor
    · exact fun _ => id
    · intro token row hrow
      exact ⟨row, (update_of_ne (h.unused hreq rfl hrow) _ _).trans hrow, rfl, id⟩
    · intro token row p hp hlock hrow
      refine ⟨?_, (update_of_ne (h.unused hreq rfl hrow) _ _).trans hrow⟩
      have hlock' : (s.finish q request (.issued new.response)).locks token = some p :=
        finish_locks hp hlock
      exact hlock'
    · intro token hnone hsome
      refine ⟨request, _, new, hreq, rfl, ?_⟩
      by_contra hne
      exact hsome ((update_of_ne (Ne.symm hne) _ _).trans hnone)
  refine h.step hframe rfl ?_ trivial (fun _ hnone => nomatch hnone)
    (fun _ hnone => nomatch hnone) ?_
  · intro token row htoken
    rcases update_some_iff.mp htoken with ⟨rfl, rfl⟩ | ⟨_, hold⟩
    · exact ⟨rfl, (h.pairs q request _ hreq new rfl).1⟩
    · exact h.keyed token row hold
  · intro event hmem
    rcases List.mem_append.mp hmem with hold | hnew
    · exact Or.inl hold
    · obtain rfl := List.mem_singleton.mp hnew
      exact Or.inr fun _ hconsumes => nomatch hconsumes

/-- The row that a refresh or a logout holds is committed as revoked. -/
theorem commitHeld_revokes (h : TokenBooks s) {replaced : RefreshToken} {pair : Option IssuedPair}
    (hreq : s.requests q = some (request, .holding replaced pair)) :
    (s.commitHeld q request replaced pair).tokens replaced.tokenHash = some replaced.revoke := by
  obtain ⟨_, hrow, _⟩ := h.rows q request _ hreq
  exact (insertToken_of_ne fun _ hnew => h.unused hreq hnew hrow).trans (update_self _ _ _)

/-- The COMMIT of a held row leaves all other rows as they are. -/
theorem commitHeld_of_ne (h : TokenBooks s) {replaced row : RefreshToken}
    {pair : Option IssuedPair} {token : TokenHash}
    (hreq : s.requests q = some (request, .holding replaced pair))
    (hne : token ≠ replaced.tokenHash) (hrow : s.tokens token = some row) :
    (s.commitHeld q request replaced pair).tokens token = some row :=
  (insertToken_of_ne fun _ hnew => h.unused hreq hnew hrow).trans
    ((update_of_ne hne _ _).trans hrow)

theorem commitHeld_frame (h : TokenBooks s) {replaced : RefreshToken} {pair : Option IssuedPair}
    (hreq : s.requests q = some (request, .holding replaced pair)) :
    Frame q s (s.commitHeld q request replaced pair) := by
  obtain ⟨hlockq, hrow, _⟩ := h.rows q request _ hreq
  constructor
  · exact fun _ => id
  · intro token row htoken
    by_cases heq : token = replaced.tokenHash
    · subst heq
      obtain rfl : replaced = row := Option.some.inj (hrow.symm.trans htoken)
      exact ⟨replaced.revoke, commitHeld_revokes h hreq, rfl, fun _ => rfl⟩
    · exact ⟨row, commitHeld_of_ne h hreq heq htoken, rfl, id⟩
  · intro token row p hp hlock htoken
    have hne : token ≠ replaced.tokenHash := by
      intro heq
      rw [heq, hlockq] at hlock
      exact hp (Option.some.inj hlock).symm
    have hlock' : (s.finish q request (heldOutcome pair)).locks token = some p :=
      finish_locks hp hlock
    exact ⟨hlock', commitHeld_of_ne h hreq hne htoken⟩
  · intro token hnone hsome
    obtain ⟨row, hinserted⟩ := Option.ne_none_iff_exists'.mp hsome
    rcases insertToken_some hinserted with ⟨new, hnew, rfl, _⟩ | hold
    · exact ⟨request, _, new, hreq, hnew, rfl⟩
    · rcases update_some_iff.mp hold with ⟨rfl, _⟩ | ⟨_, hold⟩
      · rw [hrow] at hnone
        cases hnone
      · rw [hnone] at hold
        cases hold

/-- Books survive the COMMIT of a refresh or a logout that holds its row. -/
theorem TokenBooks.commitHeld (h : TokenBooks s) {replaced : RefreshToken}
    {pair : Option IssuedPair} (hreq : s.requests q = some (request, .holding replaced pair)) :
    TokenBooks (s.commitHeld q request replaced pair) := by
  obtain ⟨_, hrow, _⟩ := h.rows q request _ hreq
  refine h.step (commitHeld_frame h hreq) rfl ?_ trivial (fun _ hnone => nomatch hnone)
    (fun _ hnone => nomatch hnone) ?_
  · intro token row htoken
    rcases insertToken_some htoken with ⟨new, hnew, rfl, rfl⟩ | hold
    · exact ⟨rfl, (h.pairs q request _ hreq new hnew).1⟩
    · rcases update_some_iff.mp hold with ⟨rfl, rfl⟩ | ⟨_, hold⟩
      · exact ⟨rfl, (h.keyed _ _ hrow).2⟩
      · exact h.keyed token row hold
  · intro event hmem
    rcases List.mem_append.mp hmem with hold | hnew
    · exact Or.inl hold
    · obtain rfl := List.mem_singleton.mp hnew
      refine Or.inr fun token hconsumes => ?_
      have htoken : replaced.tokenHash = token := by
        cases pair with
        | none => exact of_decide_eq_true hconsumes
        | some _ => exact of_decide_eq_true hconsumes
      exact ⟨replaced.revoke, htoken ▸ commitHeld_revokes h hreq, rfl⟩

/-- Books survive the COMMIT of a logout that had nothing to update. -/
theorem TokenBooks.commitLeaving (h : TokenBooks s) {stored : Option RefreshToken}
    (hreq : s.requests q = some (request, .leaving stored)) :
    TokenBooks (s.commitLeaving q request stored) := by
  have hframe : Frame q s (s.commitLeaving q request stored) := by
    refine .of_tokens rfl (fun _ => id) fun token p hp hlock => ?_
    have hlock' : (s.finish q request .noContent).locks token = some p := finish_locks hp hlock
    exact hlock'
  refine h.step hframe rfl h.keyed trivial (fun _ hnone => nomatch hnone)
    (fun _ hnone => nomatch hnone) ?_
  intro event hmem
  rcases List.mem_append.mp hmem with hold | hnew
  · exact Or.inl hold
  · cases stored with
    | none => cases hnew
    | some stored =>
        obtain rfl := List.mem_singleton.mp hnew
        obtain ⟨hstored, row, hrow, _, hrevoked⟩ := h.rows q request _ hreq
        refine Or.inr fun token hconsumes => ?_
        have htoken : stored.tokenHash = token := of_decide_eq_true hconsumes
        exact ⟨row, htoken ▸ hrow, hrevoked hstored⟩

/-- A row just read is there. -/
theorem StillThere.read (h : TokenBooks s) {token : TokenHash} {row : RefreshToken}
    (hrow : s.tokens token = some row) : StillThere s row := by
  obtain ⟨hkey, _⟩ := h.keyed token row hrow
  exact ⟨row, hkey ▸ hrow, rfl, id⟩

/-- One step keeps the books. -/
theorem step_tokenBooks (h : TokenBooks s) (hstep : authStep cfg fns s a = some t) :
    TokenBooks t := by
  cases a with
  | begin q request =>
      obtain ⟨_, rfl⟩ := auth_begin hstep
      exact h.at_ trivial rfl
  | read q =>
      obtain ⟨raw, ⟨_, rfl | ⟨stored, hstored, rfl⟩⟩ | ⟨_, rfl⟩⟩ := auth_read hstep
      · exact h.finish
      · exact h.at_ (.read h hstored) rfl
      · cases hrow : s.tokens (fns.hashRefreshToken raw) with
        | none => exact h.at_ trivial rfl
        | some stored =>
            dsimp only [afterLogoutRead]
            split
            case isTrue hrevoked => exact h.at_ ⟨hrevoked, .read h hrow⟩ rfl
            case isFalse => exact h.at_ ⟨.read h hrow, fun _ hnone => nomatch hnone⟩ rfl
  | check q raw =>
      rcases auth_check hstep with ⟨_, _, _, _, _, rfl⟩ | ⟨_, _, user, hreq, hfresh, hcases⟩
      · exact h.finish
      · rcases hcases with ⟨_, _, rfl, rfl, rfl⟩ | ⟨stored, rfl, _, huser, rfl⟩
        · exact h.draw (issueTokenPair cfg fns user raw s.clock) hfresh rfl rfl trivial
        · have hthere : StillThere s stored := h.rows q _ _ hreq
          refine h.draw (issueTokenPair cfg fns user raw s.clock) hfresh rfl rfl ⟨hthere, ?_⟩
          intro new hnew
          obtain rfl := Option.some.inj hnew
          exact huser
  | update q =>
      obtain ⟨_, _, _, hreq, rfl | ⟨_, hrow, hfree, rfl⟩⟩ := auth_update hstep
      · exact h.finish
      · exact h.hold hreq hrow hfree
  | commit q =>
      obtain ⟨_, ⟨_, hreq, rfl⟩ | ⟨_, _, hreq, rfl⟩ | ⟨_, hreq, rfl⟩⟩ := auth_commit hstep
      · exact h.commitLogin hreq
      · exact h.commitHeld hreq
      · exact h.commitLeaving hreq
  | abort q =>
      obtain ⟨_, _, _, _, rfl⟩ := auth_abort hstep
      exact h.finish
  | advance seconds =>
      obtain rfl := auth_advance hstep
      exact ⟨h.keyed, h.rows, h.pairs, h.apart, h.consumed⟩

/-- **The books are kept by every run.** -/
theorem token_books_kept {ok : AuthState → AuthAction → Prop} {users : List User}
    {acts : List AuthAction} (h : Steps (authSystem cfg fns) ok (.init users) acts s) :
    TokenBooks s := by
  refine h.invariant TokenBooks ?_ fun _ _ _ hs _ hstep => step_tokenBooks hs hstep
  constructor <;> intros <;> simp_all [AuthState.init]

end Keep

/-- A token is consumed at most once, and never refreshed after that; the
unrevoked tokens of a user are backed by logins. -/
structure Rotation (s : AuthState) : Prop where
  held : ∀ q request replaced new, s.requests q = some (request, .holding replaced (some new)) →
    replaced.revoked = false
  once : s.history.Pairwise fun earlier later =>
    ∀ token, earlier.consumes token = true → later.refreshes token = false
  backed : ∀ u (tokens : Finset TokenHash), (∀ token ∈ tokens, s.Unrevoked u token) →
    tokens.card ≤ s.loginsOf u

section Rotate

variable {cfg : Settings} {fns : SecurityFunctions} {s t : AuthState} {q : AuthId}
  {request : AuthRequest} {stage : AuthStage} {a : AuthAction} {u : UserId} {token : TokenHash}

/-- A step that commits nothing. -/
theorem Rotation.quiet (h : Rotation s) (hhistory : t.history = s.history)
    (htokens : t.tokens = s.tokens)
    (hreq : t.requests = update s.requests q (some (request, stage)))
    (hheld : ∀ replaced new, stage = .holding replaced (some new) → replaced.revoked = false) :
    Rotation t := by
  constructor
  · intro p request' replaced new hp
    rw [hreq] at hp
    rcases update_some_iff.mp hp with ⟨rfl, hnew⟩ | ⟨_, hold⟩
    · cases hnew
      exact hheld replaced new rfl
    · exact h.held p request' replaced new hold
  · rw [hhistory]
    exact h.once
  · intro u tokens hall
    rw [AuthState.loginsOf, hhistory]
    refine h.backed u tokens fun token hmem => ?_
    obtain ⟨row, hrow, hrest⟩ := hall token hmem
    exact ⟨row, htokens ▸ hrow, hrest⟩

/-- A step that commits a request. -/
theorem Rotation.commits (h : Rotation s) {event : AuthEvent} {outcome : AuthOutcome}
    (hhistory : t.history = s.history ++ [event])
    (hreq : t.requests = update s.requests q (some (request, .answered outcome)))
    (honce : ∀ earlier ∈ s.history, ∀ token, earlier.consumes token = true →
      event.refreshes token = false)
    (hbacked : ∀ u (tokens : Finset TokenHash), (∀ token ∈ tokens, t.Unrevoked u token) →
      tokens.card ≤ s.loginsOf u + [event].countP fun event => event.isLoginOf u) :
    Rotation t := by
  constructor
  · intro p request' replaced new hp
    rw [hreq] at hp
    rcases update_some_iff.mp hp with ⟨_, hnew⟩ | ⟨_, hold⟩
    · cases hnew
    · exact h.held p request' replaced new hold
  · rw [hhistory, List.pairwise_append]
    refine ⟨h.once, List.pairwise_singleton _ _, ?_⟩
    intro earlier hmem later hlater
    obtain rfl := List.mem_singleton.mp hlater
    exact honce earlier hmem
  · intro u tokens hall
    rw [AuthState.loginsOf, hhistory, List.countP_append]
    exact hbacked u tokens hall

/-- After the COMMIT of a login the unrevoked tokens are the old ones and the
new one. -/
theorem unrevoked_commitLogin {new : IssuedPair}
    (h : (s.commitLogin q request new).Unrevoked u token) :
    (token = new.row.tokenHash ∧ new.row.userId = u) ∨ s.Unrevoked u token := by
  obtain ⟨row, hrow, huser, hvalid⟩ := h
  rcases update_some_iff.mp hrow with ⟨rfl, rfl⟩ | ⟨_, hold⟩
  · exact Or.inl ⟨rfl, huser⟩
  · exact Or.inr ⟨row, hold, huser, hvalid⟩

/-- After the COMMIT of a refresh or a logout the consumed token is revoked, and
the unrevoked ones are the old ones and the new one. -/
theorem unrevoked_commitHeld {replaced : RefreshToken} {pair : Option IssuedPair}
    (hpair : ∀ new, pair = some new → replaced.tokenHash ≠ new.row.tokenHash)
    (h : (s.commitHeld q request replaced pair).Unrevoked u token) :
    token ≠ replaced.tokenHash ∧
      ((∃ new, pair = some new ∧ token = new.row.tokenHash ∧ new.row.userId = u) ∨
        s.Unrevoked u token) := by
  obtain ⟨row, hrow, huser, hvalid⟩ := h
  rcases insertToken_some hrow with ⟨new, hnew, rfl, rfl⟩ | hold
  · exact ⟨(hpair new hnew).symm, Or.inl ⟨new, hnew, rfl, huser⟩⟩
  · rcases update_some_iff.mp hold with ⟨_, rfl⟩ | ⟨hne, hold⟩
    · cases hvalid
    · exact ⟨hne, Or.inr ⟨row, hold, huser, hvalid⟩⟩

/-- A login backs one more token. -/
theorem Rotation.login (h : Rotation s) {new : IssuedPair} :
    Rotation (s.commitLogin q request new) := by
  refine h.commits rfl rfl (fun _ _ _ _ => rfl) ?_
  intro u tokens hall
  by_cases huser : new.row.userId = u
  · have hold : (tokens.erase new.row.tokenHash).card ≤ s.loginsOf u := by
      refine h.backed u _ fun token hmem => ?_
      obtain ⟨hne, hmem⟩ := Finset.mem_erase.mp hmem
      rcases unrevoked_commitLogin (hall token hmem) with ⟨heq, _⟩ | hold
      · exact absurd heq hne
      · exact hold
    have hcard := Finset.pred_card_le_card_erase (s := tokens) (a := new.row.tokenHash)
    have hone : [AuthEvent.loggedIn new.row].countP (fun event => event.isLoginOf u) = 1 := by
      simp [AuthEvent.isLoginOf, huser]
    omega
  · refine Nat.le_trans (h.backed u tokens fun token hmem => ?_) (Nat.le_add_right _ _)
    rcases unrevoked_commitLogin (hall token hmem) with ⟨_, heq⟩ | hold
    · exact absurd heq huser
    · exact hold

/-- A refresh trades one unrevoked token for another, and a logout gives one
up. -/
theorem Rotation.rotate (h : Rotation s) (hbooks : TokenBooks s) {replaced : RefreshToken}
    {pair : Option IssuedPair} (hreq : s.requests q = some (request, .holding replaced pair)) :
    Rotation (s.commitHeld q request replaced pair) := by
  obtain ⟨_, hrow, huser⟩ := hbooks.rows q request _ hreq
  have hpair : ∀ new, pair = some new → replaced.tokenHash ≠ new.row.tokenHash :=
    fun new hnew => hbooks.unused hreq hnew hrow
  refine h.commits rfl rfl ?_ ?_
  · intro earlier hmem token hconsumes
    cases pair with
    | none => rfl
    | some new =>
        have hvalid := h.held q request replaced new hreq
        obtain ⟨row, htoken, hrevoked⟩ := hbooks.consumed earlier hmem token hconsumes
        refine decide_eq_false fun heq => ?_
        rw [← heq, hrow] at htoken
        obtain rfl := Option.some.inj htoken
        rw [hvalid] at hrevoked
        cases hrevoked
  · intro u tokens hall
    refine Nat.le_trans ?_ (Nat.le_add_right _ _)
    by_cases hnew : ∃ new, pair = some new ∧ new.row.tokenHash ∈ tokens ∧ new.row.userId = u
    · obtain ⟨new, rfl, hmem, hof⟩ := hnew
      have hvalid := h.held q request replaced new hreq
      have hout : replaced.tokenHash ∉ tokens.erase new.row.tokenHash := by
        intro hin
        exact (unrevoked_commitHeld hpair (hall _ (Finset.mem_of_mem_erase hin))).1 rfl
      have hcard : (insert replaced.tokenHash (tokens.erase new.row.tokenHash)).card =
          tokens.card := by
        rw [Finset.card_insert_of_notMem hout, Finset.card_erase_add_one hmem]
      rw [← hcard]
      refine h.backed u _ fun token htoken => ?_
      rcases Finset.mem_insert.mp htoken with rfl | hin
      · exact ⟨replaced, hrow, (huser new rfl).symm.trans hof, hvalid⟩
      · obtain ⟨hne, hin⟩ := Finset.mem_erase.mp hin
        rcases (unrevoked_commitHeld hpair (hall token hin)).2 with ⟨new', hnew', heq, _⟩ | hold
        · obtain rfl := Option.some.inj hnew'
          exact absurd heq hne
        · exact hold
    · refine h.backed u tokens fun token hmem => ?_
      rcases (unrevoked_commitHeld hpair (hall token hmem)).2 with ⟨new, hsome, rfl, hof⟩ | hold
      · exact absurd ⟨new, hsome, hmem, hof⟩ hnew
      · exact hold

/-- Of events none of which refreshes what an earlier one has consumed, at most
one refreshes a token. -/
theorem refreshes_le_one {history : List AuthEvent}
    (h : history.Pairwise fun earlier later =>
      ∀ token, earlier.consumes token = true → later.refreshes token = false)
    (token : TokenHash) : history.countP (fun event => event.refreshes token) ≤ 1 := by
  induction h with
  | nil => exact Nat.zero_le 1
  | @cons event rest hfirst _ ih =>
      cases hrefreshes : event.refreshes token with
      | false => simpa [List.countP_cons, hrefreshes] using ih
      | true =>
          have hconsumes : event.consumes token = true := by
            cases event with
            | refreshed _ _ => exact hrefreshes
            | loggedIn _ => cases hrefreshes
            | loggedOut _ => cases hrefreshes
          have hnone : rest.countP (fun event => event.refreshes token) = 0 := by
            rw [List.countP_eq_zero]
            intro later hmem
            simp [hfirst later hmem token hconsumes]
          simp [hrefreshes, hnone]

/-- One step keeps the rotation in order, where no refresh overwrites a row that
is revoked. -/
theorem step_rotation (hbooks : TokenBooks s) (h : Rotation s) (hok : updatesUnrevoked s a = true)
    (hstep : authStep cfg fns s a = some t) : Rotation t := by
  cases a with
  | begin q request =>
      obtain ⟨_, rfl⟩ := auth_begin hstep
      exact h.quiet rfl rfl rfl (by simp)
  | read q =>
      obtain ⟨raw, ⟨_, rfl | ⟨stored, _, rfl⟩⟩ | ⟨_, rfl⟩⟩ := auth_read hstep
      · exact h.quiet rfl rfl rfl (by simp)
      · exact h.quiet rfl rfl rfl (by simp)
      · refine h.quiet rfl rfl rfl ?_
        intro replaced new heq
        unfold afterLogoutRead at heq
        split at heq
        · cases heq
        · split at heq <;> cases heq
  | check q raw =>
      rcases auth_check hstep with ⟨_, _, _, _, _, rfl⟩ | ⟨_, _, _, _, _, hcases⟩
      · exact h.quiet rfl rfl rfl (by simp)
      · rcases hcases with ⟨_, _, _, _, rfl⟩ | ⟨_, _, _, _, rfl⟩
        · exact h.quiet rfl rfl rfl (by simp)
        · exact h.quiet rfl rfl rfl (by simp)
  | update q =>
      obtain ⟨_, stored, pair, hreq, rfl | ⟨row, hrow, _, rfl⟩⟩ := auth_update hstep
      · exact h.quiet rfl rfl rfl (by simp)
      · refine h.quiet rfl rfl rfl ?_
        intro replaced new heq
        cases heq
        simpa [updatesUnrevoked, hreq, hrow] using hok
  | commit q =>
      obtain ⟨request, ⟨_, _, rfl⟩ | ⟨_, _, hreq, rfl⟩ | ⟨stored, _, rfl⟩⟩ := auth_commit hstep
      · exact h.login
      · exact h.rotate hbooks hreq
      · cases stored with
        | none => exact h.quiet (List.append_nil _) rfl rfl (by simp)
        | some _ =>
            refine h.commits rfl rfl (fun _ _ _ _ => rfl) ?_
            intro u tokens hall
            exact Nat.le_trans (h.backed u tokens hall) (Nat.le_add_right _ _)
  | abort q =>
      obtain ⟨_, _, _, _, rfl⟩ := auth_abort hstep
      exact h.quiet rfl rfl rfl (by simp)
  | advance seconds =>
      obtain rfl := auth_advance hstep
      exact ⟨h.held, h.once, h.backed⟩

variable {users : List User} {acts : List AuthAction}

theorem rotation_kept
    (h : Steps (authSystem cfg fns) (fun s a => updatesUnrevoked s a) (.init users) acts s) :
    Rotation s := by
  have hinit : TokenBooks (.init users) := by
    have hnil : Steps (authSystem cfg fns) free (.init users) [] (.init users) := .nil _
    exact token_books_kept hnil
  refine h.invariant_under TokenBooks Rotation hinit ⟨?_, .nil, ?_⟩
    (fun _ _ _ hs hstep => step_tokenBooks hs hstep)
    (fun _ _ _ hs hrot hok hstep => step_rotation hs hrot hok hstep)
  · intro _ _ _ _ hnone
    cases hnone
  · intro u tokens hall
    have hempty : tokens = ∅ := by
      refine Finset.eq_empty_of_forall_notMem fun token hmem => ?_
      obtain ⟨_, hnone, _⟩ := hall token hmem
      cases hnone
    rw [hempty]
    exact Nat.zero_le _

/-- **A refresh token is consumed at most once**, in every run in which no
refresh sends its UPDATE to a row that was revoked since it was read:

* after the COMMIT of a refresh or logout of a token no refresh of it commits;
* a token is exchanged for at most one new pair;
* a user has at most as many unrevoked tokens as successful logins. -/
theorem token_consumed_once
    (h : Steps (authSystem cfg fns) (fun s a => updatesUnrevoked s a) (.init users) acts s) :
    (s.history.Pairwise fun earlier later =>
      ∀ token, earlier.consumes token = true → later.refreshes token = false) ∧
    (∀ token, s.history.countP (fun event => event.refreshes token) ≤ 1) ∧
    ∀ u (tokens : Finset TokenHash), (∀ token ∈ tokens, s.Unrevoked u token) →
      tokens.card ≤ s.loginsOf u := by
  have hrot := rotation_kept h
  refine ⟨hrot.once, fun token => ?_, hrot.backed⟩
  exact refreshes_le_one hrot.once token

end Rotate

/-- Three random tokens and their hashes. -/
def sampleTokens : List (String × TokenHash) :=
  [("efpPHvFukT2ITTyYu0MI-lkLICKffkSsWD1S8R5GStI8FLChxj0-pRmP00xXAJPv",
      "f1b608d2e9c665b702bed99aa353aea301dfa24f19b7ee484c9f72fd14d49bdf"),
    ("oHincLxUjgH0V8GXCdFmaX1bTziQotkYgjIUKbngzVPpd9skrmX96LllZI3Q6XbJ",
      "9601535b264eb29dec713d95e48699bacc0f31f80a092dae27b463f7d83b82e9"),
    ("Io4NXS8Q6Jhab14mNNUqhv5d3IFPFT4f36tTvaeeyehOffEaBeozFQ96u5smqDzN",
      "5e170e4136286bbbe355f815e16351666de73f286a6df9a31baf813866ec8e09")]

def sampleRaw (i : Nat) : String := (sampleTokens.map Prod.fst).getD i ""
def sampleHash (i : Nat) : TokenHash := (sampleTokens.map Prod.snd).getD i ""

/-- A passenger whose password is `supersecret1`, and the functions on that
password, on access tokens of that passenger and on `sampleTokens`. -/
def sampleAccount : User :=
  { sampleUser 1 .passenger with
    hashedPassword := "$2b$12$abcdefghijklmnopqrstuusUC0gcS7wbEafHqAdIiQTv9eIdolB4q" }

def sampleSecurity : SecurityFunctions where
  verifyPassword := fun plain hashed =>
    plain = "supersecret1" ∧ hashed = sampleAccount.hashedPassword
  createAccessToken := fun _ _ _ =>
    "eyJhbGciOiJIUzI1NiIsInR5cCI6IkpXVCJ9." ++
    "eyJzdWIiOiIxIiwicm9sZSI6InBhc3NlbmdlciIsInR5cGUiOiJhY2Nlc3MiLCJleHAiOjkwMH0." ++
    "5BO0EqeMyK-qHCvDy9cfpIo284dciD9knwudTUUj3Jw"
  hashRefreshToken := fun raw => (sampleTokens.lookup raw).getD ""

/-- A login, a refresh, a replay of the token that it consumed, and a logout. -/
def rotateOnce : List AuthAction :=
  [.begin 0 (.login "a@example.com" "supersecret1"), .check 0 (sampleRaw 0), .commit 0,
    .begin 1 (.refresh (sampleRaw 0)), .read 1, .check 1 (sampleRaw 1), .update 1, .commit 1,
    .begin 2 (.refresh (sampleRaw 0)), .read 2, .check 2 (sampleRaw 2),
    .begin 3 (.logout (sampleRaw 1)), .read 3, .update 3, .commit 3]

theorem replayed_token_rejected : ∃ s,
    Steps (authSystem {} sampleSecurity) (fun s a => updatesUnrevoked s a)
      (.init [sampleAccount]) rotateOnce s ∧
    s.requests 2 = some (.refresh (sampleRaw 0),
      .answered (.rejected ⟨401, "Refresh token has been revoked"⟩)) ∧
    s.history.countP (fun event => event.refreshes (sampleHash 0)) ≤ 1 := by
  have hreplay : (execWhere (authSystem {} sampleSecurity) (fun s a => updatesUnrevoked s a)
      (.init [sampleAccount]) rotateOnce).any (fun s => s.requests 2 =
        some (.refresh (sampleRaw 0),
          .answered (.rejected ⟨401, "Refresh token has been revoked"⟩))) = true := by decide
  obtain ⟨s, hrun, hs⟩ := Steps.of_execWhere_any hreplay
  exact ⟨s, hrun, of_decide_eq_true hs, (token_consumed_once hrun).2.1 (sampleHash 0)⟩

/-- Two refreshes of one token both read it unrevoked. -/
def overlappingRefreshes : List AuthAction :=
  [.begin 0 (.login "a@example.com" "supersecret1"), .check 0 (sampleRaw 0), .commit 0,
    .begin 1 (.refresh (sampleRaw 0)), .begin 2 (.refresh (sampleRaw 0)), .read 1, .read 2,
    .check 1 (sampleRaw 1), .check 2 (sampleRaw 2), .update 1, .commit 1, .update 2, .commit 2]

/-- The first token is exchanged for two pairs, and one login backs two
unrevoked tokens. -/
theorem token_exchanged_twice :
    ¬ ∀ (cfg : Settings) (fns : SecurityFunctions) (users : List User) (acts : List AuthAction)
      (s : AuthState), Steps (authSystem cfg fns) free (.init users) acts s →
      (s.history.Pairwise fun earlier later =>
        ∀ token, earlier.consumes token = true → later.refreshes token = false) ∧
      (∀ token, s.history.countP (fun event => event.refreshes token) ≤ 1) ∧
      ∀ u (tokens : Finset TokenHash), (∀ token ∈ tokens, s.Unrevoked u token) →
        tokens.card ≤ s.loginsOf u := by
  intro hall
  have hreplay : (exec (authSystem {} sampleSecurity) (.init [sampleAccount])
      overlappingRefreshes).any (fun s =>
        1 < s.history.countP fun event => event.refreshes (sampleHash 0)) = true := by decide
  obtain ⟨s, hrun, hs⟩ := Steps.of_exec_any hreplay
  have hone := (hall {} sampleSecurity [sampleAccount] overlappingRefreshes s hrun).2.1
    (sampleHash 0)
  have htwo := of_decide_eq_true hs
  omega

end RideFlow
