import RideFlow.AccountRollback
import RideFlow.Idempotency
import RideFlow.RequestRollback
import RideFlow.Server
import RideFlow.TokenProvenance

/-!
# Rejected requests change nothing

`ServerState.without` forgets a set of requests on the whole server.  Their
actions are not seen through it until one of them is past the point where it
could be rejected, and everybody else's actions can be taken without them, with
the same result (`server_without`, `server_unseen`, `server_spent`).  By the
rule of erasure the run without a rejected request then ends with the same
tables, pool and reservation keys.

The one stage in which a request has had an effect that no rollback undoes is
that of a transition that has reserved a driver; it cannot be rejected any more,
since its second `apply_transition` never raises.

A run may start from any tables, as long as no request is in progress
(`Quiet`).
-/

namespace RideFlow

open Function Erasure Runs

/-- The server without the requests that are gone. -/
def ServerState.without (gone : RequestName → Bool) (s : ServerState) : ServerState where
  accounts := s.accounts.without (fun q => gone (.auth q)) fun q => gone (.register q)
  drivers := s.drivers.without fun q => gone (.driver q)
  rides := s.rides.without fun q => gone (.ride q)
  creates := s.creates.without fun q => gone (.create q)
  refused := hide gone s.refused

/-- Its handler is past the point where the request could be rejected. -/
def ServerState.SpentIn (s : ServerState) : RequestName → Prop
  | .register q => s.accounts.Spent q
  | .auth q => s.accounts.auth.Spent q
  | .driver q => s.drivers.Spent q
  | .ride q => s.rides.Spent q
  | .create q => s.creates.Spent q

/-- Some request that is gone is spent, and was not refused at the door. -/
def ServerState.Spent (s : ServerState) (gone : RequestName → Bool) : Prop :=
  ∃ name, gone name = true ∧ s.refused name = none ∧ s.SpentIn name

/-- No request is in progress or has ever been. -/
structure ServerState.Quiet (s : ServerState) : Prop where
  registers : s.accounts.registers = fun _ => none
  taken : s.accounts.taken = fun _ => none
  auth : s.accounts.auth.requests = fun _ => none
  tokenLocks : s.accounts.auth.locks = fun _ => none
  drivers : s.drivers.requests = fun _ => none
  inserting : s.drivers.inserting = fun _ => none
  begun : s.drivers.begun = []
  rides : s.rides.requests = fun _ => none
  rideLocks : s.rides.locks = fun _ => none
  creates : s.creates.requests = fun _ => none
  refused : s.refused = fun _ => none

theorem quiet_init (users : List User) : (ServerState.init users).Quiet :=
  ⟨rfl, rfl, rfl, rfl, rfl, rfl, rfl, rfl, rfl, rfl, rfl⟩

/-- There is nothing to forget in a quiet state. -/
theorem ServerState.Quiet.without {s : ServerState} (h : s.Quiet) (gone : RequestName → Bool) :
    s.without gone = s := by
  have haccounts : s.accounts.without (fun q => gone (.auth q)) (fun q => gone (.register q)) =
      s.accounts :=
    AccountState.without_quiet (AuthState.without_quiet h.auth h.tokenLocks) h.registers h.taken
  have hdrivers : s.drivers.without (fun q => gone (.driver q)) = s.drivers :=
    DriverState.without_quiet h.drivers h.inserting h.begun
  have hrides : s.rides.without (fun q => gone (.ride q)) = s.rides :=
    RideState.without_quiet h.rides h.rideLocks
  have hcreates : s.creates.without (fun q => gone (.create q)) = s.creates :=
    CreateState.without_quiet h.creates
  have hrefused : hide gone s.refused = s.refused := by rw [h.refused, hide_none]
  simp only [ServerState.without, haccounts, hdrivers, hrides, hcreates, hrefused]

namespace ServerState

variable {gone : RequestName → Bool} {s : ServerState} {name : RequestName}

theorem without_entered (hname : gone name = false) :
    (s.without gone).entered name = s.entered name := by
  cases name with
  | register q => exact congrArg Option.isSome (AccountState.without_registers hname)
  | auth q => exact congrArg Option.isSome (AuthState.without_requests hname)
  | driver q => exact congrArg Option.isSome (DriverState.without_requests hname)
  | ride q => exact congrArg Option.isSome (RideState.without_requests hname)
  | create q => exact congrArg Option.isSome (CreateState.without_requests hname)

theorem without_refuse (hname : gone name = false) (error : Rejection) :
    (s.refuse name error).without gone = (s.without gone).refuse name error := by
  simp only [without, refuse, hide_update hname]

theorem without_gone_refuse (hname : gone name = true) (error : Rejection) :
    (s.refuse name error).without gone = s.without gone := by
  simp only [without, refuse, hide_update_gone hname]

/-- A spent request has entered. -/
theorem SpentIn.entered (h : s.SpentIn name) : s.entered name = true := by
  cases name with
  | register q =>
      obtain ⟨_, hentry, _⟩ := h
      simp [ServerState.entered, hentry]
  | auth q =>
      obtain ⟨_, hentry, _⟩ := h
      simp [ServerState.entered, hentry]
  | driver q =>
      obtain ⟨_, hentry, _⟩ := h
      simp [ServerState.entered, hentry]
  | ride q =>
      obtain ⟨_, hentry, _⟩ := h
      simp [ServerState.entered, hentry]
  | create q =>
      obtain ⟨_, hentry, _⟩ := h
      simp [ServerState.entered, hentry]

/-- A rejected request is not spent. -/
theorem Rejected.unspent {error : Rejection} (h : s.Rejected name error) :
    s.refused name ≠ none ∨ ¬ s.SpentIn name := by
  rcases h with hrefused | hanswered
  · exact Or.inl (by simp [hrefused])
  · refine Or.inr ?_
    cases name with
    | register q =>
        obtain ⟨_, hentry⟩ := hanswered
        rintro ⟨_, hentry', hspent⟩
        cases hentry.symm.trans hentry'
        exact hspent
    | auth q =>
        obtain ⟨_, hentry⟩ := hanswered
        rintro ⟨_, hentry', hspent⟩
        cases hentry.symm.trans hentry'
        exact hspent
    | driver q =>
        obtain ⟨_, hentry⟩ := hanswered
        rintro ⟨_, hentry', hspent⟩
        cases hentry.symm.trans hentry'
        exact hspent
    | ride q =>
        obtain ⟨_, hentry⟩ := hanswered
        rintro ⟨_, hentry', hspent⟩
        cases hentry.symm.trans hentry'
        exact hspent
    | create q =>
        obtain ⟨_, hentry⟩ := hanswered
        rintro ⟨_, hentry', hspent⟩
        cases hentry.symm.trans hentry'
        exact hspent

end ServerState

/-! ### Forgetting is a simulation -/

section Erase

variable {cfg : Settings} {fns : ServerFunctions} {s t : ServerState} {a : ServerAction}
  {gone : RequestName → Bool}

/-- The creation of a ride publishes the same without those that are gone. -/
theorem published_without {a : CreateAction}
    (hother : ∀ q, a.request = some q → gone (.create q) = false) :
    (s.without gone).creates.published a = s.creates.published a := by
  cases a with
  | commit q =>
      have hreq : (s.without gone).creates.requests q = s.creates.requests q :=
        CreateState.without_requests (hother q rfl)
      simp only [CreateState.published, hreq]
      rfl
  | _ => rfl

theorem insert_without (rides : RideState) (gone : ReqId → Bool) (ride : Option Ride) :
    (rides.insert ride).without gone = (rides.without gone).insert ride := by
  cases ride <;> rfl

/-- A search finds the same without those that are gone. -/
theorem finds_without {a : RideAction}
    (hother : ∀ q, a.request = some q → gone (.ride q) = false) :
    (s.without gone).finds cfg fns a = s.finds cfg fns a := by
  cases a with
  | search q candidates =>
      have hreq : (s.without gone).rides.requests q = s.rides.requests q :=
        RideState.without_requests (hother q rfl)
      simp only [ServerState.finds, hreq]
      rfl
  | _ => rfl

/-- The beginning of another handler is the same without those that are gone. -/
theorem enterHandler_without {user : User} {request : ProtectedRequest}
    (hname : gone request.name = false) (h : enterHandler cfg fns s user request = some t) :
    enterHandler cfg fns (s.without gone) user request = some (t.without gone) := by
  rcases enterHandler_cases h with ⟨q, body, drivers, rfl, hstep, rfl⟩ |
    ⟨q, rideId, payload, rides, rfl, hstep, rfl⟩ | ⟨q, payload, key, creates, rfl, hstep, rfl⟩
  · refine Option.map_eq_some_iff.mpr ⟨_, driver_without ?_ hstep, rfl⟩
    rintro _ ⟨⟩
    exact hname
  · refine Option.map_eq_some_iff.mpr ⟨_, ride_without ?_ hstep, rfl⟩
    rintro _ ⟨⟩
    exact hname
  · refine Option.map_eq_some_iff.mpr ⟨_, create_without ?_ hstep, rfl⟩
    rintro _ ⟨⟩
    exact hname

theorem move_without (hother : ∀ name, a.serves = some name → gone name = false)
    (h : serverMove cfg fns s a = some t) :
    serverMove cfg fns (s.without gone) a = some (t.without gone) := by
  cases a with
  | arrive request token =>
      have hname := hother _ rfl
      have hauth : (s.without gone).authenticated fns request token =
          s.authenticated fns request token := rfl
      rcases server_arrive h with ⟨error, herror, hentered, rfl⟩ | ⟨user, huser, hbegin⟩
      · simp only [serverMove, hauth, herror, ServerState.without_entered hname, hentered,
          ServerState.without_refuse hname]
        rfl
      · simp only [serverMove, hauth, huser]
        exact enterHandler_without hname hbegin
  | register a =>
      obtain ⟨accounts, haccounts, rfl⟩ := server_register h
      exact Option.map_eq_some_iff.mpr ⟨_, register_without (hother _ rfl) haccounts, rfl⟩
  | auth a =>
      obtain ⟨hwithin, auth, hauth, rfl⟩ := server_auth h
      have hauth' : authStep cfg fns.toSecurityFunctions
          (s.accounts.auth.without fun q => gone (.auth q)) a =
            some (auth.without fun q => gone (.auth q)) :=
        auth_without (fun q hq => hother _ (by simp [ServerAction.serves, hq])) hauth
      simp only [serverMove, hwithin, if_true, accountStep]
      refine Option.map_eq_some_iff.mpr ⟨_, Option.map_eq_some_iff.mpr ⟨_, hauth', rfl⟩, rfl⟩
  | driver a =>
      obtain ⟨hwithin, drivers, hdrivers, rfl⟩ := server_driver h
      simp only [serverMove, hwithin, if_true]
      refine Option.map_eq_some_iff.mpr ⟨_, driver_without ?_ hdrivers, rfl⟩
      exact fun q hq => hother _ (by simp [ServerAction.serves, hq])
  | ride a =>
      obtain ⟨hwithin, hfinds, rides, hrides, rfl⟩ := server_ride h
      have hride : ∀ q, a.request = some q → gone (.ride q) = false :=
        fun q hq => hother _ (by simp [ServerAction.serves, hq])
      simp only [serverMove, hwithin, finds_without hride, hfinds, and_self, if_true]
      exact Option.map_eq_some_iff.mpr ⟨_, ride_without hride hrides, rfl⟩
  | create a =>
      obtain ⟨hwithin, creates, hcreates, rfl⟩ := server_create h
      have hcreate : ∀ q, a.request = some q → gone (.create q) = false :=
        fun q hq => hother _ (by simp [ServerAction.serves, hq])
      simp only [serverMove, hwithin, if_true, published_without hcreate]
      refine Option.map_eq_some_iff.mpr ⟨_, create_without hcreate hcreates, ?_⟩
      simp only [ServerState.without, insert_without]
  | advance seconds =>
      cases h
      rfl

/-- **What others do is the same without those that are gone.** -/
theorem server_without (hother : ∀ name, a.serves = some name → gone name = false)
    (h : serverStep cfg fns s a = some t) :
    serverStep cfg fns (s.without gone) a = some (t.without gone) := by
  obtain ⟨hopen, hmove⟩ := server_cases h
  have hopen' : (a.serves.any fun name => ((s.without gone).refused name).isSome) = false := by
    cases hserves : a.serves with
    | none => rfl
    | some name =>
        have hrefused : (s.without gone).refused name = s.refused name :=
          hide_apply (hother name hserves)
        simp [hrefused, hopen name hserves]
  rw [serverStep, hopen']
  exact move_without hother hmove

/-- What a driver's request that is gone does is not seen, or it is spent. -/
theorem unseen_driver {a : DriverAction} {q : DriverReqId} {drivers : DriverState}
    (hname : gone (.driver q) = true) (hopen : s.refused (.driver q) = none)
    (hmine : a.request = some q) (hstep : driverStep cfg s.drivers a = some drivers) :
    ({ s with drivers := drivers } : ServerState).without gone = s.without gone ∨
      ({ s with drivers := drivers } : ServerState).Spent gone := by
  have hunseen : drivers.without (fun q => gone (.driver q)) =
      s.drivers.without (fun q => gone (.driver q)) ∨ drivers.Spent q :=
    driver_unseen hmine hname hstep
  rcases hunseen with hsame | hspent
  · left
    simp only [ServerState.without, hsame]
  · exact Or.inr ⟨.driver q, hname, hopen, hspent⟩

theorem unseen_ride (hfit : BranchesFit s.rides) {a : RideAction} {q : ReqId} {rides : RideState}
    (hname : gone (.ride q) = true) (hopen : s.refused (.ride q) = none)
    (hmine : a.request = some q) (hstep : rideStep cfg s.rides a = some rides) :
    ({ s with rides := rides } : ServerState).without gone = s.without gone ∨
      ({ s with rides := rides } : ServerState).Spent gone := by
  have hunseen : rides.without (fun q => gone (.ride q)) =
      s.rides.without (fun q => gone (.ride q)) ∨ rides.Spent q :=
    ride_unseen hfit hmine hname hstep
  rcases hunseen with hsame | hspent
  · left
    simp only [ServerState.without, hsame]
  · exact Or.inr ⟨.ride q, hname, hopen, hspent⟩

/-- A COMMIT that publishes a ride is that of a request that is spent. -/
theorem published_spent {a : CreateAction} {q : CreateId} {creates : CreateState} {ride : Ride}
    (hmine : a.request = some q) (hpublished : s.creates.published a = some ride)
    (hstep : createStep fns.body s.creates a = some creates) : creates.Spent q := by
  cases a with
  | commit p =>
      cases hmine
      obtain ⟨call, ⟨_, _, ⟨_, rfl⟩ | ⟨_, _, rfl⟩⟩ | ⟨_, _, rfl⟩⟩ := create_commit hstep
      · exact spentAt_update trivial
      · exact spentAt_update trivial
      · exact spentAt_update trivial
  | _ => cases hpublished

theorem unseen_create {a : CreateAction} {q : CreateId} {creates : CreateState}
    (hname : gone (.create q) = true) (hopen : s.refused (.create q) = none)
    (hmine : a.request = some q) (hstep : createStep fns.body s.creates a = some creates) :
    let t := { s with creates := creates, rides := s.rides.insert (s.creates.published a) }
    t.without gone = s.without gone ∨ t.Spent gone := by
  have hunseen : creates.without (fun q => gone (.create q)) =
      s.creates.without (fun q => gone (.create q)) ∨ creates.Spent q :=
    create_unseen hmine hname hstep
  rcases hunseen with hsame | hspent
  · cases hpublished : s.creates.published a with
    | none =>
        left
        simp only [ServerState.without, hsame, RideState.insert]
    | some ride =>
        exact Or.inr ⟨.create q, hname, hopen, published_spent hmine hpublished hstep⟩
  · exact Or.inr ⟨.create q, hname, hopen, hspent⟩

/-- **What the requests that are gone do is not seen**, until one is spent. -/
theorem server_unseen (hfit : BranchesFit s.rides) {name : RequestName}
    (hmine : a.serves = some name) (hname : gone name = true)
    (h : serverStep cfg fns s a = some t) : t.without gone = s.without gone ∨ t.Spent gone := by
  obtain ⟨hopen, hmove⟩ := server_cases h
  have hopen := hopen name hmine
  cases a with
  | arrive request token =>
      cases hmine
      rcases server_arrive hmove with ⟨error, _, _, rfl⟩ | ⟨user, _, hbegin⟩
      · exact Or.inl (ServerState.without_gone_refuse hname error)
      · rcases enterHandler_cases hbegin with ⟨q, body, drivers, rfl, hstep, rfl⟩ |
          ⟨q, rideId, payload, rides, rfl, hstep, rfl⟩ |
          ⟨q, payload, key, creates, rfl, hstep, rfl⟩
        · exact unseen_driver hname hopen rfl hstep
        · exact unseen_ride hfit hname hopen rfl hstep
        · exact unseen_create hname hopen rfl hstep
  | register a =>
      cases hmine
      obtain ⟨accounts, haccounts, rfl⟩ := server_register hmove
      have hunseen : accounts.without (fun q => gone (.auth q)) (fun q => gone (.register q)) =
          s.accounts.without (fun q => gone (.auth q)) (fun q => gone (.register q)) ∨
            accounts.Spent a.request := register_unseen hname haccounts
      rcases hunseen with hsame | hspent
      · left
        simp only [ServerState.without, hsame]
      · exact Or.inr ⟨.register a.request, hname, hopen, hspent⟩
  | auth a =>
      obtain ⟨q, hq, rfl⟩ := Option.map_eq_some_iff.mp hmine
      obtain ⟨_, auth, hauth, rfl⟩ := server_auth hmove
      have hunseen : auth.without (fun q => gone (.auth q)) =
          s.accounts.auth.without (fun q => gone (.auth q)) ∨ auth.Spent q :=
        auth_unseen hq hname hauth
      rcases hunseen with hsame | hspent
      · left
        simp only [ServerState.without, AccountState.without, hsame]
      · exact Or.inr ⟨.auth q, hname, hopen, hspent⟩
  | driver a =>
      obtain ⟨q, hq, rfl⟩ := Option.map_eq_some_iff.mp hmine
      obtain ⟨_, drivers, hdrivers, rfl⟩ := server_driver hmove
      exact unseen_driver hname hopen hq hdrivers
  | ride a =>
      obtain ⟨q, hq, rfl⟩ := Option.map_eq_some_iff.mp hmine
      obtain ⟨_, _, rides, hrides, rfl⟩ := server_ride hmove
      exact unseen_ride hfit hname hopen hq hrides
  | create a =>
      obtain ⟨q, hq, rfl⟩ := Option.map_eq_some_iff.mp hmine
      obtain ⟨_, creates, hcreates, rfl⟩ := server_create hmove
      exact unseen_create hname hopen hq hcreates
  | advance _ => cases hmine

/-- A step of a handler keeps what is spent in each of them. -/
theorem move_spent (hfit : BranchesFit s.rides) {name : RequestName} (hspent : s.SpentIn name)
    (h : serverMove cfg fns s a = some t) : t.SpentIn name := by
  cases a with
  | arrive request token =>
      rcases server_arrive h with ⟨error, _, _, rfl⟩ | ⟨user, _, hbegin⟩
      · cases name <;> exact hspent
      · rcases enterHandler_cases hbegin with ⟨q, body, drivers, rfl, hstep, rfl⟩ |
          ⟨q, rideId, payload, rides, rfl, hstep, rfl⟩ |
          ⟨q, payload, key, creates, rfl, hstep, rfl⟩
        · cases name with
          | driver p => exact driver_spent hspent hstep
          | _ => exact hspent
        · cases name with
          | ride p => exact ride_spent hfit hspent hstep
          | _ => exact hspent
        · cases name with
          | create p => exact create_spent hspent hstep
          | _ => exact hspent
  | register a =>
      obtain ⟨accounts, haccounts, rfl⟩ := server_register h
      cases name with
      | register p => exact register_spent hspent haccounts
      | auth p =>
          obtain ⟨added, hauth⟩ := register_frame haccounts
          obtain ⟨entry, hentry, hstage⟩ := hspent
          refine ⟨entry, ?_, hstage⟩
          rw [hauth]
          exact hentry
      | _ => exact hspent
  | auth a =>
      obtain ⟨_, auth, hauth, rfl⟩ := server_auth h
      cases name with
      | auth p => exact auth_spent hspent hauth
      | _ => exact hspent
  | driver a =>
      obtain ⟨_, drivers, hdrivers, rfl⟩ := server_driver h
      cases name with
      | driver p => exact driver_spent hspent hdrivers
      | _ => exact hspent
  | ride a =>
      obtain ⟨_, _, rides, hrides, rfl⟩ := server_ride h
      cases name with
      | ride p => exact ride_spent hfit hspent hrides
      | _ => exact hspent
  | create a =>
      obtain ⟨_, creates, hcreates, rfl⟩ := server_create h
      cases name with
      | create p => exact create_spent hspent hcreates
      | ride p =>
          have hrequests :
              (s.rides.insert (s.creates.published a)).requests = s.rides.requests := by
            cases s.creates.published a <;> rfl
          obtain ⟨entry, hentry, hstage⟩ := hspent
          exact ⟨entry, hrequests ▸ hentry, hstage⟩
      | _ => exact hspent
  | advance seconds =>
      cases h
      cases name <;> exact hspent

/-- A request is refused before it enters. -/
theorem move_refused {name : RequestName} (hentered : s.entered name = true)
    (h : serverMove cfg fns s a = some t) : t.refused name = s.refused name := by
  cases a with
  | arrive request token =>
      rcases server_arrive h with ⟨error, _, hnew, rfl⟩ | ⟨user, _, hbegin⟩
      · refine update_of_ne ?_ _ _
        rintro rfl
        rw [hentered] at hnew
        cases hnew
      · rcases enterHandler_cases hbegin with ⟨_, _, _, _, _, rfl⟩ | ⟨_, _, _, _, _, _, rfl⟩ |
          ⟨_, _, _, _, _, _, rfl⟩
        · rfl
        · rfl
        · rfl
  | register _ =>
      obtain ⟨_, _, rfl⟩ := server_register h
      rfl
  | auth _ =>
      obtain ⟨_, _, _, rfl⟩ := server_auth h
      rfl
  | driver _ =>
      obtain ⟨_, _, _, rfl⟩ := server_driver h
      rfl
  | ride _ =>
      obtain ⟨_, _, _, _, rfl⟩ := server_ride h
      rfl
  | create _ =>
      obtain ⟨_, _, _, rfl⟩ := server_create h
      rfl
  | advance _ =>
      cases h
      rfl

/-- **Spent requests stay spent.** -/
theorem server_spent (hfit : BranchesFit s.rides) (hs : s.Spent gone)
    (h : serverStep cfg fns s a = some t) : t.Spent gone := by
  obtain ⟨name, hname, hopen, hspent⟩ := hs
  have hmove := (server_cases h).2
  exact ⟨name, hname, (move_refused hspent.entered hmove).trans hopen,
    move_spent hfit hspent hmove⟩

/-- The branches of the transitions fit, whatever else the server does. -/
theorem server_branchesFit (hfit : BranchesFit s.rides) (h : serverStep cfg fns s a = some t) :
    BranchesFit t.rides := by
  rcases server_rides h with hsame | ⟨b, _, _, _, hride⟩ | ⟨_, _, ride, _, hinsert⟩
  · exact hsame ▸ hfit
  · exact step_branchesFit hfit hride
  · rw [hinsert]
    exact hfit

end Erase

section Main

variable {cfg : Settings} {fns : ServerFunctions} {s₀ s : ServerState}
  {acts : List ServerAction}

theorem quiet_branchesFit (hquiet : s₀.Quiet) : BranchesFit s₀.rides := by
  intro q call ride pending todo hreq
  rw [hquiet.rides] at hreq
  cases hreq

/-- The run without requests that were rejected ends in the same state without
them. -/
theorem erase_rejected (hquiet : s₀.Quiet) (h : Steps (serverSystem cfg fns) free s₀ acts s)
    (gone : RequestName → Bool)
    (hrejected : ∀ name, gone name = true → ∃ error, s.Rejected name error) :
    Steps (serverSystem cfg fns) free s₀ (acts.filter fun a => !a.serves.any gone)
      (s.without gone) := by
  have hunspent : ¬ s.Spent gone := by
    rintro ⟨name, hname, hopen, hspent⟩
    obtain ⟨error, herror⟩ := hrejected name hname
    rcases herror.unspent with hrefused | hnot
    · exact hrefused hopen
    · exact hnot hspent
  have herase : Steps (serverSystem cfg fns) free (s₀.without gone)
      (acts.filter fun a => !a.serves.any gone) (s.without gone) := by
    refine h.erase (ServerState.without gone) (fun a => a.serves.any gone)
      (ServerState.Spent · gone) (fun s => BranchesFit s.rides)
      (fun _ _ _ hs _ hstep => server_branchesFit hs hstep) ?_ ?_
      (fun _ _ _ hs hspent hstep => server_spent hs hspent hstep)
      (quiet_branchesFit hquiet) hunspent
    · intro s a t hs _ hmine hstep
      obtain ⟨name, hserves, hname⟩ := (Option.any_eq_true _ _).mp hmine
      exact server_unseen hs hserves hname hstep
    · intro s a t _ _ hother hstep
      refine ⟨trivial, server_without ?_ hstep⟩
      intro name hserves
      simpa [hserves] using hother
  rwa [hquiet.without] at herase

/-- **A rejected request changes nothing.**  In every run from a quiet state,

* the same run without a request that was answered with an error ends with the
  same tables, the same GEO pool and the same reservation keys;
* the second `apply_transition` of a transition that is in the branch that
  searches for a driver succeeds. -/
theorem rejected_requests_change_nothing (hquiet : s₀.Quiet)
    (h : Steps (serverSystem cfg fns) free s₀ acts s) :
    (∀ name error, s.Rejected name error →
      ∃ t, Steps (serverSystem cfg fns) free s₀ (acts.filter fun a => a.serves ≠ some name) t ∧
        t.data = s.data) ∧
    ∀ q call ride pending driverId,
      s.rides.requests q = some (call, .holding ride pending (.resolve driverId)) →
      ∃ done, attemptTransition q s.rides.effects (some ride) ride (resolution driverId).1
        ride.version (resolution driverId).2 call.startedAt = .ok done := by
  constructor
  · intro name error hrejected
    have herase := erase_rejected hquiet h (fun other => other = name) fun other hother => by
      obtain rfl := of_decide_eq_true hother
      exact ⟨error, hrejected⟩
    have hfilter : (acts.filter fun a => !a.serves.any fun other => other = name) =
        acts.filter fun a => a.serves ≠ some name := by
      refine List.filter_congr fun a _ => ?_
      cases a.serves with
      | none => rfl
      | some other => simp
    refine ⟨s.without fun other => other = name, ?_, rfl⟩
    rw [← hfilter]
    exact herase
  · intro q call ride pending driverId hreq
    have hfit : BranchesFit s.rides := h.invariant (fun s => BranchesFit s.rides)
      (quiet_branchesFit hquiet) fun _ _ _ hs _ hstep => server_branchesFit hs hstep
    have hmatching : ride.status = .matching := hfit _ _ _ _ _ hreq
    exact second_succeeds hmatching driverId call.startedAt s.rides.effects

end Main

/-- A distance that is right where driver and pickup coincide. -/
def sampleDistance : GeoDistance :=
  fun lng lat lng' lat' => if lng = lng' ∧ lat = lat' then 0 else 6371

/-- The access token of driver 1 at time 0. -/
def driverAccessToken : String :=
  "eyJhbGciOiJIUzI1NiIsInR5cCI6IkpXVCJ9." ++
  "eyJzdWIiOiIxIiwicm9sZSI6ImRyaXZlciIsInR5cGUiOiJhY2Nlc3MiLCJleHAiOjkwMH0." ++
  "4S1P_08d-Xn-WxvcFmv3R_j5GtHBKoUtvEOfPE5KsWg"

def sampleServer : ServerFunctions where
  toAccountFunctions := sampleAccountFunctions
  decodeToken := fun now token =>
    if token = driverAccessToken ∧ now < 900 then some ⟨some "access", some 1⟩ else none
  body := sampleFunctions
  dist := sampleDistance

/-- Driver 1, and passenger 2, who was disabled after it had logged in. -/
def disabledPassenger : ServerState :=
  let start := ServerState.init [sampleUser 1 .driver,
    { sampleUser 2 .passenger with email := "b@example.com", isActive := false }]
  { start with
    accounts := { start.accounts with
      auth := { start.accounts.auth with
        tokens := update start.accounts.auth.tokens (sampleHash 0)
          (some ⟨2, sampleHash 0, 600, false⟩)
        drawn := [sampleHash 0] } } }

/-- The driver goes available, with a new profile and without a location, while
its first heartbeat waits for that profile; the passenger refreshes. -/
def refusedRequests : List ServerAction :=
  [.arrive (.driver 0 (.setAvailability true)) driverAccessToken,
    .arrive (.driver 1 (.heartbeat sampleHeartbeat)) driverAccessToken,
    .driver (.read 0), .driver (.read 1), .driver (.insert 0),
    .auth (.begin 0 (.refresh (sampleRaw 0))), .auth (.read 0),
    .driver (.handle 0), .driver (.insert 1), .auth (.check 0 (sampleRaw 1)),
    .driver (.handle 1), .driver (.commit 1)]

/-- Was the driver's first request answered with this error? -/
def driverRejectedWith (error : Rejection) (s : ServerState) : Bool :=
  match s.drivers.requests 0 with
  | some (_, .answered (.rejected e)) => e = error
  | _ => false

/-- Both are rejected, and the run without the first ends with the same
tables. -/
theorem refused_requests_leave_nothing : ∃ s,
    Steps (serverSystem {} sampleServer) free disabledPassenger refusedRequests s ∧
    s.Rejected (.driver 0) needsHeartbeat ∧ s.Rejected (.auth 0) userInactive ∧
    ∃ t, Steps (serverSystem {} sampleServer) free disabledPassenger
      (refusedRequests.filter fun a => a.serves ≠ some (.driver 0)) t ∧ t.data = s.data := by
  have hreplay : (exec (serverSystem {} sampleServer) disabledPassenger refusedRequests).any
      (fun s => driverRejectedWith needsHeartbeat s ∧
        s.accounts.auth.requests 0 =
          some (.refresh (sampleRaw 0), .answered (.rejected userInactive))) = true := by
    decide +kernel
  obtain ⟨s, hrun, hs⟩ := Steps.of_exec_any hreplay
  obtain ⟨hdriver, hauth⟩ := of_decide_eq_true hs
  have hrejected : s.Rejected (.driver 0) needsHeartbeat := by
    unfold driverRejectedWith at hdriver
    split at hdriver
    case h_1 call e hreq =>
        obtain rfl := of_decide_eq_true hdriver
        exact Or.inr ⟨call, hreq⟩
    case h_2 => cases hdriver
  have hquiet : disabledPassenger.Quiet := ⟨rfl, rfl, rfl, rfl, rfl, rfl, rfl, rfl, rfl, rfl, rfl⟩
  exact ⟨s, hrun, hrejected, Or.inr ⟨_, hauth⟩,
    (rejected_requests_change_nothing hquiet hrun).1 _ _ hrejected⟩

end RideFlow
