import RideFlow.RideRows

/-!
# What every request has done

`Advances` lists how a step takes a request from one stage to the next
(`step_advances`) and `step_effects` what a step makes visible; whatever is
proved of requests is proved from these two.

The books tie the requests to the log: a request in flight works on the
ride it named, its pending updates are its own and begin with the UPDATE that
carried its `expected_version`, a request answered 200 has such an update in
the log, and every logged update belongs to a request answered 200
(`books_kept`).  So a request that was rejected or failed is in the log
nowhere, and being answered is final (`answered_stays`).
-/

namespace RideFlow

open RowLocks Trails Tables Function Runs

/-- How a step takes request `q` from one stage to the next.  `work` covers the
steps on the reservation keys: the ride and the pending updates stay, and a
driver is chosen only by a SET NX on a free key. -/
inductive Advances (s : RideState) (q : ReqId) (call : TransitionCall) :
    RideAction → Option Stage → Stage → Prop
  | begin {user : User} {rideId : RideId} {payload : RideTransitionRequest} :
      Advances s q call (.begin q user rideId payload) none .loading
  | read {ride : Ride} (hride : s.rides call.rideId = some ride)
      (hauth : authorized call.user ride call.payload.targetStatus = true) :
      Advances s q call (.read q) (some .loading) (.updating ride)
  | update {ride : Ride} {done : Applied} {todo : Todo} (hadds : Adds s (.update q) done)
      (htodo : ∀ d, todo ≠ .resolve d) :
      Advances s q call (.update q) (some (.updating ride)) (.holding done.written [done] todo)
  | work {a : RideAction} {ride : Ride} {pending : List Applied} {before todo : Todo}
      (hserved : a.request = some q)
      (hchosen : ∀ d, todo = .resolve (some d) →
        a = .reserve q ∧ s.reservations d = none ∧ ∃ rest, before = .reserve (d :: rest)) :
      Advances s q call a (some (.holding ride pending before)) (.holding ride pending todo)
  | resolve {ride : Ride} {pending : List Applied} {driverId : Option UserId} {done : Applied}
      (hadds : Adds s (.resolve q) done) :
      Advances s q call (.resolve q) (some (.holding ride pending (.resolve driverId)))
        (.holding done.written (pending ++ [done]) .commit)
  | commit {ride : Ride} {pending : List Applied} :
      Advances s q call (.commit q) (some (.holding ride pending .commit))
        (.answered (.ok ride))
  | fail {a : RideAction} {before : Stage} {outcome : Outcome} (hserved : a.request = some q)
      (hbefore : ∀ o, before ≠ .answered o) (houtcome : ∀ ride, outcome ≠ .ok ride) :
      Advances s q call a (some before) (.answered outcome)

section Inversion

variable {cfg : Settings} {s t : RideState} {a : RideAction}

/-- A step advances the request that it serves, and no other. -/
theorem step_advances (hstep : rideStep cfg s a = some t) :
    (a.request = none ∧ t.requests = s.requests) ∨
      ∃ q call before after, s.requests q = before.map (fun stage => (call, stage)) ∧
        t.requests = update s.requests q (some (call, after)) ∧
        Advances s q call a before after := by
  cases a with
  | create _ _ _ _ _ =>
      obtain ⟨_, _, rfl⟩ := step_create hstep
      exact Or.inl ⟨rfl, rfl⟩
  | begin q _ _ _ =>
      obtain ⟨hnone, rfl⟩ := step_begin hstep
      exact Or.inr ⟨q, _, none, _, hnone, rfl, .begin⟩
  | read q =>
      obtain ⟨call, hreq, ⟨_, rfl⟩ | ⟨ride, hride, hauth, rfl⟩⟩ := step_read hstep
      · exact Or.inr ⟨q, call, some _, _, hreq, rfl, .fail rfl (by simp) (by simp)⟩
      · exact Or.inr ⟨q, call, some _, _, hreq, rfl, .read hride hauth⟩
  | update q =>
      obtain ⟨call, ride, hreq, ⟨_, _, rfl⟩ | ⟨done, hdone, _, rfl⟩⟩ := step_update hstep
      · exact Or.inr ⟨q, call, some _, _, hreq, rfl, .fail rfl (by simp) (by simp)⟩
      · obtain ⟨hrow, hq, _, hchecked, htarget, hexpected, hextra, _⟩ :=
          attemptTransition_ok hdone
        have htodo : ∀ d, afterUpdate call.payload ride done.written ≠ .resolve d := by
          intro d
          unfold afterUpdate
          split
          · simp
          · split <;> simp
        exact Or.inr ⟨q, call, some _, _, hreq, rfl,
          .update (.first hreq hrow hq hchecked htarget hexpected hextra) htodo⟩
  | search q _ =>
      obtain ⟨call, _, _, hreq, rfl⟩ := step_search hstep
      exact Or.inr ⟨q, call, some _, _, hreq, rfl, .work rfl (by simp)⟩
  | reserve q =>
      obtain ⟨call, _, _, _, hreq, hcases⟩ := step_reserve hstep
      rcases hcases with ⟨_, rfl⟩ | ⟨_, _, _, _, rfl⟩ | ⟨d, rest, rfl, hfree, rfl⟩
      · exact Or.inr ⟨q, call, some _, _, hreq, rfl, .work rfl (by simp)⟩
      · exact Or.inr ⟨q, call, some _, _, hreq, rfl, .work rfl (by simp)⟩
      · refine Or.inr ⟨q, call, some _, _, hreq, rfl, .work rfl ?_⟩
        intro d' hd
        obtain rfl : d = d' := by simpa using hd
        exact ⟨rfl, hfree, rest, rfl⟩
  | resolve q =>
      obtain ⟨call, _, _, driverId, hreq, ⟨_, _, rfl⟩ | ⟨done, hdone, rfl⟩⟩ :=
        step_resolve hstep
      · exact Or.inr ⟨q, call, some _, _, hreq, rfl, .fail rfl (by simp) (by simp)⟩
      · obtain ⟨hrow, hq, _, hchecked, htarget, _, hextra, _⟩ := attemptTransition_ok hdone
        exact Or.inr ⟨q, call, some _, _, hreq, rfl,
          .resolve (.second hreq hq hchecked (Option.some.inj hrow).symm htarget hextra)⟩
  | getKey q =>
      obtain ⟨call, _, _, _, hreq, _, ⟨_, rfl⟩ | ⟨_, rfl⟩⟩ := step_getKey hstep
      · exact Or.inr ⟨q, call, some _, _, hreq, rfl, .work rfl (by simp)⟩
      · exact Or.inr ⟨q, call, some _, _, hreq, rfl, .work rfl (by simp)⟩
  | deleteKey q =>
      obtain ⟨call, _, _, _, hreq, _, rfl⟩ := step_deleteKey hstep
      exact Or.inr ⟨q, call, some _, _, hreq, rfl, .work rfl (by simp)⟩
  | commit q =>
      obtain ⟨call, _, _, hreq, rfl⟩ := step_commit hstep
      exact Or.inr ⟨q, call, some _, _, hreq, rfl, .commit⟩
  | abort q =>
      obtain ⟨call, _, hreq, hne, rfl⟩ := step_abort hstep
      exact Or.inr ⟨q, call, some _, _, hreq, rfl, .fail rfl hne (by simp)⟩
  | expire _ =>
      obtain ⟨_, _, _, rfl⟩ := step_expire hstep
      exact Or.inl ⟨rfl, rfl⟩
  | advance _ =>
      obtain rfl := step_advance hstep
      exact Or.inl ⟨rfl, rfl⟩

/-- What a step makes visible: nothing, or a new ride, or what the COMMIT of a
request publishes. -/
theorem step_effects (hstep : rideStep cfg s a = some t) :
    ((∀ q, a ≠ .commit q) ∧ t.rides = s.rides ∧ t.outbox = s.outbox ∧ t.log = s.log) ∨
      (∃ ride, a.request = none ∧ s.rides ride.id = none ∧ Born ride ∧
        t = { s with rides := update s.rides ride.id (some ride) }) ∨
      ∃ q call ride pending, a = .commit q ∧
        s.requests q = some (call, .holding ride pending .commit) ∧
        t = s.commit q call ride pending := by
  cases a with
  | create id user payload fare key =>
      obtain ⟨_, hfresh, rfl⟩ := step_create hstep
      exact Or.inr (Or.inl ⟨newRide id user payload fare key s.clock, rfl, hfresh,
        ⟨rfl, rfl, rfl⟩, rfl⟩)
  | begin q _ _ _ =>
      obtain ⟨_, rfl⟩ := step_begin hstep
      exact Or.inl ⟨by simp, rfl, rfl, rfl⟩
  | read q =>
      obtain ⟨_, _, ⟨_, rfl⟩ | ⟨_, _, _, rfl⟩⟩ := step_read hstep
      · exact Or.inl ⟨by simp, rfl, rfl, rfl⟩
      · exact Or.inl ⟨by simp, rfl, rfl, rfl⟩
  | update q =>
      obtain ⟨_, _, _, ⟨_, _, rfl⟩ | ⟨_, _, _, rfl⟩⟩ := step_update hstep
      · exact Or.inl ⟨by simp, rfl, rfl, rfl⟩
      · exact Or.inl ⟨by simp, rfl, rfl, rfl⟩
  | search q _ =>
      obtain ⟨_, _, _, _, rfl⟩ := step_search hstep
      exact Or.inl ⟨by simp, rfl, rfl, rfl⟩
  | reserve q =>
      obtain ⟨_, _, _, _, _, hcases⟩ := step_reserve hstep
      rcases hcases with ⟨_, rfl⟩ | ⟨_, _, _, _, rfl⟩ | ⟨_, _, _, _, rfl⟩
      · exact Or.inl ⟨by simp, rfl, rfl, rfl⟩
      · exact Or.inl ⟨by simp, rfl, rfl, rfl⟩
      · exact Or.inl ⟨by simp, rfl, rfl, rfl⟩
  | resolve q =>
      obtain ⟨_, _, _, _, _, ⟨_, _, rfl⟩ | ⟨_, _, rfl⟩⟩ := step_resolve hstep
      · exact Or.inl ⟨by simp, rfl, rfl, rfl⟩
      · exact Or.inl ⟨by simp, rfl, rfl, rfl⟩
  | getKey q =>
      obtain ⟨_, _, _, _, _, _, ⟨_, rfl⟩ | ⟨_, rfl⟩⟩ := step_getKey hstep
      · exact Or.inl ⟨by simp, rfl, rfl, rfl⟩
      · exact Or.inl ⟨by simp, rfl, rfl, rfl⟩
  | deleteKey q =>
      obtain ⟨_, _, _, _, _, _, rfl⟩ := step_deleteKey hstep
      exact Or.inl ⟨by simp, rfl, rfl, rfl⟩
  | commit q =>
      obtain ⟨call, ride, pending, hreq, rfl⟩ := step_commit hstep
      exact Or.inr (Or.inr ⟨q, call, ride, pending, rfl, hreq, rfl⟩)
  | abort q =>
      obtain ⟨_, _, _, _, rfl⟩ := step_abort hstep
      exact Or.inl ⟨by simp, rfl, rfl, rfl⟩
  | expire _ =>
      obtain ⟨_, _, _, rfl⟩ := step_expire hstep
      exact Or.inl ⟨by simp, rfl, rfl, rfl⟩
  | advance _ =>
      obtain rfl := step_advance hstep
      exact Or.inl ⟨by simp, rfl, rfl, rfl⟩

/-- Only an unanswered request advances. -/
theorem Advances.unanswered {q : ReqId} {call : TransitionCall} {before : Option Stage}
    {after : Stage} (h : Advances s q call a before after) (outcome : Outcome) :
    before ≠ some (.answered outcome) := by
  cases h with
  | fail _ hbefore _ => simpa using hbefore outcome
  | _ => simp

theorem Advances.served {q : ReqId} {call : TransitionCall} {before : Option Stage}
    {after : Stage} (h : Advances s q call a before after) : a.request = some q := by
  cases h with
  | work hserved _ => exact hserved
  | fail hserved _ _ => exact hserved
  | _ => rfl

end Inversion

/-- The update that opens a request's transaction. -/
def Opens (call : TransitionCall) (e : Applied) : Prop :=
  e.replaced.id = call.rideId ∧ e.expected = call.payload.expectedVersion ∧
    e.target = call.payload.targetStatus ∧ e.extra = none

/-- What is known of a request in each stage, given the log. -/
def Stage.Fine (log : List Applied) (q : ReqId) (call : TransitionCall) : Stage → Prop
  | .loading => True
  | .updating ride => ride.id = call.rideId
  | .holding ride pending _ =>
      ride.id = call.rideId ∧ (∀ e ∈ pending, e.request = q ∧ e.replaced.id = call.rideId) ∧
        ∃ first rest, pending = first :: rest ∧ Opens call first
  | .answered (.ok _) => ∃ e ∈ log, e.request = q ∧ Opens call e
  | .answered _ => True

/-- The books of a state. -/
structure Books (s : RideState) : Prop where
  fine : ∀ q call stage, s.requests q = some (call, stage) → stage.Fine s.log q call
  logged : ∀ e ∈ s.log, ∃ call ride, s.requests e.request = some (call, .answered (.ok ride)) ∧
    e.replaced.id = call.rideId
  outbox : s.outbox = s.log.map Applied.event

/-- A longer log keeps a request fine. -/
theorem Stage.Fine.mono {log more : List Applied} {q : ReqId} {call : TransitionCall}
    {stage : Stage} (h : stage.Fine log q call) : stage.Fine (log ++ more) q call := by
  cases stage with
  | answered outcome =>
      cases outcome with
      | ok ride =>
          obtain ⟨e, he, hfine⟩ := h
          exact ⟨e, List.mem_append_left _ he, hfine⟩
      | rejected _ => trivial
      | failed => trivial
  | loading => trivial
  | updating _ => exact h
  | holding _ _ _ => exact h

section Keep

variable {s t : RideState} {q : ReqId} {call : TransitionCall} {stage : Stage}

/-- Books survive a step that moves one unanswered request and logs nothing. -/
theorem Books.move (h : Books s)
    (hreq : t.requests = update s.requests q (some (call, stage)))
    (hlog : t.log = s.log) (houtbox : t.outbox = s.outbox)
    (hopen : ∀ call' outcome, s.requests q ≠ some (call', .answered outcome))
    (hfine : stage.Fine s.log q call) : Books t where
  fine := by
    intro p call' stage' hp
    rw [hreq] at hp
    rw [hlog]
    rcases update_some_iff.mp hp with ⟨rfl, hnew⟩ | ⟨_, hold⟩
    · cases hnew
      exact hfine
    · exact h.fine p call' stage' hold
  logged := by
    intro e he
    rw [hlog] at he
    obtain ⟨call', ride, hans, hid⟩ := h.logged e he
    have hne : e.request ≠ q := by
      intro heq
      exact hopen call' (.ok ride) (heq ▸ hans)
    refine ⟨call', ride, ?_, hid⟩
    rw [hreq]
    exact update_some_iff.mpr (Or.inr ⟨hne, hans⟩)
  outbox := by rw [houtbox, hlog, h.outbox]

/-- Books survive a step that touches neither requests nor log. -/
theorem Books.same (h : Books s) (hreq : t.requests = s.requests)
    (hlog : t.log = s.log) (houtbox : t.outbox = s.outbox) : Books t where
  fine := by
    rw [hreq, hlog]
    exact h.fine
  logged := by
    rw [hreq, hlog]
    exact h.logged
  outbox := by rw [houtbox, hlog, h.outbox]

/-- Books survive a commit. -/
theorem Books.commit (h : Books s) {ride : Ride} {pending : List Applied}
    (hreq : s.requests q = some (call, .holding ride pending .commit)) :
    Books (s.commit q call ride pending) where
  fine := by
    intro p call' stage' hp
    rcases update_some_iff.mp hp with ⟨rfl, hnew⟩ | ⟨_, hold⟩
    · cases hnew
      obtain ⟨_, hown, first, rest, rfl, hopens⟩ := h.fine p call _ hreq
      exact ⟨first, List.mem_append_right _ List.mem_cons_self,
        (hown first List.mem_cons_self).1, hopens⟩
    · exact (h.fine p call' stage' hold).mono
  logged := by
    intro e he
    rcases List.mem_append.mp he with he | he
    · obtain ⟨call', ride', hans, hid⟩ := h.logged e he
      have hne : e.request ≠ q := by
        intro heq
        rw [heq, hreq] at hans
        cases hans
      exact ⟨call', ride', update_some_iff.mpr (Or.inr ⟨hne, hans⟩), hid⟩
    · obtain ⟨_, hown, _⟩ := h.fine q call _ hreq
      obtain ⟨hq, hid⟩ := hown e he
      exact ⟨call, ride, update_some_iff.mpr (Or.inl ⟨hq, rfl⟩), hid⟩
  outbox := by
    change s.outbox ++ pending.map Applied.event = (s.log ++ pending).map Applied.event
    rw [h.outbox, List.map_append]

end Keep

variable {cfg : Settings} {ok : RideState → RideAction → Prop} {s t : RideState}
  {a : RideAction} {acts : List RideAction}

/-- A request that advances stays fine. -/
theorem Advances.fine {q : ReqId} {call : TransitionCall} {before : Option Stage}
    {after : Stage} (h : Advances s q call a before after)
    (hsound : Sound rideSchema Born anyUpdate s.store)
    (hreq : s.requests q = before.map fun stage => (call, stage))
    (hfine : ∀ stage, before = some stage → stage.Fine s.log q call)
    (hsilent : a ≠ .commit q) : after.Fine s.log q call := by
  cases h with
  | begin => trivial
  | read hride _ => exact hsound.row_key _ _ hride
  | @update ride done todo hadds _ =>
      cases hadds with
      | @first _ call' ride' _ hreq' hrow hq _ htarget hexpected hextra =>
          rw [hreq'] at hreq
          obtain ⟨rfl, hride⟩ : call' = call ∧ ride' = ride := by simpa using hreq
          have hid : ride.id = call'.rideId := hfine _ rfl
          have hkey : done.replaced.id = call'.rideId :=
            (hsound.row_key _ _ hrow).trans (hride ▸ hid)
          refine ⟨(rideSchema.key_tgt done).trans hkey, ?_, done, [], rfl,
            hkey, hexpected, htarget, hextra⟩
          intro e he
          obtain rfl : e = done := by simpa using he
          exact ⟨hq, hkey⟩
  | work _ _ =>
      have hheld := hfine _ rfl
      exact hheld
  | @resolve ride pending driverId done hadds =>
      cases hadds with
      | @second _ call' ride' pending' driverId' _ hreq' hq _ hrow _ _ =>
          rw [hreq'] at hreq
          obtain ⟨rfl, hride, _, _⟩ : call' = call ∧ ride' = ride ∧ pending' = pending ∧
              driverId' = driverId := by simpa using hreq
          obtain ⟨hid, hown, first, rest, hpending, hopens⟩ := hfine _ rfl
          have hkey : done.replaced.id = call'.rideId := by rw [hrow, hride, hid]
          refine ⟨(rideSchema.key_tgt done).trans hkey, ?_, first, rest ++ [done],
            by simp [hpending], hopens⟩
          intro e he
          rcases List.mem_append.mp he with he | he
          · exact hown e he
          · obtain rfl : e = done := by simpa using he
            exact ⟨hq, hkey⟩
  | commit => exact absurd rfl hsilent
  | @fail _ before outcome _ _ houtcome =>
      cases outcome with
      | ok ride => exact absurd rfl (houtcome ride)
      | rejected _ => trivial
      | failed => trivial

/-- One step keeps the books. -/
theorem step_books (hsound : Sound rideSchema Born anyUpdate s.store) (h : Books s)
    (hstep : rideStep cfg s a = some t) : Books t := by
  rcases step_effects hstep with
    ⟨hsilent, _, houtbox, hlog⟩ | ⟨ride, _, _, _, rfl⟩ | ⟨q, call, ride, pending, _, hreq, rfl⟩
  · rcases step_advances hstep with ⟨_, hsame⟩ | ⟨q, call, before, after, hreq, hmoved, hadv⟩
    · exact h.same hsame hlog houtbox
    · refine h.move hmoved hlog houtbox ?_ ?_
      · intro call' outcome hans
        rw [hans] at hreq
        obtain ⟨stage, rfl, hstage⟩ := Option.map_eq_some_iff.mp hreq.symm
        cases hstage
        exact hadv.unanswered outcome rfl
      · refine hadv.fine hsound hreq ?_ (hsilent q)
        intro stage hbefore
        rw [hbefore] at hreq
        exact h.fine q call stage hreq
  · exact h.same rfl rfl rfl
  · exact h.commit hreq

/-- **The books are kept by every run.** -/
theorem books_kept (h : Steps (rideSystem cfg) ok .init acts t) : Books t := by
  have hempty : Books .init := by
    constructor <;> intros <;> simp_all [RideState.init]
  obtain ⟨_, _, hbooks⟩ := rides_sound_under Books
    (fun _ _ _ hsound hbooks _ hstep => step_books hsound hbooks hstep)
    (fun _ _ _ _ _ _ _ => trivial) hempty h
  exact hbooks

section Stages

variable {q : ReqId} {call : TransitionCall}

/-- A stage after a step is the stage before it, or the one that the request
has advanced to. -/
theorem stage_origin {stage : Stage} (hreq : t.requests q = some (call, stage))
    (hstep : rideStep cfg s a = some t) :
    s.requests q = some (call, stage) ∨
      ∃ before, s.requests q = before.map (fun stage => (call, stage)) ∧
        Advances s q call a before stage := by
  rcases step_advances hstep with ⟨_, hsame⟩ | ⟨p, call', before, after, hp, hmoved, hadv⟩
  · rw [hsame] at hreq
    exact Or.inl hreq
  · rw [hmoved] at hreq
    rcases update_some_iff.mp hreq with ⟨rfl, hnew⟩ | ⟨_, hold⟩
    · cases hnew
      exact Or.inr ⟨before, hp, hadv⟩
    · exact Or.inl hold

/-- An answer is final. -/
theorem step_answered {outcome : Outcome}
    (hans : s.requests q = some (call, .answered outcome))
    (hstep : rideStep cfg s a = some t) :
    t.requests q = some (call, .answered outcome) := by
  rcases step_advances hstep with ⟨_, hsame⟩ | ⟨p, call', before, after, hp, hmoved, hadv⟩
  · rw [hsame]
    exact hans
  · rw [hmoved]
    refine update_some_iff.mpr (Or.inr ⟨?_, hans⟩)
    intro heq
    rw [← heq, hans] at hp
    obtain ⟨stage, rfl, hstage⟩ := Option.map_eq_some_iff.mp hp.symm
    cases hstage
    exact hadv.unanswered outcome rfl

/-- A request about to UPDATE was so before the step, or has just read its
ride. -/
theorem updating_origin {ride : Ride} (hreq : t.requests q = some (call, .updating ride))
    (hstep : rideStep cfg s a = some t) :
    s.requests q = some (call, .updating ride) ∨
      (a = .read q ∧ s.requests q = some (call, .loading) ∧
        s.rides call.rideId = some ride) := by
  rcases stage_origin hreq hstep with hold | ⟨before, hbefore, hadv⟩
  · exact Or.inl hold
  · cases hadv with
    | read hride _ => exact Or.inr ⟨rfl, hbefore, hride⟩

/-- An answer stays for the rest of the run. -/
theorem answered_stays {outcome : Outcome}
    (hans : s.requests q = some (call, .answered outcome))
    (h : Steps (rideSystem cfg) ok s acts t) :
    t.requests q = some (call, .answered outcome) :=
  h.invariant (fun u => u.requests q = some (call, .answered outcome)) hans
    fun _ _ _ hu _ hstep => step_answered hu hstep

end Stages

end RideFlow
