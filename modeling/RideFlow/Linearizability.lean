import RideFlow.Library.Linearization
import RideFlow.MatchingBranch
import RideFlow.OutboxLog

/-!
# Transitions are linearizable

What a `transition_ride` request does when nobody else is there is
`transitionRideAlone`: the checks, one call of `apply_transition` or the two of
the matching branch, and the COMMIT, as one operation on the committed rides and
the outbox.

The handler checks the row that it read, and a request whose UPDATE then misses is
told 409 although the row may have become one that it is refused on for another
reason.  So the object `ledger` has this operation with one more answer: a call that
names an earlier version, at which it was authorised and legal, may be told 409 and
nothing more (`Ledger.Exec.stale`; the earlier row is what the first events of the
outbox replay, `Ledger.Was`).  Which driver the search returns is left open, since the
pool and the reservation keys are no part of the ledger.

When every request carries at most the version that it reads, any interleaving is a
run of this object in which each request takes effect at one instant between its call
and its answer (`transitions_linearizable`): a request answered 200 at its COMMIT, a
403, 404 or 422 when the ride was read, and a 409 then or at the UPDATE that found
another version.  A request that failed has done nothing.  Requests that do not overlap
take effect in the order in which they were made.
-/

namespace RideFlow

open Function Linearization Relation RowLocks Runs Tables Trails

/-- What transitions share: the committed rides and the outbox. -/
structure Ledger where
  rides : RideId → Option Ride
  outbox : List OutboxEvent

/-- The ledger of a state. -/
def RideState.ledger (s : RideState) : Ledger := ⟨s.rides, s.outbox⟩

/-- `earlier` is a row that the ride has had before: the first of its events in the outbox
replay it. -/
structure Ledger.Was (ledger : Ledger) (ride earlier : Ride) : Prop where
  id : earlier.id = ride.id
  passengerId : earlier.passengerId = ride.passengerId
  older : earlier.version < ride.version
  told : ∃ front, front <+: (ledger.outbox.filter fun e => e.aggregateId = ride.id) ∧
    Replays earlier front

/-- `transition_ride` on the row stored under the id of its ride, when no other
request is there.  `found` is what `find_and_reserve_driver` returns, and the ids
are those drawn for the events. -/
def transitionRideAlone (call : TransitionCall) (found : Option UserId)
    (firstId secondId : Nat) : Option Ride → Except Rejection (Ride × List OutboxEvent)
  | none => .error ⟨404, "Ride not found"⟩
  | some ride =>
      if authorized call.user ride call.payload.targetStatus then
        match applyTransition (some ride) ride call.payload.targetStatus
            call.payload.expectedVersion none call.startedAt firstId with
        | .error e => .error e.rejection
        | .ok first =>
            if takesMatching call.payload ride then
              match applyTransition (some first.ride) first.ride (resolution found).1
                  first.ride.version (resolution found).2 call.startedAt secondId with
              | .error e => .error e.rejection
              | .ok second => .ok (second.ride, [first.event, second.event])
            else .ok (first.ride, [first.event])
      else .error ⟨403, "Not authorized to modify this ride"⟩

/-- How a transition may be answered: as alone, whatever driver a search returns, or, when
it names an earlier version at which it was authorised and legal, with 409 whatever the
row has become. -/
inductive Ledger.Exec (ledger : Ledger) (call : TransitionCall) : Outcome → Ledger → Prop
  | done {found : Option UserId} {firstId secondId : Nat} {ride : Ride}
      {events : List OutboxEvent}
      (halone : transitionRideAlone call found firstId secondId (ledger.rides call.rideId) =
        .ok (ride, events)) :
      Exec ledger call (.ok ride)
        ⟨update ledger.rides ride.id (some ride), ledger.outbox ++ events⟩
  | refused {found : Option UserId} {firstId secondId : Nat} {error : Rejection}
      (halone : transitionRideAlone call found firstId secondId (ledger.rides call.rideId) =
        .error error) :
      Exec ledger call (.rejected error) ledger
  | stale {ride earlier : Ride} (hride : ledger.rides call.rideId = some ride)
      (hwas : ledger.Was ride earlier)
      (hversion : (earlier.version : Int) = call.payload.expectedVersion)
      (hauthorized : authorized call.user earlier call.payload.targetStatus = true)
      (hlegal : call.payload.targetStatus ∈ rideTransitions earlier.status) :
      Exec ledger call
        (.rejected (TransitionError.staleVersion ride.id call.payload.expectedVersion).rejection)
        ledger

/-- Every answer but a 200 says that nothing was changed. -/
def Outcome.Silent : Outcome → Prop
  | .ok _ => False
  | _ => True

/-- The rides and the outbox as an object; besides, rides are created. -/
def ledger : Object Ledger TransitionCall Outcome where
  exec := Ledger.Exec
  env l l' := ∃ ride, l.rides ride.id = none ∧ Born ride ∧
    l' = { l with rides := update l.rides ride.id (some ride) }
  silent := Outcome.Silent
  lost := .failed
  silent_exec := by
    intro l call outcome l' hexec hsilent
    cases hexec with
    | done _ => exact hsilent.elim
    | refused _ => rfl
    | stale => rfl

abbrev RideEvent := Event ReqId TransitionCall Outcome
abbrev LedgerRun := Atomic Ledger TransitionCall Outcome ReqId

/-- The answer of a request that has one. -/
def Stage.outcome : Stage → Option Outcome
  | .answered outcome => some outcome
  | _ => none

/-- What clients see of a step: a request arrives, or is answered. -/
def callsAndReturns (s : RideState) (a : RideAction) (t : RideState) : List RideEvent :=
  shown Stage.outcome a.request s.requests t.requests

/-- The ride requests and what clients have seen of them. -/
def observedRides (cfg : Settings) : System (RideState × List RideEvent) RideAction :=
  recording (rideSystem cfg) callsAndReturns

section Alone

variable {call : TransitionCall} {first second : Applied} {found : Option UserId}

/-- The first `apply_transition` of a call, on the row that was checked. -/
structure Begins (call : TransitionCall) (first : Applied) : Prop where
  id : first.replaced.id = call.rideId
  rereads : first.checked = first.replaced
  authorized : authorized call.user first.checked call.payload.targetStatus = true
  target : first.target = call.payload.targetStatus
  expected : first.expected = call.payload.expectedVersion
  extra : first.extra = none
  startedAt : first.startedAt = call.startedAt

/-- The second one, on the row that the first one wrote. -/
structure Follows (call : TransitionCall) (first second : Applied) (found : Option UserId) :
    Prop where
  checked : second.checked = first.written
  replaced : second.replaced = first.written
  target : second.target = (resolution found).1
  expected : second.expected = first.written.version
  extra : second.extra = (resolution found).2
  startedAt : second.startedAt = call.startedAt

/-- It is one that the call makes of that row. -/
theorem Begins.genuine (h : Begins call first) :
    applyTransition (some first.replaced) first.replaced call.payload.targetStatus
      call.payload.expectedVersion none call.startedAt first.effectAt = .ok first.result := by
  rw [← h.target, ← h.expected, ← h.startedAt, ← h.extra]
  have hgenuine := first.genuine
  rwa [h.rereads] at hgenuine

/-- It is one that the call makes of the refreshed ride. -/
theorem Follows.genuine (h : Follows call first second found) :
    applyTransition (some first.result.ride) first.result.ride (resolution found).1
      first.result.ride.version (resolution found).2 call.startedAt second.effectAt =
        .ok second.result := by
  have hgenuine := second.genuine
  rwa [h.checked, h.replaced, h.target, h.expected, h.extra, h.startedAt] at hgenuine

/-- A request that does not search does alone what its one update did. -/
theorem Begins.alone (h : Begins call first)
    (hplain : takesMatching call.payload first.checked = false) :
    transitionRideAlone call none first.effectAt 0 (some first.replaced) =
      .ok (first.written, [first.event]) := by
  have hauthorized := h.authorized
  rw [h.rereads] at hauthorized hplain
  simp only [transitionRideAlone, hauthorized, h.genuine, hplain, if_true, Bool.false_eq_true,
    if_false]
  rfl

/-- A request that searches does alone what its two updates did. -/
theorem Follows.alone (h : Follows call first second found) (hfirst : Begins call first)
    (hmatching : takesMatching call.payload first.checked = true) :
    transitionRideAlone call found first.effectAt second.effectAt (some first.replaced) =
      .ok (second.written, [first.event, second.event]) := by
  have hauthorized := hfirst.authorized
  rw [hfirst.rereads] at hauthorized hmatching
  simp only [transitionRideAlone, hauthorized, hfirst.genuine, hmatching, if_true, h.genuine]
  rfl

end Alone

/-- The steps of the search. -/
def Todo.searches : Todo → Bool
  | .search => true
  | .reserve _ => true
  | .resolve _ => true
  | _ => false

/-- What a request that holds its row has done so far, which is what it does
alone. -/
inductive Halfway (call : TransitionCall) : Ride → List Applied → Todo → Prop
  | searching {first : Applied} {todo : Todo} (hfirst : Begins call first)
      (hmatching : takesMatching call.payload first.checked = true)
      (htodo : todo.searches = true) :
      Halfway call first.written [first] todo
  | plain {first : Applied} {todo : Todo} (hfirst : Begins call first)
      (hplain : takesMatching call.payload first.checked = false)
      (htodo : todo.searches = false) :
      Halfway call first.written [first] todo
  | resolved {first second : Applied} {found : Option UserId} (hfirst : Begins call first)
      (hmatching : takesMatching call.payload first.checked = true)
      (hsecond : Follows call first second found) :
      Halfway call second.written [first, second] .commit

/-- The ride that was read shows that the request will be refused, with this
error. -/
inductive Doomed (call : TransitionCall) (ride : Ride) : TransitionError → Prop
  | illegal (hillegal : call.payload.targetStatus ∉ rideTransitions ride.status) :
      Doomed call ride (.invalidTransition ride.status call.payload.targetStatus)
  | outdated (hlegal : call.payload.targetStatus ∈ rideTransitions ride.status)
      (hlt : call.payload.expectedVersion < ride.version) :
      Doomed call ride (.staleVersion ride.id call.payload.expectedVersion)

/-- Where a request stands, and where its call stands in the atomic system.  A
request whose read shows that it will be refused has been executed then. -/
inductive StandsAs : Option (TransitionCall × Stage) →
    Option (Status TransitionCall Outcome) → Prop
  | unknown : StandsAs none none
  | loading {call : TransitionCall} : StandsAs (some (call, .loading)) (some (.called call))
  | updating {call : TransitionCall} {ride : Ride} (hid : ride.id = call.rideId)
      (hauthorized : authorized call.user ride call.payload.targetStatus = true)
      (hlegal : call.payload.targetStatus ∈ rideTransitions ride.status)
      (hversion : (ride.version : Int) = call.payload.expectedVersion) :
      StandsAs (some (call, .updating ride)) (some (.called call))
  | doomed {call : TransitionCall} {ride : Ride} {e : TransitionError}
      (hdoomed : Doomed call ride e) :
      StandsAs (some (call, .updating ride)) (some (.executed call (.rejected e.rejection)))
  | holding {call : TransitionCall} {ride : Ride} {pending : List Applied} {todo : Todo}
      (hhalfway : Halfway call ride pending todo) :
      StandsAs (some (call, .holding ride pending todo)) (some (.called call))
  | answered {call : TransitionCall} {outcome : Outcome} :
      StandsAs (some (call, .answered outcome)) (some (.returned call outcome))

/-- What is looked at of the ride requests. -/
def ridePortrait : Portrait RideState Ledger TransitionCall Stage Outcome Outcome ReqId where
  object := RideState.ledger
  requests := RideState.requests
  tell := id
  StandsAs := StandsAs

section Recorded

variable {cfg : Settings} {s t : RideState} {a : RideAction} {ride cur : Ride}

/-- The row is one that its ride has had: its birth and the first of the committed changes
lead to it, and the others lead on to the committed row. -/
def Recorded (s : RideState) (ride : Ride) : Prop :=
  ∃ first cur before after, Born first ∧ s.rides ride.id = some cur ∧
    s.committed ride.id = before ++ after ∧
    IsTrail Applied.replaced Applied.written first before ride ∧
    IsTrail Applied.replaced Applied.written ride after cur

/-- A committed row is recorded. -/
theorem recorded_row (hsound : Sound rideSchema Born Rereads s.store) {r : RideId}
    (hride : s.rides r = some ride) : Recorded s ride := by
  have hkey : ride.id = r := hsound.row_key r ride hride
  rw [← hkey] at hride
  obtain ⟨first, hborn, htrail⟩ := hsound.row_trail ride.id ride hride
  exact ⟨first, ride, s.committed ride.id, [], hborn, hride, (List.append_nil _).symm, htrail, rfl⟩

/-- **What is recorded stays recorded.** -/
theorem Recorded.extend (h : Recorded s ride) (hextends : Extends rideSchema s.store t.store) :
    Recorded t ride := by
  obtain ⟨first, cur, before, after, hborn, hcur, hcommitted, hbefore, hafter⟩ := h
  obtain ⟨new, more, hnew, hlog, htrail⟩ := hextends ride.id cur hcur
  refine ⟨first, new, before, after ++ more, hborn, hnew, ?_, hbefore,
    isTrail_append.mpr ⟨cur, hafter, htrail⟩⟩
  have hmore : t.committed ride.id = s.committed ride.id ++ more := hlog
  rw [hmore, hcommitted, List.append_assoc]

/-- The outbox tells of a recorded row that is not the committed one any more. -/
theorem Recorded.was (h : Recorded s ride) (hsound : Sound rideSchema Born Rereads s.store)
    (hbooks : Books s) (hcur : s.rides ride.id = some cur) (hlt : ride.version < cur.version) :
    s.ledger.Was cur ride := by
  obtain ⟨first, cur', before, after, hborn, hcur', hcommitted, hbefore, hafter⟩ := h
  obtain rfl : cur = cur' := Option.some.inj (hcur.symm.trans hcur')
  have hkey : cur.id = ride.id := hsound.row_key _ _ hcur
  have hpassenger : cur.passengerId = ride.passengerId :=
    hafter.vertex_inv (P := fun row => row.passengerId = ride.passengerId) rfl
      fun e _ hsame => by rw [e.spec.2.2.1, ← hsame]; rfl
  have hread : ∀ e ∈ before, Rereads e := by
    intro e he
    have hmem : e ∈ s.committed ride.id := hcommitted ▸ List.mem_append_left _ he
    exact hsound.log_good e (mem_committed.mp hmem).1
  refine ⟨hkey.symm, hpassenger.symm, hlt, before.map Applied.event, ?_,
    trail_replays hborn hbefore hread⟩
  have hevents : s.events ride.id = before.map Applied.event ++ after.map Applied.event := by
    rw [events_eq hbooks.outbox, hcommitted, List.map_append]
  rw [hkey]
  exact ⟨_, hevents.symm⟩

/-- The ride store is sound, every token has been read, and what a request has read was a
row of its ride. -/
structure ReadsStand (s : RideState) : Prop where
  sound : Sound rideSchema Born Rereads s.store
  tokens : TokensSeen s
  books : Books s
  recorded : ∀ q call ride, s.requests q = some (call, .updating ride) → Recorded s ride

/-- The ride store is sound, whatever the updates. -/
theorem ReadsStand.anySound (h : ReadsStand s) : Sound rideSchema Born anyUpdate s.store :=
  h.sound.mono fun _ _ => trivial

/-- **One step keeps what was read.** -/
theorem readsStand_kept (h : ReadsStand s) (hok : tokenOfARead s a = true)
    (hstep : rideStep cfg s a = some t) : ReadsStand t := by
  have hmove : Move rideSchema Born Rereads s.store t.store :=
    step_move h.sound (fun _ hadds => adds_rereads h.tokens hadds) hstep
  have hextends : Extends rideSchema s.store t.store := hmove.extends h.sound
  refine ⟨hmove.sound h.sound, step_tokensSeen h.anySound h.tokens hok hstep,
    step_books h.anySound h.books hstep, fun q call ride hreq => ?_⟩
  rcases updating_origin hreq hstep with hold | ⟨_, _, hride⟩
  · exact (h.recorded q call ride hold).extend hextends
  · exact (recorded_row h.sound hride).extend hextends

/-- Nothing has been read at first. -/
theorem readsStand_init : ReadsStand .init where
  sound := sound_init
  tokens := fun _ _ _ hreq => by cases hreq
  books :=
    have hnothing : Steps (rideSystem {}) free .init [] .init := .nil _
    books_kept hnothing
  recorded := fun _ _ _ hreq => by cases hreq

end Recorded

section Shown

variable {s t : RideState} {a : RideAction} {q : ReqId} {call : TransitionCall} {stage : Stage}
  {old : TransitionCall × Stage} {outcome : Outcome}

/-- What is no step of a request is not seen. -/
theorem seen_none (ha : a.request = none) : callsAndReturns s a t = [] := by
  rw [callsAndReturns, ha]
  rfl

/-- A request that arrives is seen as a call. -/
theorem seen_begin (ha : a.request = some q) (hs : s.requests q = none)
    (ht : t.requests q = some (call, stage)) : callsAndReturns s a t = [.call q call] := by
  rw [callsAndReturns, ha, shown_call hs ht]

/-- A request that goes on is not seen. -/
theorem seen_work (ha : a.request = some q) (hs : s.requests q = some old)
    (ht : t.requests q = some (call, stage)) (hopen : stage.outcome = none) :
    callsAndReturns s a t = [] := by
  rw [callsAndReturns, ha, shown_work hs ht hopen]

/-- A request that is answered is seen as a return. -/
theorem seen_answer (ha : a.request = some q) (hs : s.requests q = some old)
    (ht : t.requests q = some (call, .answered outcome)) :
    callsAndReturns s a t = [.ret q outcome] := by
  rw [callsAndReturns, ha]
  exact shown_answer hs ht rfl

end Shown

section Simulation

variable {cfg : Settings} {s t : RideState} {a : RideAction} {q : ReqId} {call : TransitionCall}
  {stage : Stage} {outcome : Outcome} {history : List RideEvent} {l : LedgerRun}

/-- A request that is not answered can fail. -/
theorem shows_fail (h : Shows ridePortrait (s, history) l)
    (hreq : s.requests q = some (call, stage)) (hopen : ∀ outcome, stage ≠ .answered outcome)
    (hledger : t.ledger = s.ledger)
    (hreqs : t.requests = update s.requests q (some (call, .answered .failed))) :
    ∃ l', AtomicRun ledger l l' ∧ Shows ridePortrait (t, history ++ [.ret q .failed]) l' := by
  have hshown : AtomicStep ledger l (l.finish q call .failed) →
      ∃ l', AtomicRun ledger l l' ∧ Shows ridePortrait (t, history ++ [.ret q .failed]) l' :=
    fun hstep => h.finish hstep hledger hreqs .answered
  have hstands : StandsAs (s.requests q) (l.calls q) := h.calls q
  rw [hreq] at hstands
  generalize hcalls : l.calls q = status at hstands
  cases hstands with
  | loading => exact hshown (.drop hcalls)
  | updating _ _ _ _ => exact hshown (.drop hcalls)
  | doomed _ => exact hshown (.lose hcalls trivial)
  | holding _ => exact hshown (.drop hcalls)
  | answered => exact absurd rfl (hopen _)

/-! ### What each step of a request shows -/

/-- Its UPDATE can fail in no other way. -/
theorem Doomed.error {stored : Option Ride} {ride : Ride} {e e' : TransitionError} {n : Nat}
    (h : Doomed call ride e)
    (herror : applyTransition stored ride call.payload.targetStatus call.payload.expectedVersion
      none call.startedAt n = .error e') : e' = e := by
  rcases applyTransition_error herror with ⟨hillegal, rfl⟩ | ⟨hlegal, rfl, _⟩
  · cases h with
    | illegal _ => rfl
    | outdated hlegal _ => exact absurd hlegal hillegal
  · cases h with
    | illegal hillegal => exact absurd hlegal hillegal
    | outdated _ _ => rfl

/-- An UPDATE that finds a row no older than the one that was read cannot
succeed. -/
theorem Doomed.not_ok {row ride : Ride} {e : TransitionError} {n : Nat}
    {result : TransitionResult} (h : Doomed call ride e) (hle : ride.version ≤ row.version) :
    applyTransition (some row) ride call.payload.targetStatus call.payload.expectedVersion none
      call.startedAt n ≠ .ok result := by
  intro hok
  obtain ⟨hlegal, row', hrow, hversion, _⟩ := applyTransition_ok.mp hok
  obtain rfl : row = row' := Option.some.inj hrow
  cases h with
  | illegal hillegal => exact hillegal hlegal
  | outdated _ hlt => omega

/-- Alone the call would be refused with this error, too. -/
theorem Doomed.alone {ride : Ride} {e : TransitionError} (h : Doomed call ride e)
    (hauthorized : authorized call.user ride call.payload.targetStatus = true) :
    transitionRideAlone call none 0 0 (some ride) = .error e.rejection := by
  cases hresult : applyTransition (some ride) ride call.payload.targetStatus
      call.payload.expectedVersion none call.startedAt 0 with
  | ok result => exact absurd hresult (h.not_ok le_rfl)
  | error e' =>
      obtain rfl := h.error hresult
      simp only [transitionRideAlone, hauthorized, hresult, if_true]

/-- What the SELECT of a request finds is what it would find alone. -/
theorem read_alone (hstep : rideStep cfg s (.read q) = some t) :
    ∃ call, s.requests q = some (call, .loading) ∧
      ((∃ error, transitionRideAlone call none 0 0 (s.rides call.rideId) = .error error ∧
        t = s.rollback q call (.rejected error)) ∨
      ∃ ride, s.rides call.rideId = some ride ∧
        authorized call.user ride call.payload.targetStatus = true ∧
        t = s.at_ q call (.updating ride)) := by
  dsimp only [rideStep] at hstep
  split at hstep
  case h_1 call hreq =>
      refine ⟨call, hreq, ?_⟩
      split at hstep
      case h_1 hnone =>
          refine Or.inl ⟨_, ?_, (Option.some.inj hstep).symm⟩
          rw [hnone]
          rfl
      case h_2 ride hride =>
          split at hstep
          case isTrue hauth => exact Or.inr ⟨ride, hride, hauth, (Option.some.inj hstep).symm⟩
          case isFalse hauth =>
              refine Or.inl ⟨_, ?_, (Option.some.inj hstep).symm⟩
              simp only [hride, transitionRideAlone, hauth, if_false, Bool.false_eq_true]
  case h_2 => cases hstep

/-- The SELECT of a request is matched: it is executed there when it will be refused. -/
theorem shows_read (h : Shows ridePortrait (s, history) l)
    (hsound : Sound rideSchema Born anyUpdate s.store) (hok : tokenOfARead s (.read q) = true)
    (hstep : rideStep cfg s (.read q) = some t) :
    ∃ l', AtomicRun ledger l l' ∧
      Shows ridePortrait (t, history ++ callsAndReturns s (.read q) t) l' := by
  obtain ⟨call, hreq, hcases⟩ := read_alone hstep
  have hcall : l.calls q = some (.called call) := by
    have hstands : StandsAs (s.requests q) (l.calls q) := h.calls q
    rw [hreq] at hstands
    generalize l.calls q = status at hstands
    cases hstands
    rfl
  rcases hcases with ⟨error, halone, rfl⟩ | ⟨ride, hride, hauthorized, rfl⟩
  · rw [seen_answer rfl hreq (update_self q _ s.requests)]
    exact h.answer hcall (Ledger.Exec.refused halone) rfl .answered
  · rw [seen_work rfl hreq (update_self q _ s.requests) rfl, List.append_nil]
    have hid : ride.id = call.rideId := hsound.row_key _ _ hride
    have htoken : call.payload.expectedVersion ≤ ride.version := by
      simpa [tokenOfARead, hreq, hride] using hok
    -- the ride that was read already tells whether the request is refused
    have hrefused : ∀ e, Doomed call ride e →
        ∃ l', AtomicRun ledger l l' ∧
          Shows ridePortrait (s.at_ q call (.updating ride), history) l' := by
      intro e hdoomed
      have halone := hdoomed.alone hauthorized
      rw [← hride] at halone
      exact h.execute hcall (Ledger.Exec.refused halone) rfl (.doomed hdoomed)
    by_cases hlegal : call.payload.targetStatus ∈ rideTransitions ride.status
    · rcases lt_or_eq_of_le htoken with hlt | heq
      · exact hrefused _ (.outdated hlegal hlt)
      · exact ⟨l, .refl, h.work hcall rfl rfl (.updating hid hauthorized hlegal heq.symm)⟩
    · exact hrefused _ (.illegal hlegal)

/-- Its UPDATE is matched: a miss is a 409 then and there. -/
theorem shows_update (h : Shows ridePortrait (s, history) l) (hs : ReadsStand s)
    (hstep : rideStep cfg s (.update q) = some t) :
    ∃ l', AtomicRun ledger l l' ∧
      Shows ridePortrait (t, history ++ callsAndReturns s (.update q) t) l' := by
  obtain ⟨call, ride, hreq, hcases⟩ := step_update hstep
  have hstands : StandsAs (s.requests q) (l.calls q) := h.calls q
  rw [hreq] at hstands
  generalize hcall : l.calls q = status at hstands
  obtain ⟨_, cur, hcur, hle⟩ := hs.tokens q call ride hreq
  have hcur : s.rides ride.id = some cur := hcur
  rcases hcases with ⟨e, herror, rfl⟩ | ⟨done, hdone, _, rfl⟩
  · rw [seen_answer rfl hreq (update_self q _ s.requests)]
    cases hstands with
    | updating hid hauthorized hlegal hversion =>
        rcases applyTransition_error herror with ⟨hillegal, _⟩ | ⟨_, rfl, hmiss⟩
        · exact absurd hlegal hillegal
        · -- the row that the UPDATE misses has moved on since it was read
          have hlt : ride.version < cur.version := by
            rcases hle with rfl | hlt
            · exact absurd hversion (hmiss cur hcur)
            · exact hlt
          have hwas : s.ledger.Was cur ride :=
            (hs.recorded q call ride hreq).was hs.sound hs.books hcur hlt
          refine h.answer hcall ?_ rfl .answered
          rw [hwas.id]
          exact Ledger.Exec.stale (hid ▸ hcur) hwas hversion hauthorized hlegal
    | doomed hdoomed =>
        obtain rfl := hdoomed.error herror
        exact h.finish (.ret hcall) rfl rfl .answered
  · rw [seen_work rfl hreq (update_self q _ s.requests) rfl, List.append_nil]
    obtain ⟨hrow, hq, _, hchecked, htarget, hexpected, hextra, hstarted⟩ :=
      attemptTransition_ok hdone
    obtain rfl : cur = done.replaced := Option.some.inj (hcur.symm.trans hrow)
    cases hstands with
    | updating hid hauthorized _ _ =>
        have hrereads : Rereads done :=
          adds_rereads hs.tokens (.first hreq hrow hq hchecked htarget hexpected hextra)
        have hkey : done.replaced.id = ride.id := hs.sound.row_key _ _ hrow
        have hbegins : Begins call done :=
          ⟨hkey.trans hid, hrereads, hchecked ▸ hauthorized, htarget, hexpected, hextra, hstarted⟩
        refine ⟨l, .refl, h.work hcall rfl rfl (.holding ?_)⟩
        rw [List.nil_append, afterUpdate]
        split
        case isTrue hmatching => exact .searching hbegins (hchecked ▸ hmatching) rfl
        case isFalse hplain =>
            have hplain : takesMatching call.payload done.checked = false := by
              rw [hchecked]
              exact Bool.eq_false_iff.mpr hplain
            split
            · exact .plain hbegins hplain rfl
            · exact .plain hbegins hplain rfl
    | doomed hdoomed =>
        have hle : ride.version ≤ done.replaced.version := by
          rcases hle with hsame | hlt
          · rw [hsame]
          · exact hlt.le
        have hgenuine := done.genuine
        rw [hchecked, htarget, hexpected, hextra, hstarted] at hgenuine
        exact absurd hgenuine (hdoomed.not_ok hle)

/-- A request that holds its row has been called, and not executed. -/
theorem shows_halfway (h : Shows ridePortrait (s, history) l) {ride : Ride} {pending : List Applied}
    {todo : Todo} (hreq : s.requests q = some (call, .holding ride pending todo)) :
    l.calls q = some (.called call) ∧ Halfway call ride pending todo := by
  have hstands : StandsAs (s.requests q) (l.calls q) := h.calls q
  rw [hreq] at hstands
  generalize l.calls q = status at hstands
  cases hstands with
  | holding hhalfway => exact ⟨rfl, hhalfway⟩

/-- The steps on the reservation keys do not leave the branch. -/
theorem Halfway.work {ride : Ride} {pending : List Applied} {todo todo' : Todo}
    (h : Halfway call ride pending todo) (hne : todo ≠ .commit)
    (hsame : todo'.searches = todo.searches) : Halfway call ride pending todo' := by
  cases h with
  | searching hfirst hmatching htodo => exact .searching hfirst hmatching (hsame.trans htodo)
  | plain hfirst hplain htodo => exact .plain hfirst hplain (hsame.trans htodo)
  | resolved _ _ _ => exact absurd rfl hne

/-- A step on the reservation keys is matched by none. -/
theorem shows_work (h : Shows ridePortrait (s, history) l) {ride : Ride} {pending : List Applied}
    {todo todo' : Todo} (hreq : s.requests q = some (call, .holding ride pending todo))
    (hne : todo ≠ .commit) (ha : a.request = some q) (hledger : t.ledger = s.ledger)
    (hreqs : t.requests = update s.requests q (some (call, .holding ride pending todo')))
    (hsame : todo'.searches = todo.searches) :
    ∃ l', AtomicRun ledger l l' ∧ Shows ridePortrait (t, history ++ callsAndReturns s a t) l' := by
  have hreq' : t.requests q = some (call, .holding ride pending todo') := by
    rw [hreqs, update_self]
  rw [seen_work ha hreq hreq' rfl, List.append_nil]
  obtain ⟨hcall, hhalfway⟩ := shows_halfway h hreq
  exact ⟨l, .refl, h.work hcall hledger hreqs (.holding (hhalfway.work hne hsame))⟩

/-- So is the second UPDATE. -/
theorem shows_resolve (h : Shows ridePortrait (s, history) l)
    (hstep : rideStep cfg s (.resolve q) = some t) :
    ∃ l', AtomicRun ledger l l' ∧
      Shows ridePortrait (t, history ++ callsAndReturns s (.resolve q) t) l' := by
  obtain ⟨call, ride, pending, driverId, hreq, hcases⟩ := step_resolve hstep
  obtain ⟨hcall, hhalfway⟩ := shows_halfway h hreq
  cases hhalfway with
  | plain _ _ htodo => cases htodo
  | @searching first _ hfirst hmatching _ =>
      have hstatus : first.written.status = .matching := by
        rw [first.spec.2.2.1, Ride.set_status, hfirst.target]
        exact (of_decide_eq_true hmatching).1
      rcases hcases with ⟨e, herror, _⟩ | ⟨done, hdone, rfl⟩
      · exact absurd herror (second_never_raises hstatus driverId _ _ e)
      · rw [seen_work rfl hreq (update_self q _ s.requests) rfl, List.append_nil]
        obtain ⟨hrow, _, _, hchecked, htarget, hexpected, hextra, hstarted⟩ :=
          attemptTransition_ok hdone
        have hfollows : Follows call first done driverId :=
          ⟨hchecked, (Option.some.inj hrow).symm, htarget, hexpected, hextra, hstarted⟩
        exact ⟨l, .refl, h.work hcall rfl rfl (.holding (.resolved hfirst hmatching hfollows))⟩

/-- **A COMMIT is the whole transition, run alone.** -/
theorem shows_commit (h : Shows ridePortrait (s, history) l)
    (hsound : Sound rideSchema Born anyUpdate s.store)
    (hstep : rideStep cfg s (.commit q) = some t) :
    ∃ l', AtomicRun ledger l l' ∧
      Shows ridePortrait (t, history ++ callsAndReturns s (.commit q) t) l' := by
  obtain ⟨call, ride, pending, hreq, rfl⟩ := step_commit hstep
  obtain ⟨hcall, hhalfway⟩ := shows_halfway h hreq
  rw [seen_answer rfl hreq (update_self q _ s.requests)]
  -- the row is locked: what is committed is what the first update replaced
  obtain ⟨old, hold, htrail⟩ := hsound.open_trail q ride pending (opened_of_requests hreq)
  have hold : s.rides ride.id = some old := hold
  have hkey : old.id = ride.id := hsound.row_key _ _ hold
  cases hhalfway with
  | searching _ _ htodo => cases htodo
  | @plain first _ hfirst hplain _ =>
      obtain rfl : first.replaced = old := htrail.head_src rfl
      have halone := hfirst.alone hplain
      rw [← hold, ← hkey, hfirst.id] at halone
      exact h.answer hcall (Ledger.Exec.done halone) rfl .answered
  | @resolved first second found hfirst hmatching hsecond =>
      obtain rfl : first.replaced = old := htrail.head_src rfl
      have halone := hsecond.alone hfirst hmatching
      rw [← hold, ← hkey, hfirst.id] at halone
      exact h.answer hcall (Ledger.Exec.done halone) rfl .answered

/-- **Every step of the requests is matched by the atomic system.** -/
theorem step_shows (h : Shows ridePortrait (s, history) l) (hs : ReadsStand s)
    (hok : tokenOfARead s a = true) (hstep : rideStep cfg s a = some t) :
    ∃ l', AtomicRun ledger l l' ∧ Shows ridePortrait (t, history ++ callsAndReturns s a t) l' := by
  cases a with
  | create id user payload fare key =>
      obtain ⟨_, hfresh, rfl⟩ := step_create hstep
      rw [seen_none rfl, List.append_nil]
      refine h.env ?_ rfl
      exact ⟨newRide id user payload fare key s.clock, hfresh, ⟨rfl, rfl, rfl⟩, rfl⟩
  | begin q user rideId payload =>
      obtain ⟨hnone, rfl⟩ := step_begin hstep
      have hcall : l.calls q = none := by
        have hstands : StandsAs (s.requests q) (l.calls q) := h.calls q
        rw [hnone] at hstands
        generalize l.calls q = status at hstands
        cases hstands
        rfl
      rw [seen_begin rfl hnone (update_self q _ s.requests)]
      exact h.call hcall rfl rfl .loading
  | read q => exact shows_read h hs.anySound hok hstep
  | update q => exact shows_update h hs hstep
  | search q candidates =>
      obtain ⟨call, ride, pending, hreq, rfl⟩ := step_search hstep
      exact shows_work h hreq (by simp) rfl rfl rfl rfl
  | reserve q =>
      obtain ⟨call, ride, pending, candidates, hreq, hcases⟩ := step_reserve hstep
      rcases hcases with ⟨_, rfl⟩ | ⟨d, rest, _, _, rfl⟩ | ⟨d, rest, _, _, rfl⟩
      · exact shows_work h hreq (by simp) rfl rfl rfl rfl
      · exact shows_work h hreq (by simp) rfl rfl rfl rfl
      · exact shows_work h hreq (by simp) rfl rfl rfl rfl
  | resolve q => exact shows_resolve h hstep
  | getKey q =>
      obtain ⟨call, ride, pending, d, hreq, _, ⟨_, rfl⟩ | ⟨_, rfl⟩⟩ := step_getKey hstep
      · exact shows_work h hreq (by simp) rfl rfl rfl rfl
      · exact shows_work h hreq (by simp) rfl rfl rfl rfl
  | deleteKey q =>
      obtain ⟨call, ride, pending, d, hreq, _, rfl⟩ := step_deleteKey hstep
      exact shows_work h hreq (by simp) rfl rfl rfl rfl
  | commit q => exact shows_commit h hs.anySound hstep
  | abort q =>
      obtain ⟨call, stage, hreq, hopen, rfl⟩ := step_abort hstep
      rw [seen_answer rfl hreq (update_self q _ s.requests)]
      exact shows_fail h hreq hopen rfl rfl
  | expire d =>
      obtain ⟨key, _, _, rfl⟩ := step_expire hstep
      rw [seen_none rfl, List.append_nil]
      exact ⟨l, .refl, h.silent rfl rfl⟩
  | advance seconds =>
      obtain rfl := step_advance hstep
      rw [seen_none rfl, List.append_nil]
      exact ⟨l, .refl, h.silent rfl rfl⟩

end Simulation

section Runs

variable {cfg : Settings} {acts more : List RideAction} {s t : RideState × List RideEvent}

/-- A run goes on in the atomic system as it goes on among the requests. -/
theorem run_shows {l : LedgerRun} (h : Shows ridePortrait s l) (hs : ReadsStand s.1)
    (hrun : Steps (observedRides cfg) (fun u a => tokenOfARead u.1 a) s acts t) :
    ∃ l', AtomicRun ledger l l' ∧ Shows ridePortrait t l' :=
  h.run (fun u a => tokenOfARead u a) hrun ReadsStand hs
    (fun _ _ _ hu hok hstep => readsStand_kept hu hok hstep)
    fun _ _ _ _ _ hu hk hok hstep => step_shows hk hu hok hstep

/-- At first there is nothing to show. -/
theorem shows_init : Shows ridePortrait (.init, []) (.start RideState.init.ledger) where
  object := rfl
  history := rfl
  calls := fun _ => .unknown

/-- Who was answered has returned. -/
theorem shows_returned {l : LedgerRun} (h : Shows ridePortrait s l) {q : ReqId}
    {call : TransitionCall} {outcome : Outcome}
    (hans : s.1.requests q = some (call, .answered outcome)) :
    l.calls q = some (.returned call outcome) := by
  have hstands : StandsAs (s.1.requests q) (l.calls q) := h.calls q
  rw [hans] at hstands
  generalize l.calls q = status at hstands
  cases hstands
  rfl

/-- Who has not arrived has not called. -/
theorem shows_uncalled {l : LedgerRun} (h : Shows ridePortrait s l) {q : ReqId}
    (hnone : s.1.requests q = none) : l.calls q = none := by
  have hstands : StandsAs (s.1.requests q) (l.calls q) := h.calls q
  rw [hnone] at hstands
  generalize l.calls q = status at hstands
  cases hstands
  rfl

/-- **Transitions are linearizable.**  In every interleaving in which each request
carries at most the version that it reads, the history of requests and answers,
the committed rides and the outbox are those of a run of `ledger`, in which every
transition is executed in one step (`Ledger.Exec`) between its call and its return.
A request that was answered before another one arrived is executed before it. -/
theorem transitions_linearizable
    (h : Steps (observedRides cfg) (fun u a => tokenOfARead u.1 a) (.init, []) acts s)
    (hmore : Steps (observedRides cfg) (fun u a => tokenOfARead u.1 a) s more t) :
    ∃ l l' : LedgerRun, AtomicRun ledger (.start RideState.init.ledger) l ∧
      AtomicRun ledger l l' ∧
      (l.object = s.1.ledger ∧ l.history = s.2) ∧
      (l'.object = t.1.ledger ∧ l'.history = t.2) ∧
      ∀ p q callP callQ outcomeP outcomeQ,
        s.1.requests p = some (callP, .answered outcomeP) → outcomeP ≠ .failed →
        s.1.requests q = none →
        t.1.requests q = some (callQ, .answered outcomeQ) → outcomeQ ≠ .failed →
        ∃ front back, l'.order = front ++ back ∧ p ∈ front ∧ q ∈ back := by
  obtain ⟨l, hbefore, hshows⟩ := run_shows shows_init readsStand_init h
  have hs : ReadsStand s.1 :=
    (unrecorded (fun u a => tokenOfARead u a) h).invariant ReadsStand readsStand_init
      fun _ _ _ hu hok hstep => readsStand_kept hu hok hstep
  obtain ⟨l', hafter, hshows'⟩ := run_shows hshows hs hmore
  have hhistory := hshows.history
  have hhistory' := hshows'.history
  rw [show ridePortrait.tell = id from rfl, told_id, List.map_id] at hhistory hhistory'
  refine ⟨l, l', hbefore, hafter, ⟨hshows.object, hhistory⟩, ⟨hshows'.object, hhistory'⟩, ?_⟩
  intro p q callP callQ outcomeP outcomeQ hp hanswered hq hq' hanswered'
  have hplaced : Placed ledger l := hbefore.placed (placed_start _)
  have hplaced' : Placed ledger l' := hafter.placed hplaced
  exact real_time hplaced hafter (shows_returned hshows hp) hanswered (shows_uncalled hshows hq)
    (hplaced'.returned q callQ outcomeQ (shows_returned hshows' hq') hanswered')

end Runs

/-- After `matchThenMiss` the administrator reads the ride again and cancels it. -/
def laterCancellation : List RideAction :=
  [.begin 2 (sampleUser 7 .admin) 0 ⟨.cancelled, 3⟩, .read 2, .update 2, .getKey 2,
    .deleteKey 2, .commit 2]

/-- Was the request answered 200? -/
def RideState.granted (s : RideState) (q : ReqId) : Bool :=
  match s.requests q with
  | some (_, .answered (.ok _)) => true
  | _ => false

/-- A request that was answered 200 did not fail. -/
theorem granted_answered {s : RideState} {q : ReqId} (h : s.granted q = true) :
    ∃ call outcome, s.requests q = some (call, .answered outcome) ∧ outcome ≠ .failed := by
  unfold RideState.granted at h
  split at h
  case h_1 call ride hreq => exact ⟨call, .ok ride, hreq, by simp⟩
  case h_2 => cases h

/-- The match is executed before the cancellation that was requested after its answer. -/
theorem match_executed_before_cancellation : ∃ (s t : RideState) (l : LedgerRun),
    Steps (rideSystem {}) (fun s a => tokenOfARead s a) .init matchThenMiss s ∧
      Steps (rideSystem {}) (fun s a => tokenOfARead s a) s laterCancellation t ∧
      AtomicRun ledger (.start RideState.init.ledger) l ∧ l.object = t.ledger ∧
      ∃ front back, l.order = front ++ back ∧ 0 ∈ front ∧ 2 ∈ back := by
  have hfirst : (execWhere (rideSystem {}) (fun s a => tokenOfARead s a) .init
      matchThenMiss).any (fun s => s.granted 0 && (s.requests 2).isNone) = true := by decide
  have hboth : (execWhere (rideSystem {}) (fun s a => tokenOfARead s a) .init
      (matchThenMiss ++ laterCancellation)).any (fun s => s.granted 2) = true := by decide
  obtain ⟨s, hbefore, hs⟩ := Steps.of_execWhere_any hfirst
  obtain ⟨t, hrun, ht⟩ := Steps.of_execWhere_any hboth
  obtain ⟨s', hbefore', hafter⟩ := hrun.split
  obtain rfl := hbefore'.unique hbefore
  rw [Bool.and_eq_true, Option.isNone_iff_eq_none] at hs
  obtain ⟨callP, outcomeP, hp, hanswered⟩ := granted_answered hs.1
  obtain ⟨callQ, outcomeQ, hq, hanswered'⟩ := granted_answered ht
  obtain ⟨seen, hrecorded⟩ := recorded callsAndReturns hbefore []
  obtain ⟨seen', hrecorded'⟩ := recorded callsAndReturns hafter seen
  obtain ⟨l, l', hl, hl', _, hobject, horder⟩ :=
    transitions_linearizable hrecorded hrecorded'
  exact ⟨s', t, l', hbefore, hafter, hl.trans hl', hobject.1,
    horder 0 2 _ _ _ _ hp hanswered hs.2 hq hanswered'⟩

end RideFlow
