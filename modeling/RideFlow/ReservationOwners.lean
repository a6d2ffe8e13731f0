import RideFlow.MatchingBranch
import RideFlow.OutboxLog

/-!
# Reservation keys and the rides that own them

A key `driver:reservation:D` is set inside the transaction that matches a ride
and is removed by a GET and a DEL in the one that cancels it; in between it can
expire and another ride can reserve the same driver.  `Owns s D r` is what ties
the Redis key to PostgreSQL at every moment: the request that holds ride `r`
has just chosen `D`, or has written `D` into the row and not cancelled it, or
has cancelled it and not come to its DEL; or nobody holds `r`, and the
committed row has the driver `D` and is not cancelled.

Every step of a run without failing requests keeps the owner of every key
(`step_keysOwned`), so a key whose ride nobody is working on points at the ride
that owns the driver (`keys_point_at_owner`).
-/

namespace RideFlow

open RowLocks Trails Tables Function Runs

/-- An applied transition of the checked status that assigns a driver only
where it accepts. -/
structure AssignsOnAccept (e : Applied) : Prop where
  checked : CheckedStatus e
  assigned : e.extra.isSome → e.target = .accepted

/-- A ride that is neither active nor at rest has no driver yet. -/
def Unassigned (ride : Ride) : Prop :=
  ¬ ride.status.Active → ¬ ride.status.Terminal → ride.driverId = none

/-- What may follow a status that is active or at rest is so, too. -/
theorem searching_from {status target : RideStatus} (h : target ∈ rideTransitions status)
    (hactive : ¬ target.Active) (hrest : ¬ target.Terminal) :
    ¬ status.Active ∧ ¬ status.Terminal := by
  cases status <;> cases target <;>
    simp_all [rideTransitions, RideStatus.Active, RideStatus.Terminal]

theorem AssignsOnAccept.keeps {e : Applied} (h : AssignsOnAccept e)
    (hsrc : Unassigned e.replaced) : Unassigned e.written := by
  intro hactive hrest
  obtain ⟨hsrcActive, hsrcRest⟩ := searching_from h.checked.legal hactive hrest
  obtain ⟨_, _, hwritten, _⟩ := e.spec
  cases hextra : e.extra with
  | none =>
      rw [hwritten, hextra, Ride.set_driverId_none]
      exact hsrc hsrcActive hsrcRest
  | some fields =>
      have htarget := h.assigned (by rw [hextra]; rfl)
      rw [hwritten, Ride.set_status, htarget] at hactive
      exact absurd (Or.inl rfl) hactive

/-- The updates of requests that replace the row that they checked. -/
theorem adds_assigns {s : RideState} {a : RideAction} {e : Applied} (hadds : Adds s a e)
    (hread : Rereads e) : AssignsOnAccept e where
  checked := congrArg Ride.status hread
  assigned := by
    intro hextra
    cases hadds with
    | first _ _ _ _ _ _ hnone =>
        rw [hnone] at hextra
        cases hextra
    | @second _ _ _ _ driverId _ _ _ _ _ htarget hsame =>
        cases driverId with
        | none =>
            rw [hsame] at hextra
            cases hextra
        | some d => exact htarget

/-- A request that holds this row and has this to do accounts for a key of the
driver. -/
def AccountsFor (d : UserId) (ride : Ride) (todo : Todo) : Prop :=
  todo = .resolve (some d) ∨
    (ride.driverId = some d ∧ (ride.status ≠ .cancelled ∨ todo = .getKey ∨ todo = .deleteKey))

/-- Who owns the driver for the ride: the request that holds the ride, or the
committed row. -/
inductive Owns (s : RideState) (d : UserId) (r : RideId) : Prop
  | held {q : ReqId} {call : TransitionCall} {ride : Ride} {pending : List Applied}
      {todo : Todo} (hreq : s.requests q = some (call, .holding ride pending todo))
      (hid : ride.id = r) (hfor : AccountsFor d ride todo)
  | committed {ride : Ride} (hfree : s.locks r = none) (hrow : s.rides r = some ride)
      (hdriver : ride.driverId = some d) (hgoes : ride.status ≠ .cancelled)

/-- Every key has its owner. -/
def KeysOwned (s : RideState) : Prop :=
  ∀ d key, s.reservations d = some key → Owns s d key.rideId

/-- A request fails only while it has no key: before it has updated its ride, or
while it searches. -/
def failsWithoutKey (s : RideState) : RideAction → Bool
  | .abort q =>
      match s.requests q with
      | some (_, .holding _ _ .search) => true
      | some (_, .holding _ _ (.reserve _)) => true
      | some (_, .holding _ _ _) => false
      | _ => true
  | _ => true

section Steps

variable {cfg : Settings} {s t : RideState} {a : RideAction} {q : ReqId} {d : UserId}
  {r : RideId} {call : TransitionCall} {ride : Ride} {pending : List Applied} {todo : Todo}

/-- A row that is still looking for a driver has none. -/
theorem matching_unassigned (hsound : Sound rideSchema Born AssignsOnAccept s.store)
    (hreq : s.requests q = some (call, .holding ride pending todo))
    (hmatching : ride.status = .matching) : ride.driverId = none := by
  have hunassigned : Unassigned ride :=
    hsound.open_inv (P := Unassigned) (fun _ hborn _ _ => hborn.2.2) (fun _ he => he.keeps)
      (opened_of_requests hreq)
  refine hunassigned ?_ ?_
  · rw [hmatching]
    decide
  · rw [hmatching]
    decide

/-- One request moves, and the rows that nobody holds stay, or get an owner:
the other keys keep theirs. -/
theorem KeysOwned.move {stage : Stage} (h : KeysOwned s)
    (hreqs : t.requests = update s.requests q (some (call, stage)))
    (hkeys : ∀ d key, t.reservations d = some key → s.reservations d = some key)
    (hrows : ∀ r row, s.locks r = none → s.rides r = some row →
      (t.locks r = none ∧ t.rides r = some row) ∨
        ∀ d, row.driverId = some d → row.status ≠ .cancelled → Owns t d r)
    (hmine : ∀ d key call' ride pending todo, t.reservations d = some key →
      s.requests q = some (call', .holding ride pending todo) → ride.id = key.rideId →
      AccountsFor d ride todo → Owns t d key.rideId) : KeysOwned t := by
  intro d key hkey
  cases h d key (hkeys d key hkey) with
  | @held p call' ride pending todo hreq hid hfor =>
      by_cases hp : p = q
      · subst hp
        exact hmine d key call' ride pending todo hkey hreq hid hfor
      · have hstill : t.requests p = some (call', .holding ride pending todo) := by
          rw [hreqs]
          exact update_some_iff.mpr (Or.inr ⟨hp, hreq⟩)
        exact .held hstill hid hfor
  | @committed row hfree hrow hdriver hgoes =>
      rcases hrows _ row hfree hrow with ⟨hfree', hrow'⟩ | howns
      · exact .committed hfree' hrow' hdriver hgoes
      · exact howns d hdriver hgoes

/-- The same for a request that holds nothing and touches no row. -/
theorem KeysOwned.idle {stage old : Stage} (h : KeysOwned s)
    (hreq : s.requests q = some (call, old)) (hidle : old.opened = none)
    (hreqs : t.requests = update s.requests q (some (call, stage)))
    (hkeys : t.reservations = s.reservations) (hrides : t.rides = s.rides)
    (hlocks : ∀ r, s.locks r = none → t.locks r = none) : KeysOwned t := by
  refine h.move hreqs (fun d key hkey => hkeys ▸ hkey) ?_ ?_
  · intro r row hfree hrow
    exact Or.inl ⟨hlocks r hfree, hrides ▸ hrow⟩
  · intro d key call' ride pending todo _ hholding _ _
    cases hreq.symm.trans hholding
    cases hidle

/-- Releasing locks frees no row that was free. -/
theorem rollback_free {outcome : Outcome} (hfree : s.locks r = none) :
    (s.rollback q call outcome).locks r = none := by
  simp [RideState.rollback, hfree]

/-- A request that holds a ride goes on without writing the row: its keys stay
accounted for. -/
theorem KeysOwned.work {next : Todo} (h : KeysOwned s)
    (hreq : s.requests q = some (call, .holding ride pending todo))
    (hreqs : t.requests = update s.requests q (some (call, .holding ride pending next)))
    (hkeys : ∀ d key, t.reservations d = some key → s.reservations d = some key)
    (hrides : t.rides = s.rides) (hlocks : t.locks = s.locks)
    (hfor : ∀ d key, t.reservations d = some key → key.rideId = ride.id →
      AccountsFor d ride todo → AccountsFor d ride next) : KeysOwned t := by
  refine h.move hreqs hkeys ?_ ?_
  · intro r row hfree hrow
    exact Or.inl ⟨hlocks ▸ hfree, hrides ▸ hrow⟩
  · intro d key call' ride' pending' todo' hkey hholding hid hfor'
    cases hreq.symm.trans hholding
    have hmoved : t.requests q = some (call, .holding ride pending next) := by
      rw [hreqs, update_self]
    exact .held hmoved hid (hfor d key hkey hid.symm hfor')

/-- The UPDATE of a ride takes the keys of its row over. -/
theorem KeysOwned.update (hsound : Sound rideSchema Born AssignsOnAccept s.store)
    (h : KeysOwned s) {done : Applied} (hreq : s.requests q = some (call, .updating ride))
    (hdone : attemptTransition q s.effects (s.rides ride.id) ride call.payload.targetStatus
      call.payload.expectedVersion none call.startedAt = .ok done) :
    KeysOwned (s.hold q call done [] (afterUpdate call.payload ride done.written)) := by
  obtain ⟨hrow, _, _, _, htarget, _, hextra, _⟩ := attemptTransition_ok hdone
  have hkey : done.replaced.id = ride.id := hsound.row_key _ _ hrow
  have hid : done.written.id = ride.id := (rideSchema.key_tgt done).trans hkey
  have hwritten := done.spec.2.2.1
  refine h.move rfl (fun _ _ hkey => hkey) ?_ ?_
  · intro r row hunlocked hstored
    by_cases hr : r = ride.id
    · subst hr
      right
      intro d hdriver _
      obtain rfl : done.replaced = row := Option.some.inj (hrow.symm.trans hstored)
      have hsame : done.written.driverId = some d := by
        rw [hwritten, hextra, Ride.set_driverId_none]
        exact hdriver
      refine .held (update_self ..) hid (Or.inr ⟨hsame, ?_⟩)
      by_cases hcancel : done.written.status = .cancelled
      · -- a cancellation goes to the GET of the key
        have htargets : call.payload.targetStatus = .cancelled := by
          rw [← htarget, ← hcancel, hwritten, Ride.set_status]
        right
        left
        simp [afterUpdate, takesMatching, htargets, hsame]
      · exact Or.inl hcancel
    · left
      refine ⟨?_, hstored⟩
      change Function.update s.locks done.written.id (some q) r = none
      rw [hid, update_of_ne hr]
      exact hunlocked
  · intro d key call' ride' pending todo _ hholding _ _
    cases hreq.symm.trans hholding

/-- SET NX: the request that has chosen the driver owns the new key. -/
theorem KeysOwned.reserve (h : KeysOwned s) {rest : List UserId} {key : Reservation}
    (hreq : s.requests q = some (call, .holding ride pending (.reserve (d :: rest))))
    (hkey : key.rideId = ride.id) :
    KeysOwned { s.at_ q call (.holding ride pending (.resolve (some d))) with
      reservations := Function.update s.reservations d (some key) } := by
  intro e key' hkey'
  have hchosen : (s.at_ q call (.holding ride pending (.resolve (some d)))).requests q =
      some (call, .holding ride pending (.resolve (some d))) := update_self ..
  rcases update_some_iff.mp hkey' with ⟨rfl, rfl⟩ | ⟨_, hold⟩
  · exact .held hchosen hkey.symm (Or.inl rfl)
  · have hstill : KeysOwned (s.at_ q call (.holding ride pending (.resolve (some d)))) := by
      refine h.work hreq rfl (fun _ _ hkey => hkey) rfl rfl ?_
      rintro e' _ _ _ (hresolve | ⟨hdriver, hgoes | hget | hdelete⟩)
      · cases hresolve
      · exact Or.inr ⟨hdriver, Or.inl hgoes⟩
      · cases hget
      · cases hdelete
    cases hstill e key' hold with
    | held hreq' hid hfor => exact .held hreq' hid hfor
    | committed hfree hrow hdriver hgoes => exact .committed hfree hrow hdriver hgoes

/-- The second UPDATE writes the chosen driver into the row. -/
theorem KeysOwned.resolve (hsound : Sound rideSchema Born AssignsOnAccept s.store)
    (hbranches : BranchesFit s) (h : KeysOwned s) {driverId : Option UserId} {done : Applied}
    (hreq : s.requests q = some (call, .holding ride pending (.resolve driverId)))
    (hdone : attemptTransition q s.effects (some ride) ride (resolution driverId).1 ride.version
      (resolution driverId).2 call.startedAt = .ok done) :
    KeysOwned (s.hold q call done pending .commit) := by
  obtain ⟨hrow, _, _, _, htarget, _, hextra, _⟩ := attemptTransition_ok hdone
  obtain rfl : ride = done.replaced := Option.some.inj hrow
  have hid : done.written.id = done.replaced.id := rideSchema.key_tgt done
  have hwritten := done.spec.2.2.1
  have hlock : s.locks done.replaced.id = some q :=
    hsound.open_lock q _ _ (opened_of_requests hreq)
  refine h.move rfl (fun _ _ hkey => hkey) ?_ ?_
  · intro r row hunlocked hstored
    left
    refine ⟨?_, hstored⟩
    have hne : r ≠ done.written.id := by
      rintro rfl
      cases hunlocked.symm.trans (hid ▸ hlock)
    exact (update_of_ne hne _ _).trans hunlocked
  · intro d key call' ride' pending' todo' _ hholding hr hfor
    cases hreq.symm.trans hholding
    have hnone := matching_unassigned hsound hreq (hbranches _ _ _ _ _ hreq)
    rcases hfor with hresolve | ⟨hdriver, _⟩
    · cases hresolve
      refine .held (update_self ..) (hid.trans hr) (Or.inr ⟨?_, Or.inl ?_⟩)
      · rw [hwritten, hextra]
        rfl
      · rw [hwritten, Ride.set_status, htarget]
        exact fun hcancelled => by cases hcancelled
    · cases hnone.symm.trans hdriver

/-- COMMIT: the row accounts for the keys from now on. -/
theorem KeysOwned.commit (hsound : Sound rideSchema Born AssignsOnAccept s.store)
    (h : KeysOwned s) (hreq : s.requests q = some (call, .holding ride pending .commit)) :
    KeysOwned (s.commit q call ride pending) := by
  have hlock : s.locks ride.id = some q := hsound.open_lock q _ _ (opened_of_requests hreq)
  refine h.move rfl (fun _ _ hkey => hkey) ?_ ?_
  · intro r row hunlocked hstored
    left
    have hne : r ≠ ride.id := by
      rintro rfl
      cases hunlocked.symm.trans hlock
    refine ⟨?_, (update_of_ne hne _ _).trans hstored⟩
    simp [RideState.commit, hunlocked]
  · intro d key call' ride' pending' todo' _ hholding hid hfor
    cases hreq.symm.trans hholding
    rcases hfor with hresolve | ⟨hdriver, hgoes | hget | hdelete⟩
    · cases hresolve
    · refine .committed ?_ (hid ▸ update_self ..) hdriver hgoes
      rw [← hid]
      simp [RideState.commit, hlock]
    · cases hget
    · cases hdelete

/-- A request that may fail accounts for no key. -/
theorem fails_without_key (hsound : Sound rideSchema Born AssignsOnAccept s.store)
    (hbranches : BranchesFit s) (hok : failsWithoutKey s (.abort q) = true)
    (hreq : s.requests q = some (call, .holding ride pending todo)) :
    ¬ AccountsFor d ride todo := by
  have hnone : ride.status = .matching → ∀ d, ride.driverId ≠ some d := by
    intro hmatching d hdriver
    cases (matching_unassigned hsound hreq hmatching).symm.trans hdriver
  have hfits := hbranches _ _ _ _ _ hreq
  simp only [failsWithoutKey, hreq] at hok
  rintro (rfl | ⟨hdriver, _⟩)
  · cases hok
  · cases todo with
    | search => exact hnone hfits d hdriver
    | reserve candidates => exact hnone hfits d hdriver
    | resolve driverId => cases hok
    | getKey => cases hok
    | deleteKey => cases hok
    | commit => cases hok

/-- A ride has one owner. -/
theorem Owns.unique {e : UserId} (hsound : Sound rideSchema Born AssignsOnAccept s.store)
    (hbranches : BranchesFit s) (hd : Owns s d r) (he : Owns s e r) : d = e := by
  cases hd with
  | @held p _ ride _ todo hreq hid hfor =>
      have hopen := opened_of_requests hreq
      cases he with
      | @held p' _ _ _ _ hreq' hid' hfor' =>
          have hsame : p = p' :=
            hsound.exclusive hopen (opened_of_requests hreq') (hid.trans hid'.symm)
          subst hsame
          cases hreq.symm.trans hreq'
          have hchosen : ∀ c, todo = .resolve (some c) → ride.driverId = none := by
            rintro c rfl
            exact matching_unassigned hsound hreq (hbranches _ _ _ _ _ hreq)
          rcases hfor with hresolve | ⟨hdriver, _⟩
          · rcases hfor' with hresolve' | ⟨hdriver', _⟩
            · cases hresolve.symm.trans hresolve'
              rfl
            · cases (hchosen d hresolve).symm.trans hdriver'
          · rcases hfor' with hresolve' | ⟨hdriver', _⟩
            · cases (hchosen e hresolve').symm.trans hdriver
            · exact Option.some.inj (hdriver.symm.trans hdriver')
      | committed hfree _ _ _ =>
          have hlock : s.locks ride.id = some p := hsound.open_lock p _ _ hopen
          rw [hid, hfree] at hlock
          cases hlock
  | committed hfree hrow hdriver _ =>
      cases he with
      | @held p' _ ride' _ _ hreq' hid' _ =>
          have hlock : s.locks ride'.id = some p' :=
            hsound.open_lock p' _ _ (opened_of_requests hreq')
          rw [hid', hfree] at hlock
          cases hlock
      | committed _ hrow' hdriver' _ =>
          cases hrow.symm.trans hrow'
          exact Option.some.inj (hdriver.symm.trans hdriver')

/-- **Every step keeps the owners**, when a request fails only while it has no
key. -/
theorem step_keysOwned (hsound : Sound rideSchema Born AssignsOnAccept s.store)
    (hbranches : BranchesFit s) (h : KeysOwned s) (hok : failsWithoutKey s a = true)
    (hstep : rideStep cfg s a = some t) : KeysOwned t := by
  cases a with
  | create id user payload fare key =>
      obtain ⟨_, hfresh, rfl⟩ := step_create hstep
      intro d key' hkey
      cases h d key' hkey with
      | held hreq hid hfor => exact .held hreq hid hfor
      | @committed row hfree hrow hdriver hgoes =>
          refine .committed hfree (update_some_iff.mpr (Or.inr ⟨?_, hrow⟩)) hdriver hgoes
          rintro rfl
          cases hfresh.symm.trans hrow
  | begin q user rideId payload =>
      obtain ⟨hnone, rfl⟩ := step_begin hstep
      refine h.move rfl (fun _ _ hkey => hkey) (fun r row hfree hrow => Or.inl ⟨hfree, hrow⟩) ?_
      intro d key call' ride pending todo _ hholding _ _
      cases hnone.symm.trans hholding
  | read q =>
      obtain ⟨call, hreq, ⟨e, rfl⟩ | ⟨ride, _, _, rfl⟩⟩ := step_read hstep
      · exact h.idle hreq rfl rfl rfl rfl fun _ => rollback_free
      · exact h.idle hreq rfl rfl rfl rfl fun _ hfree => hfree
  | update q =>
      obtain ⟨call, ride, hreq, ⟨e, _, rfl⟩ | ⟨done, hdone, _, rfl⟩⟩ := step_update hstep
      · exact h.idle hreq rfl rfl rfl rfl fun _ => rollback_free
      · exact h.update hsound hreq hdone
  | search q candidates =>
      obtain ⟨call, ride, pending, hreq, rfl⟩ := step_search hstep
      refine h.work hreq rfl (fun _ _ hkey => hkey) rfl rfl ?_
      rintro d _ _ _ (hresolve | ⟨hdriver, hgoes | hget | hdelete⟩)
      · cases hresolve
      · exact Or.inr ⟨hdriver, Or.inl hgoes⟩
      · cases hget
      · cases hdelete
  | reserve q =>
      obtain ⟨call, ride, pending, candidates, hreq, hcases⟩ := step_reserve hstep
      have hnone := matching_unassigned hsound hreq (hbranches _ _ _ _ _ hreq)
      have hfor : ∀ next d, AccountsFor d ride (.reserve candidates) →
          AccountsFor d ride next := by
        rintro next d (hresolve | ⟨hdriver, _⟩)
        · cases hresolve
        · cases hnone.symm.trans hdriver
      rcases hcases with ⟨_, rfl⟩ | ⟨d, rest, _, _, rfl⟩ | ⟨d, rest, rfl, _, rfl⟩
      · exact h.work hreq rfl (fun _ _ hkey => hkey) rfl rfl fun d _ _ _ => hfor _ d
      · exact h.work hreq rfl (fun _ _ hkey => hkey) rfl rfl fun d _ _ _ => hfor _ d
      · exact h.reserve hreq rfl
  | resolve q =>
      obtain ⟨call, ride, pending, driverId, done, hreq, hdone, rfl⟩ :=
        resolve_succeeds hbranches hstep
      exact h.resolve hsound hbranches hreq hdone
  | getKey q =>
      obtain ⟨call, ride, pending, d, hreq, hd, ⟨_, rfl⟩ | ⟨hgone, rfl⟩⟩ := step_getKey hstep
      · refine h.work hreq rfl (fun _ _ hkey => hkey) rfl rfl ?_
        rintro e _ _ _ (hresolve | ⟨hdriver, _⟩)
        · cases hresolve
        · exact Or.inr ⟨hdriver, Or.inr (Or.inr rfl)⟩
      · refine h.work hreq rfl (fun _ _ hkey => hkey) rfl rfl ?_
        rintro e key hkey hid (hresolve | ⟨hdriver, _⟩)
        · cases hresolve
        · -- the GET would have found this key
          cases hd.symm.trans hdriver
          have hkey : s.reservations d = some key := hkey
          simp [holdsReservation, hkey, hid] at hgone
  | deleteKey q =>
      obtain ⟨call, ride, pending, d, hreq, hd, rfl⟩ := step_deleteKey hstep
      refine h.work hreq rfl (fun e key hkey => (update_none_iff.mp hkey).2) rfl rfl ?_
      rintro e key hkey _ (hresolve | ⟨hdriver, _⟩)
      · cases hresolve
      · cases hd.symm.trans hdriver
        exact absurd rfl (update_none_iff.mp hkey).1
  | commit q =>
      obtain ⟨call, ride, pending, hreq, rfl⟩ := step_commit hstep
      exact h.commit hsound hreq
  | abort q =>
      obtain ⟨call, stage, hreq, _, rfl⟩ := step_abort hstep
      refine h.move rfl (fun _ _ hkey => hkey) ?_ ?_
      · intro r row hfree hrow
        exact Or.inl ⟨rollback_free hfree, hrow⟩
      · intro d key call' ride pending todo _ hholding _ hfor
        exact absurd hfor (fails_without_key hsound hbranches hok hholding)
  | expire d =>
      obtain ⟨key, _, _, rfl⟩ := step_expire hstep
      intro e key' hkey
      cases h e key' (update_none_iff.mp hkey).2 with
      | held hreq hid hfor => exact .held hreq hid hfor
      | committed hfree hrow hdriver hgoes => exact .committed hfree hrow hdriver hgoes
  | advance seconds =>
      obtain rfl := step_advance hstep
      intro e key' hkey
      cases h e key' hkey with
      | held hreq hid hfor => exact .held hreq hid hfor
      | committed hfree hrow hdriver hgoes => exact .committed hfree hrow hdriver hgoes

end Steps

section Runs

variable {cfg : Settings} {acts : List RideAction} {s : RideState}

/-- Requests of token holders that fail only while they have no key. -/
def ownersKept (s : RideState) (a : RideAction) : Bool :=
  tokenOfARead s a && failsWithoutKey s a

/-- What such runs keep. -/
theorem keys_owned (h : Steps (rideSystem cfg) (fun s a => ownersKept s a) .init acts s) :
    Sound rideSchema Born AssignsOnAccept s.store ∧ BranchesFit s ∧ KeysOwned s := by
  have hkept : Sound rideSchema Born AssignsOnAccept s.store ∧ Ordered rideSchema s.store ∧
      TokensSeen s ∧ BranchesFit s ∧ KeysOwned s := by
    refine rides_sound_under (fun s => TokensSeen s ∧ BranchesFit s ∧ KeysOwned s) ?_ ?_ ?_ h
    · intro s a t hsound hI hok hstep
      obtain ⟨htoken, hfails⟩ := Bool.and_eq_true_iff.mp hok
      exact ⟨step_tokensSeen (hsound.mono fun _ _ => trivial) hI.1 htoken hstep,
        step_branchesFit hI.2.1 hstep, step_keysOwned hsound hI.2.1 hI.2.2 hfails hstep⟩
    · intro s a e _ hI _ hadds
      exact adds_assigns hadds (adds_rereads hI.1 hadds)
    · exact ⟨fun _ _ _ hreq => (by cases hreq), fun _ _ _ _ _ hreq => (by cases hreq),
        fun _ _ hkey => (by cases hkey)⟩
  exact ⟨hkept.1, hkept.2.2.2⟩

/-- Nobody works on the ride. -/
def RideState.IdleOn (s : RideState) (r : RideId) : Prop :=
  ∀ q call stage, s.requests q = some (call, stage) → call.rideId = r →
    ∃ outcome, stage = .answered outcome

/-- A cancelled ride is held by nobody. -/
theorem cancelled_not_held (hsound : Sound rideSchema Born AssignsOnAccept s.store)
    (hbooks : Books s) {q : ReqId} {call : TransitionCall} {held row : Ride}
    {pending : List Applied} {todo : Todo}
    (hreq : s.requests q = some (call, .holding held pending todo))
    (hrow : s.rides held.id = some row) : row.status ≠ .cancelled := by
  intro hcancelled
  obtain ⟨old, hold, htrail⟩ := hsound.open_trail q held pending (opened_of_requests hreq)
  obtain rfl : row = old := Option.some.inj (hrow.symm.trans hold)
  obtain ⟨_, _, first, rest, rfl, _⟩ := hbooks.fine q call _ hreq
  have hgood := hsound.open_good q held _ (opened_of_requests hreq) first List.mem_cons_self
  have hsrc : first.replaced = row := htrail.1
  have hlegal := hgood.checked.legal
  rw [hsrc, hcancelled] at hlegal
  cases hlegal

/-- **A key points at the ride that owns the driver.**  In every interleaving of
ride requests of token holders, none of which fails once it may have a key, with
expiries at any time: a key whose ride nobody works on holds a committed ride
of that driver that is not cancelled; a ride is held by one key at most; and a
cancelled ride by none. -/
theorem keys_point_at_owner
    (h : Steps (rideSystem cfg) (fun s a => ownersKept s a) .init acts s) :
    (∀ d key, s.reservations d = some key → s.IdleOn key.rideId →
      ∃ ride, s.rides key.rideId = some ride ∧ ride.driverId = some d ∧
        ride.status ≠ .cancelled) ∧
    (∀ d e key key', s.reservations d = some key → s.reservations e = some key' →
      key.rideId = key'.rideId → d = e) ∧
    ∀ r ride, s.rides r = some ride → ride.status = .cancelled →
      ∀ d key, s.reservations d = some key → key.rideId ≠ r := by
  obtain ⟨hsound, hbranches, howned⟩ := keys_owned h
  have hbooks := books_kept h
  refine ⟨?_, ?_, ?_⟩
  · intro d key hkey hidle
    cases howned d key hkey with
    | @held q call ride pending todo hreq hid _ =>
        have hcall : ride.id = call.rideId := (hbooks.fine q call _ hreq).1
        obtain ⟨outcome, hans⟩ := hidle q call _ hreq (hcall.symm.trans hid)
        cases hans
    | @committed ride _ hrow hdriver hgoes => exact ⟨ride, hrow, hdriver, hgoes⟩
  · intro d e key key' hkey hkey' hsame
    exact (howned d key hkey).unique hsound hbranches (hsame ▸ howned e key' hkey')
  · intro r ride hrow hcancelled d key hkey hr
    cases howned d key hkey with
    | @held q call held pending todo hreq hid _ =>
        rw [← hr, ← hid] at hrow
        exact cancelled_not_held hsound hbooks hreq hrow hcancelled
    | @committed ride' _ hrow' _ hgoes =>
        rw [hr] at hrow'
        cases hrow.symm.trans hrow'
        exact hgoes hcancelled

end Runs

/-- Ride 0 is matched with driver 2 and cancelled; between the GET and the DEL
of the cancellation the key expires, and ride 1 reserves driver 2. -/
def cancelAndReserveAgain : List RideAction :=
  [.create 0 (sampleUser 1 .passenger) sampleBody sampleFare none,
    .create 1 (sampleUser 5 .passenger) sampleBody sampleFare none,
    .begin 0 (sampleUser 1 .passenger) 0 ⟨.matching, 1⟩,
    .read 0, .update 0, .search 0 [2], .reserve 0, .resolve 0, .commit 0,
    .begin 1 (sampleUser 1 .passenger) 0 ⟨.cancelled, 3⟩,
    .read 1, .update 1, .advance 15, .expire 2, .getKey 1,
    .begin 2 (sampleUser 5 .passenger) 1 ⟨.matching, 1⟩,
    .read 2, .update 2, .search 2 [2], .reserve 2, .resolve 2, .commit 1, .commit 2]

/-- Has the request been answered? -/
def Stage.ended : Stage → Bool
  | .answered _ => true
  | _ => false

/-- Only requests that the schedule serves are known. -/
theorem served_of_known {cfg : Settings} {ok : RideState → RideAction → Prop}
    {acts : List RideAction} {s : RideState} (h : Steps (rideSystem cfg) ok .init acts s)
    {q : ReqId} {call : TransitionCall} {stage : Stage} (hreq : s.requests q = some (call, stage)) :
    q ∈ acts.filterMap RideAction.request := by
  induction h generalizing stage with
  | nil => cases hreq
  | snoc before _ hstep ih =>
      rw [List.filterMap_append, List.mem_append]
      rcases stage_origin hreq hstep with hold | ⟨old, _, hadv⟩
      · exact Or.inl (ih hold)
      · refine Or.inr (List.mem_filterMap.mpr ⟨_, List.mem_singleton_self _, hadv.served⟩)

theorem reserved_again_by_owner : ∃ s key ride,
    Steps (rideSystem {}) (fun s a => ownersKept s a) .init cancelAndReserveAgain s ∧
      s.reservations 2 = some key ∧ s.rides key.rideId = some ride ∧
      ride.driverId = some 2 := by
  have hreplay : (execWhere (rideSystem {}) (fun s a => ownersKept s a) .init
      cancelAndReserveAgain).any (fun s => (s.reservations 2).isSome ∧
        ∀ q ∈ cancelAndReserveAgain.filterMap RideAction.request,
          (s.requests q).all fun r => r.2.ended) = true := by decide
  obtain ⟨s, hrun, hs⟩ := Steps.of_execWhere_any hreplay
  obtain ⟨hkey, hanswered⟩ := of_decide_eq_true hs
  obtain ⟨key, hkey⟩ := Option.isSome_iff_exists.mp hkey
  have hidle : s.IdleOn key.rideId := by
    intro q call stage hreq _
    have hstage := hanswered q (served_of_known hrun hreq)
    rw [hreq, Option.all_some] at hstage
    cases stage with
    | answered outcome => exact ⟨outcome, rfl⟩
    | loading => cases hstage
    | updating => cases hstage
    | holding => cases hstage
  obtain ⟨ride, hrow, hdriver, _⟩ := (keys_point_at_owner hrun).1 2 key hkey hidle
  exact ⟨s, key, ride, hrun, hkey, hrow, hdriver⟩

end RideFlow
