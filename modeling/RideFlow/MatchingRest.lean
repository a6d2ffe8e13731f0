import RideFlow.DriverAssignment
import RideFlow.MatchingBranch

/-!
# Rides that rest in MATCHING

`transition_ride` searches for a driver when the ride that it has read is in
REQUESTED.  A ride in NO_DRIVERS_FOUND may go back to MATCHING too, but then the
request only writes the status and is answered with it.

* `Working` -- what a request that has updated its ride has done so far, kept by
  every step of every run;
* `no_ride_rests_in_matching` -- no ride rests in MATCHING, and every request for
  it searches, as long as no request that has read its ride in NO_DRIVERS_FOUND
  commits MATCHING; and only then;
* `retry_rests_in_matching` -- a retry that is answered with MATCHING.
-/

namespace RideFlow

open Function Runs Tables

/-- The request has searched for drivers. -/
def Searched (acts : List RideAction) (q : ReqId) : Prop :=
  ∃ candidates, .search q candidates ∈ acts

/-- At some moment of the run the request has set the key of the driver, whom
nobody had reserved, to this ride. -/
def Reserved (cfg : Settings) (acts : List RideAction) (q : ReqId) (d : UserId)
    (rideId : RideId) : Prop :=
  ∃ front back mid next, acts = front ++ .reserve q :: back ∧
    Steps (rideSystem cfg) free .init front mid ∧ rideStep cfg mid (.reserve q) = some next ∧
    mid.reservations d = none ∧ (next.reservations d).map Reservation.rideId = some rideId

/-- The answer to a search: ACCEPTED with a driver that was reserved, or
NO_DRIVERS_FOUND. -/
def Resolved (cfg : Settings) (acts : List RideAction) (q : ReqId) (ride : Ride) : Prop :=
  Searched acts q ∧
    ((ride.status = .accepted ∧ ∃ d, ride.driverId = some d ∧ Reserved cfg acts q d ride.id) ∨
      ride.status = .noDriversFound)

/-- What is wanted of a state: no ride rests in MATCHING, and every request for
it has resolved its ride. -/
structure MatchingResolved (cfg : Settings) (acts : List RideAction) (s : RideState) : Prop where
  rests : ∀ r ride, s.rides r = some ride → ride.status ≠ .matching
  answers : ∀ q call ride, s.requests q = some (call, .answered (.ok ride)) →
    call.payload.targetStatus = .matching → Resolved cfg acts q ride

/-- The action is not the COMMIT of MATCHING by a request that has read its ride
in NO_DRIVERS_FOUND. -/
def commitsNoRetry (s : RideState) : RideAction → Bool
  | .commit q =>
      match s.requests q with
      | some (call, .holding _ (first :: _) .commit) =>
          !(call.payload.targetStatus = .matching ∧ first.checked.status = .noDriversFound)
      | _ => true
  | _ => true

/-- What a request has done by the time it has this to do: it has read its ride
in REQUESTED and is on its way through the search, or it does not search. -/
inductive Working (cfg : Settings) (acts : List RideAction) (q : ReqId)
    (call : TransitionCall) (ride : Ride) : List Applied → Todo → Prop
  | search {first : Applied} (hfirst : first.checked.status = .requested) :
      Working cfg acts q call ride [first] .search
  | reserve {first : Applied} {candidates : List UserId}
      (hfirst : first.checked.status = .requested) (hsearched : Searched acts q) :
      Working cfg acts q call ride [first] (.reserve candidates)
  | resolve {first : Applied} {driverId : Option UserId}
      (hfirst : first.checked.status = .requested) (hsearched : Searched acts q)
      (hreserved : ∀ d, driverId = some d → Reserved cfg acts q d ride.id) :
      Working cfg acts q call ride [first] (.resolve driverId)
  | resolved {first second : Applied} (hfirst : first.checked.status = .requested)
      (hresolved : Resolved cfg acts q ride) :
      Working cfg acts q call ride [first, second] .commit
  | plain {first : Applied} {todo : Todo} (hstatus : ride.status = call.payload.targetStatus)
      (hretry : ride.status = .matching → first.checked.status = .noDriversFound)
      (htodo : todo = .getKey ∨ todo = .deleteKey ∨ todo = .commit) :
      Working cfg acts q call ride [first] todo

/-- Every request that has updated its ride is working. -/
def AllWorking (cfg : Settings) (acts : List RideAction) (s : RideState) : Prop :=
  ∀ q call ride pending todo, s.requests q = some (call, .holding ride pending todo) →
    Working cfg acts q call ride pending todo

section Longer

variable {cfg : Settings} {acts : List RideAction} {q : ReqId} {ride : Ride}

theorem Searched.longer (more : List RideAction) (h : Searched acts q) :
    Searched (acts ++ more) q := by
  obtain ⟨candidates, hmem⟩ := h
  exact ⟨candidates, List.mem_append_left _ hmem⟩

theorem Reserved.longer (more : List RideAction) {d : UserId} {rideId : RideId}
    (h : Reserved cfg acts q d rideId) : Reserved cfg (acts ++ more) q d rideId := by
  obtain ⟨front, back, mid, next, rfl, hmoment⟩ := h
  exact ⟨front, back ++ more, mid, next, by simp, hmoment⟩

theorem Resolved.longer (more : List RideAction) (h : Resolved cfg acts q ride) :
    Resolved cfg (acts ++ more) q ride := by
  obtain ⟨hsearched, hanswer⟩ := h
  refine ⟨hsearched.longer more, ?_⟩
  rcases hanswer with ⟨haccepted, d, hdriver, hreserved⟩ | hnone
  · exact Or.inl ⟨haccepted, d, hdriver, hreserved.longer more⟩
  · exact Or.inr hnone

/-- What a request has done, it has done in a longer run too. -/
theorem Working.longer (more : List RideAction) {call : TransitionCall} {pending : List Applied}
    {todo : Todo} (h : Working cfg acts q call ride pending todo) :
    Working cfg (acts ++ more) q call ride pending todo := by
  cases h with
  | search hfirst => exact .search hfirst
  | reserve hfirst hsearched => exact .reserve hfirst (hsearched.longer more)
  | resolve hfirst hsearched hreserved =>
      exact .resolve hfirst (hsearched.longer more) fun d hd => (hreserved d hd).longer more
  | resolved hfirst hresolved => exact .resolved hfirst (hresolved.longer more)
  | plain hstatus hretry htodo => exact .plain hstatus hretry htodo

end Longer

/-- A ride goes to MATCHING for the first time or again. -/
theorem matching_from {status : RideStatus} (h : .matching ∈ rideTransitions status) :
    status = .requested ∨ status = .noDriversFound := by
  cases status <;> simp_all [rideTransitions]

section Steps

variable {cfg : Settings} {acts : List RideAction} {s t : RideState} {a : RideAction} {q : ReqId}
  {call : TransitionCall} {ride : Ride} {pending : List Applied}

/-- The request that a step serves is working after it, and the others still are. -/
theorem AllWorking.move {stage : Stage} (h : AllWorking cfg acts s)
    (hreqs : t.requests = update s.requests q (some (call, stage)))
    (hmine : ∀ ride pending todo, stage = .holding ride pending todo →
      Working cfg (acts ++ [a]) q call ride pending todo) : AllWorking cfg (acts ++ [a]) t :=
  holding_moved (fun p call ride pending todo hp => (h p call ride pending todo hp).longer [a])
    hreqs hmine

/-- The first UPDATE decides the way. -/
theorem working_update {done : Applied}
    (hdone : attemptTransition q s.effects (s.rides ride.id) ride call.payload.targetStatus
      call.payload.expectedVersion none call.startedAt = .ok done) :
    Working cfg acts q call done.written [done]
      (afterUpdate call.payload ride done.written) := by
  obtain ⟨_, _, _, hchecked, htarget, _⟩ := attemptTransition_ok hdone
  obtain ⟨hlegal, _, hwritten, _⟩ := done.spec
  have hstatus : done.written.status = call.payload.targetStatus := by
    rw [hwritten, Ride.set_status, htarget]
  unfold afterUpdate
  split
  case isTrue hsearch =>
      have hrequested : ride.status = .requested := (of_decide_eq_true hsearch).2
      exact .search (hchecked ▸ hrequested)
  case isFalse hplain =>
      have hretry : done.written.status = .matching → done.checked.status = .noDriversFound := by
        intro hmatching
        have htomatching : call.payload.targetStatus = .matching := hstatus.symm.trans hmatching
        rw [htarget, htomatching] at hlegal
        rcases matching_from hlegal with hrequested | hagain
        · rw [hchecked] at hrequested
          exact absurd (decide_eq_true ⟨htomatching, hrequested⟩) hplain
        · exact hagain
      split
      case isTrue => exact .plain hstatus hretry (by simp)
      case isFalse => exact .plain hstatus hretry (by simp)

/-- The second one resolves the ride with the driver that was reserved. -/
theorem working_resolve {driverId : Option UserId} {done : Applied} {n : Nat}
    (h : Working cfg acts q call ride pending (.resolve driverId))
    (hdone : attemptTransition q n (some ride) ride (resolution driverId).1 ride.version
      (resolution driverId).2 call.startedAt = .ok done) :
    Working cfg acts q call done.written (pending ++ [done]) .commit := by
  obtain ⟨hstored, _, _, _, htarget, _, hextra, _⟩ := attemptTransition_ok hdone
  have hreplaced : ride = done.replaced := Option.some.inj hstored
  obtain ⟨_, _, hwritten, _⟩ := done.spec
  have hid : done.written.id = ride.id := by rw [hwritten, Ride.set_id, hreplaced]
  have hstatus : done.written.status = (resolution driverId).1 := by
    rw [hwritten, Ride.set_status, htarget]
  cases h with
  | resolve hfirst hsearched hreserved =>
      refine .resolved hfirst ⟨hsearched, ?_⟩
      cases driverId with
      | none => exact Or.inr hstatus
      | some d =>
          have hdriver : done.written.driverId = some d := by
            rw [hwritten, hextra]
            rfl
          exact Or.inl ⟨hstatus, d, hdriver, hid ▸ hreserved d rfl⟩
  | plain _ _ htodo => simp at htodo

/-- The SET NX of the next candidate. -/
theorem working_reserve (hrun : Steps (rideSystem cfg) free .init acts s)
    (h : AllWorking cfg acts s) (hstep : rideStep cfg s (.reserve q) = some t) :
    AllWorking cfg (acts ++ [.reserve q]) t := by
  obtain ⟨call, ride, pending, candidates, hreq, hcases⟩ := step_reserve hstep
  cases h q call ride pending _ hreq with
  | reserve hfirst hsearched =>
      have hstill := hsearched.longer [.reserve q]
      rcases hcases with ⟨_, rfl⟩ | ⟨d, rest, _, _, rfl⟩ | ⟨d, rest, _, hfree, rfl⟩
      · refine h.move rfl fun _ _ _ hstage => ?_
        cases hstage
        exact .resolve hfirst hstill fun d hd => by cases hd
      · refine h.move rfl fun _ _ _ hstage => ?_
        cases hstage
        exact .reserve hfirst hstill
      · refine h.move rfl fun _ _ _ hstage => ?_
        cases hstage
        refine .resolve hfirst hstill fun d' hd => ?_
        obtain rfl := Option.some.inj hd
        exact ⟨acts, [], s, _, rfl, hrun, hstep, hfree, by simp⟩
  | plain _ _ htodo => simp at htodo

/-- **Every step keeps every request working.** -/
theorem step_working (hrun : Steps (rideSystem cfg) free .init acts s)
    (h : AllWorking cfg acts s) (hstep : rideStep cfg s a = some t) :
    AllWorking cfg (acts ++ [a]) t := by
  cases a with
  | create id user payload fare key =>
      obtain ⟨_, _, rfl⟩ := step_create hstep
      exact fun p call ride pending todo hp => (h p call ride pending todo hp).longer _
  | begin q user rideId payload =>
      obtain ⟨_, rfl⟩ := step_begin hstep
      exact h.move rfl fun _ _ _ hstage => by cases hstage
  | read q =>
      obtain ⟨call, _, ⟨e, rfl⟩ | ⟨ride, _, _, rfl⟩⟩ := step_read hstep
      · exact h.move rfl fun _ _ _ hstage => by cases hstage
      · exact h.move rfl fun _ _ _ hstage => by cases hstage
  | update q =>
      obtain ⟨call, ride, _, ⟨e, _, rfl⟩ | ⟨done, hdone, _, rfl⟩⟩ := step_update hstep
      · exact h.move rfl fun _ _ _ hstage => by cases hstage
      · refine h.move rfl fun _ _ _ hstage => ?_
        cases hstage
        exact working_update hdone
  | search q candidates =>
      obtain ⟨call, ride, pending, hreq, rfl⟩ := step_search hstep
      refine h.move rfl fun _ _ _ hstage => ?_
      cases hstage
      cases h q call ride pending _ hreq with
      | search hfirst => exact .reserve hfirst ⟨candidates, by simp⟩
      | plain _ _ htodo => simp at htodo
  | reserve q => exact working_reserve hrun h hstep
  | resolve q =>
      obtain ⟨call, ride, pending, driverId, hreq, ⟨e, _, rfl⟩ | ⟨done, hdone, rfl⟩⟩ :=
        step_resolve hstep
      · exact h.move rfl fun _ _ _ hstage => by cases hstage
      · refine h.move rfl fun _ _ _ hstage => ?_
        cases hstage
        exact working_resolve ((h q call ride pending _ hreq).longer _) hdone
  | getKey q =>
      obtain ⟨call, ride, pending, d, hreq, _, ⟨_, rfl⟩ | ⟨_, rfl⟩⟩ := step_getKey hstep
      all_goals
        refine h.move rfl fun _ _ _ hstage => ?_
        cases hstage
        cases h q call ride pending _ hreq with
        | plain hstatus hretry _ => exact .plain hstatus hretry (by simp)
  | deleteKey q =>
      obtain ⟨call, ride, pending, d, hreq, _, rfl⟩ := step_deleteKey hstep
      refine h.move rfl fun _ _ _ hstage => ?_
      cases hstage
      cases h q call ride pending _ hreq with
      | plain hstatus hretry _ => exact .plain hstatus hretry (by simp)
  | commit q =>
      obtain ⟨call, ride, pending, _, rfl⟩ := step_commit hstep
      exact h.move rfl fun _ _ _ hstage => by cases hstage
  | abort q =>
      obtain ⟨call, stage, _, _, rfl⟩ := step_abort hstep
      exact h.move rfl fun _ _ _ hstage => by cases hstage
  | expire d =>
      obtain ⟨key, _, _, rfl⟩ := step_expire hstep
      exact fun p call ride pending todo hp => (h p call ride pending todo hp).longer _
  | advance seconds =>
      obtain rfl := step_advance hstep
      exact fun p call ride pending todo hp => (h p call ride pending todo hp).longer _

/-- Every run keeps every request working. -/
theorem working_kept {ok : RideState → RideAction → Prop}
    (h : Steps (rideSystem cfg) ok .init acts s) : AllWorking cfg acts s := by
  refine h.history (AllWorking cfg) ?_ ?_
  · intro q call ride pending todo hreq
    cases hreq
  · intro acts u a v hrun hworking _ hstep
    exact step_working (hrun.mono fun _ _ _ => trivial) hworking hstep

/-- What an admitted COMMIT publishes is resolved, or was not to be matched. -/
theorem commit_resolved (h : AllWorking cfg acts s)
    (hreq : s.requests q = some (call, .holding ride pending .commit))
    (hok : commitsNoRetry s (.commit q) = true) :
    ride.status ≠ .matching ∧
      (call.payload.targetStatus = .matching → Resolved cfg acts q ride) := by
  cases h q call ride pending _ hreq with
  | resolved _ hresolved =>
      refine ⟨?_, fun _ => hresolved⟩
      rcases hresolved.2 with ⟨haccepted, _⟩ | hnone
      · rw [haccepted]
        decide
      · rw [hnone]
        decide
  | plain hstatus hretry _ =>
      have hnot : ride.status ≠ .matching := by
        intro hmatching
        have htarget : call.payload.targetStatus = .matching := hstatus.symm.trans hmatching
        simp [commitsNoRetry, hreq, htarget, hretry hmatching] at hok
      exact ⟨hnot, fun htarget => absurd (hstatus.trans htarget) hnot⟩

/-- A COMMIT that is not admitted leaves its ride in MATCHING. -/
theorem retry_commits_matching (h : AllWorking cfg acts s)
    (hbad : ¬ commitsNoRetry s a = true) (hstep : rideStep cfg s a = some t) :
    ∃ r ride, t.rides r = some ride ∧ ride.status = .matching := by
  cases a with
  | commit q =>
      obtain ⟨call, ride, pending, hreq, rfl⟩ := step_commit hstep
      refine ⟨ride.id, ride, update_self .., ?_⟩
      cases h q call ride pending _ hreq with
      | resolved hfirst _ => simp [commitsNoRetry, hreq, hfirst] at hbad
      | plain hstatus _ _ =>
          simp only [commitsNoRetry, hreq, Bool.not_eq_true', Bool.not_eq_false,
            decide_eq_true_eq] at hbad
          exact hstatus.trans hbad.1
  | _ => exact absurd rfl hbad

theorem step_matchingResolved (hworking : AllWorking cfg acts s)
    (h : MatchingResolved cfg acts s) (hok : commitsNoRetry s a = true)
    (hstep : rideStep cfg s a = some t) : MatchingResolved cfg (acts ++ [a]) t where
  rests := by
    intro r ride hride
    rcases step_effects hstep with ⟨_, hsame, _⟩ | ⟨new, _, _, hborn, rfl⟩ |
      ⟨q, call, written, pending, rfl, hreq, rfl⟩
    · exact h.rests r ride (hsame ▸ hride)
    · rcases update_some_iff.mp hride with ⟨_, rfl⟩ | ⟨_, hold⟩
      · rw [hborn.1]
        decide
      · exact h.rests r ride hold
    · rcases update_some_iff.mp hride with ⟨_, rfl⟩ | ⟨_, hold⟩
      · exact (commit_resolved hworking hreq hok).1
      · exact h.rests r ride hold
  answers := by
    intro q call ride hans htarget
    rcases stage_origin hans hstep with hold | ⟨before, hbefore, hadvances⟩
    · exact (h.answers q call ride hold htarget).longer _
    · cases hadvances with
      | commit => exact ((commit_resolved hworking hbefore hok).2 htarget).longer _
      | fail _ _ houtcome => exact absurd rfl (houtcome _)

/-- **When no ride rests in MATCHING.**  In a run of ride requests, no ride is
ever in MATCHING, and every request for it that was answered 200 has searched
and was answered with ACCEPTED and a driver that it has reserved, or with
NO_DRIVERS_FOUND, if and only if no request that has read its ride in
NO_DRIVERS_FOUND commits MATCHING. -/
theorem no_ride_rests_in_matching (h : Steps (rideSystem cfg) free .init acts s) :
    (∀ front back mid, acts = front ++ back → Steps (rideSystem cfg) free .init front mid →
      MatchingResolved cfg front mid) ↔
    Steps (rideSystem cfg) (fun s a => commitsNoRetry s a) .init acts s := by
  refine h.always_iff (MatchingResolved cfg) ?_ ?_
  · intro front mid hrun
    refine hrun.history (MatchingResolved cfg) ⟨?_, ?_⟩ ?_
    · intro r ride hride
      cases hride
    · intro q call ride hans
      cases hans
    · intro acts u a v hfront hresolved hok hstep
      exact step_matchingResolved (working_kept hfront) hresolved hok hstep
  · intro front mid a next hrun hbad hstep hresolved
    obtain ⟨r, ride, hride, hmatching⟩ := retry_commits_matching (working_kept hrun) hbad hstep
    exact hresolved.rests r ride hride hmatching

end Steps

/-- No driver is found for ride 0, and a retry names an old version; driver 2 is
found for ride 1. -/
def searchTwice : List RideAction :=
  [.create 0 (sampleUser 1 .passenger) sampleBody sampleFare none,
    .begin 0 (sampleUser 1 .passenger) 0 ⟨.matching, 1⟩,
    .read 0, .update 0, .search 0 [], .reserve 0, .resolve 0, .commit 0,
    .begin 1 (sampleUser 1 .passenger) 0 ⟨.matching, 2⟩, .read 1, .update 1,
    .create 1 (sampleUser 1 .passenger) sampleBody sampleFare none,
    .begin 2 (sampleUser 1 .passenger) 1 ⟨.matching, 1⟩,
    .read 2, .update 2, .search 2 [2], .reserve 2, .resolve 2, .commit 2]

/-- Neither of them rests in MATCHING. -/
theorem searched_rides_resolved : ∃ s,
    Steps (rideSystem {}) free .init searchTwice s ∧
    ((s.rides 0).any fun ride => ride.status = .noDriversFound) ∧
    ((s.rides 1).any fun ride => ride.status = .accepted) ∧
    ∀ front back mid, searchTwice = front ++ back → Steps (rideSystem {}) free .init front mid →
      MatchingResolved {} front mid := by
  have hreplay : (execWhere (rideSystem {}) (fun s a => commitsNoRetry s a) .init searchTwice).any
      (fun s => ((s.rides 0).any fun ride => ride.status = .noDriversFound) &&
        (s.rides 1).any fun ride => ride.status = .accepted) = true := by decide
  obtain ⟨s, hrun, hs⟩ := Steps.of_execWhere_any hreplay
  obtain ⟨hnone, haccepted⟩ := Bool.and_eq_true_iff.mp hs
  have hfree : Steps (rideSystem {}) free .init searchTwice s := hrun.mono fun _ _ _ => trivial
  exact ⟨s, hfree, hnone, haccepted, (no_ride_rests_in_matching hfree).mpr hrun⟩

/-- **A retry rests in MATCHING.**  No driver is found, the passenger tries
again, and is answered with MATCHING. -/
theorem retry_rests_in_matching :
    ¬ ∀ (cfg : Settings) (acts : List RideAction) (s : RideState),
      Steps (rideSystem cfg) free .init acts s → MatchingResolved cfg acts s := by
  intro hclaim
  have hreplay : (exec (rideSystem {}) .init (acceptByHand.take 12)).any
      (fun s => (s.rides 0).any fun ride => ride.status = .matching) = true := by decide
  obtain ⟨s, hrun, hs⟩ := Steps.of_exec_any hreplay
  obtain ⟨ride, hride, hmatching⟩ := (Option.any_eq_true _ _).mp hs
  exact (hclaim {} _ s hrun).rests 0 ride hride (of_decide_eq_true hmatching)

end RideFlow
