import RideFlow.RideRequests

/-!
# Optimistic locking loses no update

`Ride.version` is the optimistic-concurrency column: each UPDATE matches one
version and increments it.  In terms of the row-lock store the version is a
rank that every update climbs by one, so the committed calls of
`apply_transition` on a ride consume the versions 1, 2, 3, .. one by one.

Nothing is assumed of the clients here: targets and expected versions are
arbitrary, requests may wait on each other's locks, roll back, fail at any
point, and take the matching branch with its two UPDATEs.
-/

namespace RideFlow

open RowLocks Trails Tables Runs

/-- The committed calls of `apply_transition` on a ride. -/
def RideState.committed (s : RideState) (r : RideId) : List Applied :=
  s.log.filter fun e => e.replaced.id = r

theorem mem_committed {s : RideState} {r : RideId} {e : Applied} :
    e ∈ s.committed r ↔ e ∈ s.log ∧ e.replaced.id = r := by
  simp [RideState.committed]

section Versions

variable {cfg : Settings} {ok : RideState → RideAction → Prop} {good : Applied → Prop}
  {s t : RideState} {acts more : List RideAction}

/-- The committed calls on a ride consume its versions in order, from 1. -/
theorem versions_consumed (hsound : Sound rideSchema Born good s.store) (r : RideId) :
    (s.committed r).map (fun e => e.replaced.version) =
      List.range' 1 (s.committed r).length :=
  hsound.ranks_consumed Ride.version (fun e _ => version_climbs e)
    (fun _ hborn => hborn.2.1) r

/-- The committed version counts the committed calls. -/
theorem version_counts (hsound : Sound rideSchema Born good s.store) {r : RideId}
    {ride : Ride} (hride : s.rides r = some ride) :
    ride.version = 1 + (s.committed r).length :=
  hsound.rank_row Ride.version (fun e _ => version_climbs e)
    (fun _ hborn => hborn.2.1) hride

/-- One version of one ride is consumed by one committed call. -/
theorem consumer_unique (hsound : Sound rideSchema Born good s.store) {e f : Applied}
    (he : e ∈ s.log) (hf : f ∈ s.log) (hride : e.replaced.id = f.replaced.id)
    (hversion : e.replaced.version = f.replaced.version) : e = f := by
  have hnodup : ((s.committed f.replaced.id).map fun g => g.replaced.version).Nodup := by
    rw [versions_consumed hsound]
    exact List.nodup_range'
  exact List.inj_on_of_nodup_map hnodup (mem_committed.mpr ⟨he, hride⟩)
    (mem_committed.mpr ⟨hf, rfl⟩) hversion

/-- Two requests answered 200 for one ride carried different versions. -/
theorem token_winner_unique (hsound : Sound rideSchema Born good s.store) (hbooks : Books s)
    {p q : ReqId} {callP callQ : TransitionCall} {rideP rideQ : Ride}
    (hp : s.requests p = some (callP, .answered (.ok rideP)))
    (hq : s.requests q = some (callQ, .answered (.ok rideQ)))
    (hride : callP.rideId = callQ.rideId)
    (hversion : callP.payload.expectedVersion = callQ.payload.expectedVersion) : p = q := by
  obtain ⟨e, he, rfl, hide, hexpe, _⟩ := hbooks.fine p callP _ hp
  obtain ⟨f, hf, rfl, hidf, hexpf, _⟩ := hbooks.fine q callQ _ hq
  have hids : e.replaced.id = f.replaced.id := by rw [hide, hidf, hride]
  have hversions : e.replaced.version = f.replaced.version := by
    have hve := e.spec.2.1
    have hvf := f.spec.2.1
    rw [hexpe] at hve
    rw [hexpf, ← hversion] at hvf
    omega
  rw [consumer_unique hsound he hf hids hversions]

/-- Committed versions never decrease along a run. -/
theorem version_le (h : Steps (rideSystem cfg) ok .init acts s)
    (hmore : Steps (rideSystem cfg) ok s more t) {r : RideId} {ride : Ride}
    (hride : s.rides r = some ride) :
    ∃ ride', t.rides r = some ride' ∧ ride.version ≤ ride'.version := by
  have hsound : Sound rideSchema Born anyUpdate t.store := (rides_sound (h.trans hmore)).1
  obtain ⟨ride', hride', hle⟩ := (rides_extend h hmore).rank_le Ride.version
    (fun e _ => version_climbs e) hsound hride
  refine ⟨ride', hride', ?_⟩
  rcases hle with rfl | hlt
  · exact Nat.le_refl _
  · exact Nat.le_of_lt hlt

/-- A request that carries another version than the stored one is rejected by
its UPDATE, and never commits afterwards. -/
theorem stale_commits_nothing (hbooks : Books s) {q : ReqId} {call : TransitionCall}
    {ride : Ride} (hreq : s.requests q = some (call, .updating ride))
    (hstale : ∀ row, s.rides ride.id = some row →
      (row.version : Int) ≠ call.payload.expectedVersion)
    (hstep : rideStep cfg s (.update q) = some t) :
    t.rides = s.rides ∧ t.outbox = s.outbox ∧ t.log = s.log ∧ (∀ e ∈ t.log, e.request ≠ q) ∧
      ∃ error, t.requests q = some (call, .answered (.rejected error)) := by
  obtain ⟨call', ride', hreq', ⟨e, _, rfl⟩ | ⟨done, hdone, _, _⟩⟩ := step_update hstep
  · obtain ⟨rfl, rfl⟩ : call' = call ∧ ride' = ride := by
      rw [hreq] at hreq'
      cases hreq'
      exact ⟨rfl, rfl⟩
    refine ⟨rfl, rfl, rfl, ?_, e.rejection, by simp [RideState.rollback]⟩
    intro f hf heq
    obtain ⟨_, _, hans, _⟩ := hbooks.logged f hf
    rw [heq, hreq] at hans
    cases hans
  · obtain ⟨hrow, _, _, _, _, hexpected, _⟩ := attemptTransition_ok hdone
    rw [hreq] at hreq'
    cases hreq'
    have hversion := done.spec.2.1
    rw [hexpected] at hversion
    exact absurd hversion (hstale _ hrow)

/-- A rejected request stays out of the log, and its COMMIT stays disabled. -/
theorem rejected_stays_out (h : Steps (rideSystem cfg) ok .init acts t) {q : ReqId}
    {call : TransitionCall} {error : Rejection}
    (hans : t.requests q = some (call, .answered (.rejected error)))
    {u : RideState} (hmore : Steps (rideSystem cfg) ok t more u) :
    (∀ e ∈ u.log, e.request ≠ q) ∧ rideStep cfg u (.commit q) = none := by
  have hstays := answered_stays hans hmore
  constructor
  · intro e he heq
    obtain ⟨_, _, hok, _⟩ := (books_kept (h.trans hmore)).logged e he
    rw [heq, hstays] at hok
    cases hok
  · cases hstep : rideStep cfg u (.commit q) with
    | none => rfl
    | some v =>
        obtain ⟨_, _, _, hreq, _⟩ := step_commit hstep
        rw [hstays] at hreq
        cases hreq

/-- **Optimistic locking loses no update.**  In every state that any
interleaving reaches:

* the committed calls of `apply_transition` on a ride consume pairwise
  different versions, and two requests for one ride that carry the same
  `expected_version` are never both answered 200;
* the committed version is 1 plus the number of committed calls, and it never
  decreases from here on;
* a request whose `expected_version` is not the stored version when its UPDATE
  runs is rejected there, leaves the rides and the outbox as they are, and
  commits nothing in any continuation. -/
theorem no_lost_update (h : Steps (rideSystem cfg) free .init acts s) :
    (∀ r, ((s.committed r).map fun e => e.replaced.version).Nodup) ∧
    (∀ p q callP callQ rideP rideQ,
      s.requests p = some (callP, .answered (.ok rideP)) →
      s.requests q = some (callQ, .answered (.ok rideQ)) →
      callP.rideId = callQ.rideId →
      callP.payload.expectedVersion = callQ.payload.expectedVersion → p = q) ∧
    (∀ r ride, s.rides r = some ride → ride.version = 1 + (s.committed r).length) ∧
    (∀ more t, Steps (rideSystem cfg) free s more t → ∀ r ride, s.rides r = some ride →
      ∃ ride', t.rides r = some ride' ∧ ride.version ≤ ride'.version) ∧
    s.outbox = s.log.map Applied.event ∧
    (∀ q call ride t, s.requests q = some (call, .updating ride) →
      (∀ row, s.rides ride.id = some row →
        (row.version : Int) ≠ call.payload.expectedVersion) →
      rideStep cfg s (.update q) = some t →
      t.rides = s.rides ∧ t.outbox = s.outbox ∧
        ∀ more u, Steps (rideSystem cfg) free t more u →
          (∀ e ∈ u.log, e.request ≠ q) ∧ rideStep cfg u (.commit q) = none) := by
  have hsound := (rides_sound h).1
  have hbooks := books_kept h
  refine ⟨?_, ?_, ?_, ?_, hbooks.outbox, ?_⟩
  · intro r
    rw [versions_consumed hsound]
    exact List.nodup_range'
  · intro p q callP callQ rideP rideQ hp hq hride hversion
    exact token_winner_unique hsound hbooks hp hq hride hversion
  · intro r ride hride
    exact version_counts hsound hride
  · intro more t hmore r ride hride
    exact version_le h hmore hride
  · intro q call ride t hreq hstale hstep
    obtain ⟨hrides, houtbox, _, _, error, hans⟩ :=
      stale_commits_nothing hbooks hreq hstale hstep
    refine ⟨hrides, houtbox, ?_⟩
    intro more u hmore
    have hreach : Steps (rideSystem cfg) free .init (acts ++ [.update q]) t :=
      h.snoc trivial hstep
    exact rejected_stays_out hreach hans hmore

end Versions

/-- Two cancellations of one ride, both read at version 1; the second UPDATE
comes after the first commit. -/
def racingCancellations : List RideAction :=
  [.create 0 (sampleUser 1 .passenger) sampleBody sampleFare none,
    .begin 0 (sampleUser 1 .passenger) 0 ⟨.cancelled, 1⟩,
    .begin 1 (sampleUser 2 .admin) 0 ⟨.cancelled, 1⟩,
    .read 0, .read 1, .update 0, .commit 0, .update 1]

theorem racing_cancellations_lose_nothing : ∃ s ride,
    Steps (rideSystem {}) free .init racingCancellations s ∧ s.rides 0 = some ride ∧
      ride.version = 1 + (s.committed 0).length := by
  have hrun : (exec (rideSystem {}) .init racingCancellations).any
      (fun s => (s.rides 0).isSome) = true := by decide
  obtain ⟨s, hs, hride⟩ := Steps.of_exec_any hrun
  obtain ⟨ride, hride⟩ := Option.isSome_iff_exists.mp hride
  have hcounts := (no_lost_update hs).2.2.1
  exact ⟨s, ride, hs, hride, hcounts 0 ride hride⟩

end RideFlow
