import RideFlow.OptimisticLocking

/-!
# Legality of committed status changes

`apply_transition` checks the target against the status of the ride that the
handler read, and then lets the UPDATE match whatever row is stored at the
version that the client named.  The row replaced is the row checked only if
nothing happened in between or the named version is not ahead of the one read.

* `completed_ride_is_cancelled` -- a client that names a future version turns a
  completed ride into a cancelled one;
* `committed_changes_legal` -- in every run in which no UPDATE matches a row
  that has left the checked status, committed rides move along the edges of
  `rideTransitions` only, and a ride at rest stays as it is.
-/

namespace RideFlow

open RowLocks Trails Runs

/-- From `s` to `t` every committed ride moved along legal edges, each one
leaving the status stored in the row that the UPDATE replaced; a completed or
cancelled ride did not move. -/
def LegalChanges (s t : RideState) : Prop :=
  ∀ r old, s.rides r = some old →
    ∃ new es, t.rides r = some new ∧ t.committed r = s.committed r ++ es ∧
      IsTrail Applied.replaced Applied.written old es new ∧
      (∀ e ∈ es, e.written.status ∈ rideTransitions e.replaced.status) ∧
      (old.status.Terminal → new.status = old.status)

/-- The row that an UPDATE is about to replace still has the status that its
handler checked. -/
def rowAsChecked (s : RideState) : RideAction → Bool
  | .update q =>
      match s.requests q with
      | some (call, .updating ride) =>
          (s.rides ride.id).all fun row =>
            decide ((row.version : Int) = call.payload.expectedVersion →
              row.status = ride.status)
      | _ => true
  | _ => true

/-- An applied transition whose row had the checked status. -/
def CheckedStatus (e : Applied) : Prop := e.checked.status = e.replaced.status

/-- Such a transition follows an edge of the table. -/
theorem CheckedStatus.legal {e : Applied} (h : CheckedStatus e) :
    e.written.status ∈ rideTransitions e.replaced.status := by
  obtain ⟨hlegal, _, hwritten, _⟩ := e.spec
  rw [hwritten, Ride.set_status, ← h]
  exact hlegal

/-- A trail of legal changes that leaves a row at rest is empty. -/
theorem rest_stays {old new : Ride} {es : List Applied}
    (htrail : IsTrail Applied.replaced Applied.written old es new)
    (hlegal : ∀ e ∈ es, e.written.status ∈ rideTransitions e.replaced.status)
    (hrest : old.status.Terminal) : new = old := by
  cases es with
  | nil => exact htrail.symm
  | cons e es =>
      have hfirst := hlegal e List.mem_cons_self
      rw [htrail.1, hrest] at hfirst
      cases hfirst

section Runs

variable {cfg : Settings} {s t : RideState} {acts more : List RideAction}

/-- An UPDATE of a row as checked makes a transition of the checked status. -/
theorem adds_checked {a : RideAction} {e : Applied} (hok : rowAsChecked s a = true)
    (h : Adds s a e) : CheckedStatus e := by
  cases h with
  | @first q call ride _ hreq hrow _ hchecked _ hexpected _ =>
      have hversion := e.spec.2.1
      rw [hexpected] at hversion
      have hsame : e.replaced.status = ride.status := by
        simp only [rowAsChecked, hreq, hrow, Option.all_some, decide_eq_true_eq] at hok
        exact hok hversion
      rw [CheckedStatus, hchecked, hsame]
  | second _ _ hchecked hrow _ _ => rw [CheckedStatus, hchecked, hrow]

/-- The log of such a run. -/
theorem log_checked (h : Steps (rideSystem cfg) (fun s a => rowAsChecked s a) .init acts s) :
    ∀ e ∈ s.log, CheckedStatus e := by
  obtain ⟨hsound, _, _⟩ := rides_sound_under (fun _ => True)
    (fun _ _ _ _ _ _ _ => trivial) (fun _ _ _ _ _ hok hadds => adds_checked hok hadds)
    trivial h
  exact hsound.log_good

/-- **Committed status changes are legal.**  Take any run in which no UPDATE
matches a row that has left the status its handler checked.  Between any two
of its states every committed ride moved along edges of `rideTransitions`, and
a completed or cancelled ride kept its status. -/
theorem committed_changes_legal
    (h : Steps (rideSystem cfg) (fun s a => rowAsChecked s a) .init acts s)
    (hmore : Steps (rideSystem cfg) (fun s a => rowAsChecked s a) s more t) :
    LegalChanges s t := by
  intro r old hold
  obtain ⟨new, es, hnew, hlog, htrail⟩ := rides_extend h hmore r old hold
  have hlegal : ∀ e ∈ es, e.written.status ∈ rideTransitions e.replaced.status := by
    intro e he
    have hmem : e ∈ logOf rideSchema t.store r := hlog ▸ List.mem_append_right _ he
    exact (log_checked (h.trans hmore) e (mem_logOf.mp hmem).1).legal
  refine ⟨new, es, hnew, hlog, htrail, hlegal, ?_⟩
  intro hrest
  rw [rest_stays htrail hlegal hrest]

end Runs

/-- Ride 0 is matched with driver 2 and driven to its end at version 6. -/
def driveToCompletion : List RideAction :=
  [.begin 0 (sampleUser 1 .passenger) 0 ⟨.matching, 1⟩,
    .read 0, .update 0, .search 0 [2], .reserve 0, .resolve 0, .commit 0,
    .begin 1 (sampleUser 2 .driver) 0 ⟨.driverArriving, 3⟩, .read 1, .update 1, .commit 1,
    .begin 2 (sampleUser 2 .driver) 0 ⟨.inProgress, 4⟩, .read 2, .update 2, .commit 2,
    .begin 3 (sampleUser 2 .driver) 0 ⟨.completed, 5⟩, .read 3, .update 3, .commit 3]

/-- Passenger 1 requests ride 0 and at once asks to cancel it with
`expected_version` 6; that request has read the ride. -/
def cancelAhead : List RideAction :=
  [.create 0 (sampleUser 1 .passenger) sampleBody sampleFare none,
    .begin 9 (sampleUser 1 .passenger) 0 ⟨.cancelled, 6⟩, .read 9]

/-- While the early cancellation has not reached its UPDATE, all is legal. -/
theorem drive_to_completion_legal : ∃ s t,
    Steps (rideSystem {}) (fun s a => rowAsChecked s a) .init cancelAhead s ∧
    Steps (rideSystem {}) (fun s a => rowAsChecked s a) s driveToCompletion t ∧
    (t.rides 0).any (fun ride => ride.status = .completed) ∧ LegalChanges s t := by
  have hreplay : (execWhere (rideSystem {}) (fun s a => rowAsChecked s a) .init
      (cancelAhead ++ driveToCompletion)).any
      (fun t => (t.rides 0).any fun ride => ride.status = .completed) = true := by decide
  obtain ⟨t, hrun, hend⟩ := Steps.of_execWhere_any hreplay
  obtain ⟨s, hfirst, hmore⟩ := hrun.split
  exact ⟨s, t, hfirst, hmore, hend, committed_changes_legal hfirst hmore⟩

/-- **A completed ride is cancelled.**  The UPDATE of the early cancellation
finds the version it named, and replaces the completed ride. -/
theorem completed_ride_is_cancelled :
    ¬ ∀ (cfg : Settings) (acts more : List RideAction) (s t : RideState),
      Steps (rideSystem cfg) free .init acts s → Steps (rideSystem cfg) free s more t →
        LegalChanges s t := by
  intro hclaim
  have hreplay : (exec (rideSystem {}) .init
      (cancelAhead ++ driveToCompletion)).any
      (fun s => ((s.rides 0).any fun ride => ride.status = .completed) &&
        (exec (rideSystem {}) s [.update 9, .getKey 9, .deleteKey 9, .commit 9]).any fun t =>
          (t.rides 0).any fun ride => ride.status = .cancelled) = true := by decide
  obtain ⟨s, hrun, hs⟩ := Steps.of_exec_any hreplay
  obtain ⟨hcompleted, hlate⟩ := Bool.and_eq_true_iff.mp hs
  obtain ⟨t, hmore, hcancelled⟩ := Steps.of_exec_any hlate
  obtain ⟨old, hold, hcompleted⟩ := (Option.any_eq_true _ _).mp hcompleted
  obtain ⟨new', hnew', hcancelled⟩ := (Option.any_eq_true _ _).mp hcancelled
  obtain ⟨new, _, hnew, _, _, _, hrest⟩ := hclaim {} _ _ s t hrun hmore 0 old hold
  obtain rfl : new = new' := Option.some.inj (hnew.symm.trans hnew')
  have hold : old.status = .completed := of_decide_eq_true hcompleted
  have hnew : new.status = .cancelled := of_decide_eq_true hcancelled
  have hsame := hrest (terminal_iff.mpr (Or.inl hold))
  rw [hold, hnew] at hsame
  cases hsame

end RideFlow
