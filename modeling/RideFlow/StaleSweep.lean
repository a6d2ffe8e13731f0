import RideFlow.GhostDrivers

/-!
# What the sweep evicts

The sweep decides on the rows of its SELECT, which takes no lock, and writes
them at its COMMIT, after one ZREM for each driver.  A heartbeat that commits
in between is not seen: the driver is taken out of the pool and marked
unavailable right after having reported.

`spares` admits the runs without such a heartbeat, and there
`evicted_drivers_stale` holds: whoever a sweep clears has a committed heartbeat
older than its cutoff when it commits.
-/

namespace RideFlow

open Function Runs

/-- The committed heartbeat of the driver is older than the cutoff of a sweep
that began at `now`. -/
def DriverStore.overdue (st : DriverStore) (cfg : Settings) (now : Timestamp) (d : UserId) :
    Bool :=
  (st.profiles d).any fun profile => profile.lastHeartbeatAt.any fun at_ =>
    at_ + cfg.driverStaleAfterSeconds < now

/-- A request does not commit a new heartbeat for a driver whom a sweep that is
under way has selected, unless that heartbeat is itself older than the cutoff
of the sweep. -/
def spares (cfg : Settings) (s : DriverState) : DriverAction → Bool
  | .commit q =>
      match s.requests q with
      | some (call, .committing loaded changed _) =>
          changed.lastHeartbeatAt = loaded.lastHeartbeatAt ||
            s.sweepsBegun.all fun c =>
              match s.sweeps c with
              | some (.sweeping now todo evicted) =>
                  (call.user.id ∉ todo ∧ call.user.id ∉ evicted) ||
                    changed.lastHeartbeatAt.any fun at_ =>
                      at_ + cfg.driverStaleAfterSeconds < now
              | _ => true
      | _ => true
  | _ => true

/-- Whoever a sweep has selected is overdue for it. -/
def SelectedOverdue (cfg : Settings) (s : DriverState) : Prop :=
  ∀ c now todo evicted, s.sweeps c = some (.sweeping now todo evicted) →
    ∀ d, d ∈ todo ∨ d ∈ evicted → s.store.overdue cfg now d = true

section Steps

variable {cfg : Settings} {s t : DriverState} {c : SweepId} {d : UserId} {now : Timestamp}

theorem overdue_of_isStale {st : DriverStore} (h : st.isStale cfg now d = true) :
    st.overdue cfg now d = true := by
  obtain ⟨profile, hrow, hstale⟩ := (Option.any_eq_true _ _).mp h
  exact (Option.any_eq_true _ _).mpr ⟨profile, hrow, (Bool.and_eq_true_iff.mp hstale).2⟩

/-- Rows whose heartbeats stay leave the overdue overdue. -/
theorem SelectedOverdue.keep (h : SelectedOverdue cfg s) (hsweeps : t.sweeps = s.sweeps)
    (hrows : ∀ c now todo evicted d, s.sweeps c = some (.sweeping now todo evicted) →
      d ∈ todo ∨ d ∈ evicted → s.store.overdue cfg now d = true →
      t.store.overdue cfg now d = true) : SelectedOverdue cfg t := by
  intro c now todo evicted hc d hd
  rw [hsweeps] at hc
  exact hrows c now todo evicted d hc hd (h c now todo evicted hc d hd)

/-- A sweep moves on; what it holds from now on is overdue. -/
theorem SelectedOverdue.move (h : SelectedOverdue cfg s) {stage : SweepStage}
    (hsweeps : t.sweeps = update s.sweeps c (some stage))
    (hrows : ∀ now d, s.store.overdue cfg now d = true → t.store.overdue cfg now d = true)
    (hnew : ∀ now todo evicted, stage = .sweeping now todo evicted →
      ∀ d, d ∈ todo ∨ d ∈ evicted → s.store.overdue cfg now d = true) :
    SelectedOverdue cfg t := by
  intro b now todo evicted hb d hd
  rw [hsweeps, Tables.update_some_iff] at hb
  rcases hb with ⟨_, rfl⟩ | ⟨_, hb⟩
  · exact hrows now d (hnew now todo evicted rfl d hd)
  · exact hrows now d (h b now todo evicted hb d hd)

/-- What a sweep commits leaves the heartbeats alone. -/
theorem overdue_commitSweep {evicted : List UserId}
    (h : s.store.overdue cfg now d = true) :
    (s.commitSweep c evicted).store.overdue cfg now d = true := by
  obtain ⟨profile, hrow, hover⟩ := (Option.any_eq_true _ _).mp h
  by_cases hd : d ∈ evicted
  · simpa [DriverStore.overdue, DriverState.commitSweep, hd, hrow] using hover
  · simpa [DriverStore.overdue, DriverState.commitSweep, hd, hrow] using hover

/-- A COMMIT that spares the sweeps under way leaves what they hold overdue. -/
theorem SelectedOverdue.commit {q : DriverReqId} (hbooks : DriverBooks s)
    (h : SelectedOverdue cfg s) (hok : spares cfg s (.commit q) = true)
    (hstep : driverStep cfg s (.commit q) = some t) : SelectedOverdue cfg t := by
  obtain ⟨call, loaded, changed, fresh, hreq, hcase⟩ := driver_commit hstep
  obtain ⟨hholds, _⟩ := hbooks.fine hreq
  have hothers : ∀ {row now d}, d ≠ call.user.id → s.store.overdue cfg now d = true →
      DriverStore.overdue ⟨update s.store.profiles call.user.id (some row), s.store.pool⟩ cfg
        now d = true := by
    intro row now d hd hover
    simpa [DriverStore.overdue, hd] using hover
  rcases hcase with ⟨rfl, rfl⟩ | ⟨rfl, row, hrow, rfl⟩ | ⟨_, _, rfl⟩
  · -- a row that did not exist was selected by nobody
    refine h.keep rfl ?_
    intro c now todo evicted d _ _ hover
    refine hothers ?_ hover
    rintro rfl
    simp [DriverStore.overdue, hholds.2.1] at hover
  · refine h.keep rfl ?_
    intro c now todo evicted d hc hd hover
    by_cases hdriver : d = call.user.id
    · subst hdriver
      by_cases hsame : changed.lastHeartbeatAt = loaded.lastHeartbeatAt
      · simpa [DriverStore.overdue, DriverState.commitUpdate, DriverProfile.flush, hsame, hrow]
          using hover
      · simp only [spares, hreq, hsame, decide_false, Bool.false_or, List.all_eq_true] at hok
        have hsweep := hok c (hbooks.swept hc)
        simp only [hc, Bool.or_eq_true, decide_eq_true_eq] at hsweep
        rcases hsweep with ⟨htodo, hevicted⟩ | hnew
        · rcases hd with hd | hd
          · exact absurd hd htodo
          · exact absurd hd hevicted
        · simpa [DriverStore.overdue, DriverState.commitUpdate, DriverProfile.flush, hsame]
            using hnew
    · exact hothers hdriver hover
  · exact h.keep rfl fun _ _ _ _ _ _ _ hover => hover

theorem step_selectedOverdue {a : DriverAction} (hbooks : DriverBooks s)
    (h : SelectedOverdue cfg s) (hok : spares cfg s a = true)
    (hstep : driverStep cfg s a = some t) : SelectedOverdue cfg t := by
  have hstays : t.sweeps = s.sweeps → t.store = s.store → SelectedOverdue cfg t := by
    intro hsweeps hstore
    exact h.keep hsweeps fun _ _ _ _ _ _ _ hover => hstore ▸ hover
  cases a with
  | begin q user request =>
      obtain ⟨_, _, rfl⟩ := driver_begin hstep
      exact hstays rfl rfl
  | read q =>
      obtain ⟨call, _, ⟨profile, _, rfl⟩ | ⟨_, rfl⟩⟩ := driver_read hstep
      · exact hstays rfl rfl
      · exact hstays rfl rfl
  | insert q =>
      obtain ⟨call, _, rfl | ⟨_, _, rfl⟩⟩ := driver_insert hstep
      · exact hstays rfl rfl
      · exact hstays rfl rfl
  | handle q =>
      obtain ⟨call, profile, fresh, _, hcase⟩ := driver_handle hstep
      rcases hcase with ⟨e, _, rfl⟩ | ⟨changed, command, _, rfl⟩ | ⟨changed, _, rfl⟩
      · exact hstays rfl rfl
      · exact hstays rfl rfl
      · exact hstays rfl rfl
  | redis q =>
      obtain ⟨call, loaded, changed, fresh, command, _, ⟨pool, _, rfl⟩ | rfl⟩ :=
        driver_redis hstep
      · exact h.keep rfl fun _ _ _ _ _ _ _ hover => hover
      · exact hstays rfl rfl
  | commit q => exact h.commit hbooks hok hstep
  | abort q =>
      obtain ⟨call, stage, _, _, rfl⟩ := driver_abort hstep
      exact hstays rfl rfl
  | beginSweep c =>
      obtain ⟨_, rfl⟩ := driver_beginSweep hstep
      exact h.move rfl (fun _ _ hover => hover) fun _ _ _ hstage => by cases hstage
  | selectStale c found =>
      obtain ⟨now, _, hfound, rfl⟩ := driver_selectStale hstep
      refine h.move rfl (fun _ _ hover => hover) ?_
      intro now' todo evicted hstage d hd
      cases hstage
      have hmem : d ∈ found := hd.resolve_right List.not_mem_nil
      exact overdue_of_isStale (List.mem_filter.mp (hfound.mem_iff.mp hmem)).2
  | removeStale c =>
      obtain ⟨now, e, todo, evicted, hc, rfl⟩ := driver_removeStale hstep
      refine h.move rfl (fun _ _ hover => hover) ?_
      intro now' todo' evicted' hstage d hd
      cases hstage
      refine h c now (e :: todo) evicted hc d ?_
      simp only [List.mem_append, List.mem_cons, List.not_mem_nil, or_false] at hd ⊢
      tauto
  | commitSweep c =>
      obtain ⟨now, evicted, _, rfl⟩ := driver_commitSweep hstep
      exact h.move rfl (fun _ _ => overdue_commitSweep) fun _ _ _ hstage => by cases hstage
  | abortSweep c =>
      obtain ⟨stage, _, _, rfl⟩ := driver_abortSweep hstep
      exact h.move rfl (fun _ _ hover => hover) fun _ _ _ hstage => by cases hstage
  | advance seconds =>
      obtain rfl := driver_advance hstep
      exact hstays rfl rfl

end Steps

/-- **Evicted drivers are stale.**  In every run that spares the sweeps under
way, whoever a sweep clears at its COMMIT has a committed heartbeat that is
older than its cutoff. -/
theorem evicted_drivers_stale {cfg : Settings} {acts : List DriverAction} {s : DriverState}
    (h : Steps (driverSystem cfg) (fun s a => spares cfg s a) .init acts s) :
    ∀ c now evicted t, s.sweeps c = some (.sweeping now [] evicted) →
      driverStep cfg s (.commitSweep c) = some t →
      ∀ d ∈ evicted, s.store.overdue cfg now d = true ∧ ¬ t.store.Available d := by
  intro c now evicted t hc hstep d hd
  have hempty : SelectedOverdue cfg .init := by
    intro c now todo evicted hc
    cases hc
  have hselected : SelectedOverdue cfg s :=
    h.invariant_under DriverBooks (SelectedOverdue cfg) driverBooks_init hempty
      (fun _ _ _ hs hstep => step_driverBooks hs hstep)
      fun _ _ _ hs hsel hok hstep => step_selectedOverdue hs hsel hok hstep
  refine ⟨hselected c now [] evicted hc d (Or.inr hd), ?_⟩
  obtain ⟨now', evicted', hc', rfl⟩ := driver_commitSweep hstep
  cases hc.symm.trans hc'
  cases hrow : s.store.profiles d <;>
    simp [DriverStore.Available, DriverState.commitSweep, hd, hrow]

/-- Driver 2 goes online and is silent for 31 seconds; a sweep selects the
driver. -/
def sweepFindsDriver : List DriverAction :=
  goesOnline 0 1 2 ++ [.advance 31, .beginSweep 0, .selectStale 0 [2]]

/-- Driver 2 is evicted after 31 seconds without a heartbeat. -/
theorem silent_driver_evicted : ∃ s evicted,
    Steps (driverSystem {}) (fun s a => spares {} s a) .init
      (sweepFindsDriver ++ [.removeStale 0]) s ∧
    s.sweeps 0 = some (.sweeping 31 [] evicted) ∧ 2 ∈ evicted ∧
    s.store.overdue {} 31 2 = true := by
  have hreplay : (execWhere (driverSystem {}) (fun s a => spares {} s a) .init
      (sweepFindsDriver ++ [.removeStale 0])).any
      (fun s => s.sweeps 0 = some (.sweeping 31 [] [2])) = true := by decide +kernel
  obtain ⟨s, hrun, hs⟩ := Steps.of_execWhere_any hreplay
  have hsweep : s.sweeps 0 = some (.sweeping 31 [] [2]) := of_decide_eq_true hs
  have hmem : 2 ∈ [2] := List.mem_singleton_self 2
  have hcommit : driverStep {} s (.commitSweep 0) = some (s.commitSweep 0 [2]) := by
    simp [driverStep, hsweep]
  exact ⟨s, [2], hrun, hsweep, hmem,
    (evicted_drivers_stale hrun 0 31 [2] _ hsweep hcommit 2 hmem).1⟩

/-- **A fresh driver is evicted.**  The heartbeat commits between the SELECT of
the sweep and its COMMIT. -/
theorem fresh_driver_evicted :
    ¬ ∀ (cfg : Settings) (acts : List DriverAction) (s : DriverState),
      Steps (driverSystem cfg) free .init acts s →
        ∀ c now evicted t, s.sweeps c = some (.sweeping now [] evicted) →
          driverStep cfg s (.commitSweep c) = some t →
          ∀ d ∈ evicted, s.store.overdue cfg now d = true := by
  intro hclaim
  have hreplay : (exec (driverSystem {}) .init (sweepFindsDriver ++
      upToRedis 2 2 (.heartbeat sampleHeartbeat) ++ [.redis 2, .commit 2, .removeStale 0])).any
      (fun s => s.sweeps 0 = some (.sweeping 31 [] [2]) ∧ ¬ s.store.overdue {} 31 2) = true := by
    decide +kernel
  obtain ⟨s, hrun, hs⟩ := Steps.of_exec_any hreplay
  obtain ⟨hsweep, hfresh⟩ := of_decide_eq_true hs
  have hcommit : driverStep {} s (.commitSweep 0) = some (s.commitSweep 0 [2]) := by
    simp [driverStep, hsweep]
  exact hfresh (hclaim {} _ s hrun 0 31 [2] _ hsweep hcommit 2 (List.mem_singleton_self 2))

end RideFlow
