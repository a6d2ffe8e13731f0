import RideFlow.DriverRequests

/-!
# Ghost drivers

A driver in `drivers:geo` whose profile says `is_available = false` is found by
every ride request, and no sweep ever selects it again.  A GEOADD makes one in
two ways.

* Somebody else is about to commit `is_available = false`: a
  `set_availability(false)` or a sweep has sent its ZREM, and the heartbeat,
  which has read the old flag, adds the driver again.
* The committed flag is false by now and nobody is about to set it: the ZREM
  and the COMMIT both came between the heartbeat's SELECT and its GEOADD.

`Undisturbed` admits the runs without such a GEOADD, and there
`no_ghost_drivers` holds: a driver for whom nothing is in flight is in the pool
only if the committed profile is available, and a driver who was taken out of
the pool stays out until a later `set_availability(true)`.
-/

namespace RideFlow

open Function Runs

/-- The COMMIT that comes next sets the flag of the driver. -/
def DriverStage.enables : DriverStage → Bool
  | .committing profile changed _ => !profile.isAvailable && changed.isAvailable
  | _ => false

/-- The COMMIT that comes next clears the flag of the driver. -/
def DriverStage.disables : DriverStage → Bool
  | .committing profile changed _ => profile.isAvailable && !changed.isAvailable
  | _ => false

/-- The sweep has removed the driver from the pool and not committed yet. -/
def SweepStage.removed (d : UserId) : SweepStage → Bool
  | .sweeping _ _ evicted => d ∈ evicted
  | _ => false

namespace DriverState

variable (s : DriverState)

/-- A request of the driver stands where `p` holds. -/
def pending (p : DriverStage → Bool) (d : UserId) : Bool :=
  s.begun.any fun q => (s.requests q).any fun r => r.1.user.id = d && p r.2

/-- A `set_availability(true)` of the driver has sent its GEOADD and is about
to set the flag. -/
def enabling (d : UserId) : Bool := s.pending DriverStage.enables d

/-- A `set_availability(false)` or a sweep has sent its ZREM for the driver and
is about to clear the flag. -/
def disabling (d : UserId) : Bool :=
  s.pending DriverStage.disables d ||
    s.sweepsBegun.any fun c => (s.sweeps c).any (SweepStage.removed d)

/-- Nothing is in flight for the driver. -/
def Idle (d : UserId) : Prop :=
  (∀ q call stage, s.requests q = some (call, stage) → call.user.id = d →
    ∃ outcome, stage = .answered outcome) ∧
  ∀ c now todo evicted, s.sweeps c = some (.sweeping now todo evicted) →
    d ∉ todo ∧ d ∉ evicted

end DriverState

/-- Nobody disturbs.  Whoever sends GEOADD finds nobody about to clear the
flag, and the flag is set, or it or somebody else is about to set it; a
`set_availability(true)` does not fail between its GEOADD and its COMMIT with
the flag still cleared; a `set_availability(false)` that has read a cleared
flag, and so will write none, commits with the flag still cleared. -/
def undisturbed (s : DriverState) : DriverAction → Bool
  | .redis q =>
      match s.requests q with
      | some (call, .sending loaded _ _ (.geoadd _ _)) =>
          !s.disabling call.user.id &&
            (!loaded.isAvailable || s.store.Available call.user.id || s.enabling call.user.id)
      | _ => true
  | .abort q =>
      match s.requests q with
      | some (call, stage) =>
          !stage.enables || !s.store.InPool call.user.id || s.store.Available call.user.id
      | none => true
  | .commit q =>
      match s.requests q with
      | some (⟨user, .setAvailability false⟩, .committing loaded _ _) =>
          loaded.isAvailable || !s.store.Available user.id
      | _ => true
  | _ => true

section Steps

variable {s t : DriverState} {q : DriverReqId} {call : DriverCall} {old stage : DriverStage}
  {d e : UserId} {p : DriverStage → Bool} {profile changed : DriverProfile} {now : Timestamp}

/-! ### What the handlers do to the flag -/

/-- A handler that sends GEOADD leaves the flag set. -/
theorem handle_geoadd {request : DriverRequest} {lat lng : Degrees}
    (h : request.handle profile now = .ok (changed, some (.geoadd lat lng))) :
    changed.isAvailable = true := by
  rcases handle_ok h with ⟨payload, _, rfl, hcommand⟩ | ⟨_, _, _, _, _, rfl, _⟩ | ⟨_, _, hcommand⟩ |
    ⟨_, _, hcommand⟩
  · cases havail : profile.isAvailable with
    | true => rfl
    | false => simp [havail] at hcommand
  · rfl
  · cases hcommand
  · cases hcommand

/-- A handler that sends nothing leaves the flag as it is. -/
theorem handle_silent {request : DriverRequest}
    (h : request.handle profile now = .ok (changed, none)) :
    changed.isAvailable = profile.isAvailable := by
  rcases handle_ok h with ⟨payload, _, rfl, _⟩ | ⟨_, _, _, _, _, _, hcommand⟩ | ⟨_, _, hcommand⟩ |
    ⟨_, rfl, _⟩
  · rfl
  · cases hcommand
  · cases hcommand
  · rfl

/-- Only `set_availability(true)` sets the flag. -/
theorem handle_sets {request : DriverRequest} {command : Option GeoCommand}
    (h : request.handle profile now = .ok (changed, command)) (hwas : profile.isAvailable = false)
    (hset : changed.isAvailable = true) : request = .setAvailability true := by
  rcases handle_ok h with ⟨payload, _, rfl, _⟩ | ⟨_, _, hreq, _⟩ | ⟨_, rfl, _⟩ | ⟨_, rfl, _⟩
  · cases hwas.symm.trans hset
  · exact hreq
  · cases hset
  · cases hwas.symm.trans hset

/-- An UPDATE that does not set the flag leaves a cleared one cleared. -/
theorem flush_cleared {row : DriverProfile} (hrow : row.isAvailable = false)
    (hset : profile.isAvailable = false → changed.isAvailable = false) :
    (profile.flush changed row).isAvailable = false := by
  cases hwas : profile.isAvailable with
  | false => simp [DriverProfile.flush, hwas, hset hwas, hrow]
  | true => cases hnow : changed.isAvailable <;> simp [DriverProfile.flush, hwas, hnow, hrow]

/-! ### Who is pending -/

theorem pending_iff :
    s.pending p d = true ↔ ∃ q ∈ s.begun, ∃ call stage,
      s.requests q = some (call, stage) ∧ call.user.id = d ∧ p stage = true := by
  simp [DriverState.pending, Option.any_eq_true]

/-- After a request has moved, whoever is pending was so before, or it is this
request. -/
theorem pending_of_at (h : (s.at_ q call stage).pending p d = true) :
    s.pending p d = true ∨ (call.user.id = d ∧ p stage = true) := by
  obtain ⟨q', hbegun, call', stage', hq', hd, hp⟩ := pending_iff.mp h
  rcases Tables.update_some_iff.mp hq' with ⟨_, hhere⟩ | ⟨_, hthere⟩
  · cases hhere
    exact Or.inr ⟨hd, hp⟩
  · exact Or.inl (pending_iff.mpr ⟨q', hbegun, call', stage', hthere, hd, hp⟩)

/-- Whoever was pending before a request moved still is, or it is this
request. -/
theorem pending_at (hq : s.requests q = some (call, old)) (h : s.pending p d = true) :
    (s.at_ q call stage).pending p d = true ∨ (call.user.id = d ∧ p old = true) := by
  obtain ⟨q', hbegun, call', stage', hq', hd, hp⟩ := pending_iff.mp h
  by_cases hsame : q' = q
  · subst hsame
    cases hq.symm.trans hq'
    exact Or.inr ⟨hd, hp⟩
  · exact Or.inl (pending_iff.mpr
      ⟨q', hbegun, call', stage', (update_of_ne hsame _ _).trans hq', hd, hp⟩)

theorem pending_here (hq : q ∈ s.begun) (hp : p stage = true) :
    (s.at_ q call stage).pending p call.user.id = true :=
  pending_iff.mpr ⟨q, hq, call, stage, update_self .., rfl, hp⟩

theorem disabling_iff :
    s.disabling d = true ↔ s.pending DriverStage.disables d = true ∨
      ∃ c ∈ s.sweepsBegun, ∃ stage, s.sweeps c = some stage ∧ stage.removed d = true := by
  simp [DriverState.disabling, Option.any_eq_true]

/-- A request that moves to a stage from which it does not clear the flag
makes nobody cleared. -/
theorem disabling_of_at (hnew : stage.disables = false)
    (h : (s.at_ q call stage).disabling d = true) : s.disabling d = true := by
  rcases disabling_iff.mp h with hreq | hsweep
  · rcases pending_of_at hreq with hpending | ⟨_, hdis⟩
    · exact disabling_iff.mpr (Or.inl hpending)
    · exact absurd hdis (by simp [hnew])
  · exact disabling_iff.mpr (Or.inr hsweep)

theorem enabling_at (hq : s.requests q = some (call, old)) (hold : old.enables = false)
    (h : s.enabling d = true) : (s.at_ q call stage).enabling d = true :=
  (pending_at hq h).resolve_right (by simp [hold])

/-! ### The invariant -/

/-- A driver in the pool is available or about to be, and nobody is about to
change that. -/
def NoGhost (s : DriverState) : Prop :=
  ∀ d, s.store.InPool d →
    s.disabling d = false ∧ (s.store.Available d ∨ s.enabling d = true)

/-- A step that adds nobody to the pool, starts to disable nobody in it and
keeps whoever is available or about to be. -/
theorem NoGhost.keep (h : NoGhost s)
    (hpool : ∀ d, t.store.InPool d → s.store.InPool d)
    (hdis : ∀ d, t.store.InPool d → t.disabling d = true → s.disabling d = true)
    (hflag : ∀ d, t.store.InPool d → s.store.Available d ∨ s.enabling d = true →
      t.store.Available d ∨ t.enabling d = true) : NoGhost t := by
  intro d hd
  obtain ⟨hquiet, havail⟩ := h d (hpool d hd)
  refine ⟨?_, hflag d hd havail⟩
  cases hcase : t.disabling d with
  | false => rfl
  | true => cases hquiet.symm.trans (hdis d hd hcase)

/-- A request moves and touches no store. -/
theorem NoGhost.at_ (h : NoGhost s) (hq : s.requests q = some (call, old))
    (hold : old.enables = false) (hnew : stage.disables = false) :
    NoGhost (s.at_ q call stage) :=
  h.keep (fun _ hd => hd) (fun _ _ => disabling_of_at hnew)
    fun _ _ havail => havail.imp_right (enabling_at hq hold)

/-- A request of a driver who keeps the flag or has left the pool ends. -/
theorem NoGhost.finish {outcome : DriverOutcome} (h : NoGhost s)
    (hq : s.requests q = some (call, old))
    (hflag : old.enables = true → s.store.InPool call.user.id →
      s.store.Available call.user.id) : NoGhost (s.finish q call outcome) := by
  have hdis : ∀ d, (s.at_ q call (.answered outcome)).disabling d = true →
      s.disabling d = true := fun _ => disabling_of_at rfl
  refine h.keep (fun _ hd => hd) (fun d _ => hdis d) ?_
  intro d hd havail
  rcases havail with havail | hen
  · exact Or.inl havail
  · rcases pending_at hq hen with hstill | ⟨rfl, hmine⟩
    · exact Or.inr hstill
    · exact Or.inl (hflag hmine hd)

/-- A sweep moves and removes nobody more from the pool. -/
theorem NoGhost.setSweep (h : NoGhost s) {c : SweepId} {stage : SweepStage}
    (hnew : ∀ d, stage.removed d = true → ¬ s.store.InPool d) :
    NoGhost (s.setSweep c stage) := by
  refine h.keep (fun _ hd => hd) ?_ fun _ _ havail => havail
  intro d hd hdis
  rcases disabling_iff.mp hdis with hreq | ⟨b, hb, stage', hstage, hremoved⟩
  · exact disabling_iff.mpr (Or.inl hreq)
  · rcases Tables.update_some_iff.mp hstage with ⟨_, rfl⟩ | ⟨_, hthere⟩
    · exact absurd hd (hnew d hremoved)
    · exact disabling_iff.mpr (Or.inr ⟨b, hb, stage', hthere, hremoved⟩)

/-- A COMMIT sets the flag, clears it for a driver who has left the pool, or
leaves it. -/
theorem NoGhost.write (h : NoGhost s) {fresh : Bool} {outcome : DriverOutcome}
    {row : DriverProfile} (hbegun : q ∈ s.begun)
    (hq : s.requests q = some (call, .committing profile changed fresh))
    (hsame : ∀ d, t.disabling d = (s.at_ q call (.answered outcome)).disabling d ∧
      t.enabling d = (s.at_ q call (.answered outcome)).enabling d)
    (hpool : t.store.pool = s.store.pool)
    (hrows : t.store.profiles = update s.store.profiles call.user.id (some row))
    (hkept : changed.isAvailable = profile.isAvailable →
      s.store.Available call.user.id → row.isAvailable = true)
    (hset : changed.isAvailable = true → profile.isAvailable = false →
      row.isAvailable = true) : NoGhost t := by
  have hin : ∀ d, t.store.InPool d → s.store.InPool d := by
    intro d hd
    simpa only [DriverStore.InPool, hpool] using hd
  have hdis : ∀ d, (s.at_ q call (.answered outcome)).disabling d = true →
      s.disabling d = true := fun _ => disabling_of_at rfl
  refine h.keep hin (fun d _ hd => hdis d ((hsame d).1 ▸ hd)) ?_
  intro d hd havail
  rw [(hsame d).2]
  by_cases hdriver : d = call.user.id
  · subst hdriver
    have hrow : row.isAvailable = true → t.store.Available call.user.id := by
      intro hrow
      simpa [DriverStore.Available, hrows] using hrow
    cases hloaded : profile.isAvailable with
    | true =>
        cases hchanged : changed.isAvailable with
        | true =>
            rcases havail with havail | hen
            · exact Or.inl (hrow (hkept (by rw [hchanged, hloaded]) havail))
            · exact Or.inr ((pending_at hq hen).resolve_right
                (by simp [DriverStage.enables, hloaded]))
        | false =>
            -- this request has sent its ZREM, so the driver is not in the pool
            have hclears : s.disabling call.user.id = true :=
              disabling_iff.mpr (Or.inl (pending_iff.mpr
                ⟨q, hbegun, call, _, hq, rfl, by simp [DriverStage.disables, hloaded, hchanged]⟩))
            cases hclears.symm.trans (h _ (hin _ hd)).1
    | false =>
        cases hchanged : changed.isAvailable with
        | true => exact Or.inl (hrow (hset hchanged hloaded))
        | false =>
            rcases havail with havail | hen
            · exact Or.inl (hrow (hkept (by rw [hchanged, hloaded]) havail))
            · exact Or.inr ((pending_at hq hen).resolve_right
                (by simp [DriverStage.enables, hchanged]))
  · rcases havail with havail | hen
    · left
      simpa [DriverStore.Available, hrows, hdriver] using havail
    · exact Or.inr ((pending_at hq hen).resolve_right fun hmine => hdriver hmine.1.symm)

/-- Redis answers a GEOADD that disturbs nobody, or a ZREM. -/
theorem NoGhost.send (h : NoGhost s) {fresh : Bool} {command : GeoCommand} {pool : GeoPool}
    (hbegun : q ∈ s.begun)
    (hq : s.requests q = some (call, .sending profile changed fresh command))
    (hhandle : call.request.handle profile now = .ok (changed, some command))
    (hok : undisturbed s (.redis q) = true)
    (hrun : command.run s.store.pool call.user.id = some pool) :
    NoGhost (s.send q call profile changed fresh pool) := by
  have hothers : ∀ d, d ≠ call.user.id → s.store.InPool d →
      (s.at_ q call (.committing profile changed fresh)).disabling d = false ∧
        (s.store.Available d ∨
          (s.at_ q call (.committing profile changed fresh)).enabling d = true) := by
    intro d hd hin
    obtain ⟨hquiet, havail⟩ := h d hin
    refine ⟨?_, havail.imp_right (enabling_at hq rfl)⟩
    cases hcase : (s.at_ q call (.committing profile changed fresh)).disabling d with
    | false => rfl
    | true =>
        rcases disabling_iff.mp hcase with hreq | hsweep
        · rcases pending_of_at hreq with hpending | ⟨hmine, _⟩
          · cases hquiet.symm.trans (disabling_iff.mpr (Or.inl hpending))
          · exact absurd hmine.symm hd
        · cases hquiet.symm.trans (disabling_iff.mpr (Or.inr hsweep))
  cases command with
  | geoadd lat lng =>
      simp only [GeoCommand.run, upsertDriverLocation, Option.ite_none_right_eq_some,
        Option.some.injEq] at hrun
      obtain ⟨_, rfl⟩ := hrun
      have hchanged := handle_geoadd hhandle
      simp only [undisturbed, hq, Bool.and_eq_true, Bool.not_eq_true', Bool.or_eq_true,
        decide_eq_true_eq] at hok
      obtain ⟨hquiet, hflag⟩ := hok
      rintro d ⟨m, hm, hmd⟩
      by_cases hd : d = call.user.id
      · subst hd
        constructor
        · cases hcase : (s.at_ q call (.committing profile changed fresh)).disabling
              call.user.id with
          | false => exact hcase
          | true =>
              have hnew : (DriverStage.committing profile changed fresh).disables = false := by
                simp [DriverStage.disables, hchanged]
              cases hquiet.symm.trans (disabling_of_at hnew hcase)
        · rcases hflag with (hloaded | havail) | hen
          · exact Or.inr (pending_here hbegun (by simp [DriverStage.enables, hloaded, hchanged]))
          · exact Or.inl havail
          · exact Or.inr (enabling_at hq rfl hen)
      · refine hothers d hd ⟨m, ?_, hmd⟩
        rcases List.mem_cons.mp hm with rfl | hm
        · exact absurd hmd.symm hd
        · exact (List.mem_filter.mp hm).1
  | zrem =>
      obtain rfl := Option.some.inj hrun
      rintro d ⟨m, hm, hmd⟩
      obtain ⟨hm, hne⟩ := List.mem_filter.mp hm
      refine hothers d ?_ ⟨m, hm, hmd⟩
      rintro rfl
      simp [hmd] at hne

/-- A sweep sends ZREM for a driver. -/
theorem NoGhost.evict (h : NoGhost s) {c : SweepId} {todo evicted : List UserId}
    (hc : s.sweeps c = some (.sweeping now (d :: todo) evicted)) (hbegun : c ∈ s.sweepsBegun) :
    NoGhost (s.evict c now d todo evicted) := by
  have hin : ∀ e, (s.evict c now d todo evicted).store.InPool e →
      e ≠ d ∧ s.store.InPool e := by
    rintro e ⟨m, hm, rfl⟩
    obtain ⟨hm, hne⟩ := List.mem_filter.mp hm
    exact ⟨of_decide_eq_true hne, m, hm, rfl⟩
  refine h.keep (fun e he => (hin e he).2) ?_ fun _ _ havail => havail
  intro e he hdis
  rcases disabling_iff.mp hdis with hreq | ⟨b, hb, stage', hstage, hremoved⟩
  · exact disabling_iff.mpr (Or.inl hreq)
  · refine disabling_iff.mpr (Or.inr ?_)
    rcases Tables.update_some_iff.mp hstage with ⟨rfl, rfl⟩ | ⟨_, hthere⟩
    · -- the driver just removed is no longer in the pool
      refine ⟨b, hbegun, _, hc, ?_⟩
      simpa [SweepStage.removed, (hin e he).1] using hremoved
    · exact ⟨b, hb, stage', hthere, hremoved⟩

/-- A sweep commits: whoever it clears has left the pool. -/
theorem NoGhost.commitSweep (h : NoGhost s) {c : SweepId} {evicted : List UserId}
    (hc : s.sweeps c = some (.sweeping now [] evicted)) (hbegun : c ∈ s.sweepsBegun) :
    NoGhost (s.commitSweep c evicted) := by
  have hmoved : NoGhost (s.setSweep c .finished) :=
    h.setSweep fun _ hremoved => by cases hremoved
  refine hmoved.keep (fun _ hd => hd) (fun _ _ hdis => hdis) ?_
  intro d hd havail
  refine havail.imp_left fun havail => ?_
  by_cases hmem : d ∈ evicted
  · have hclears : s.disabling d = true :=
      disabling_iff.mpr (Or.inr ⟨c, hbegun, _, hc, decide_eq_true hmem⟩)
    cases hclears.symm.trans (h d hd).1
  · have hkept : s.store.Available d := havail
    simpa [DriverStore.Available, DriverState.commitSweep, hmem] using hkept

/-- A request begins: nothing is pending in it yet. -/
theorem NoGhost.begin (hbooks : DriverBooks s) (h : NoGhost s) {call : DriverCall}
    (hnone : s.requests q = none) :
    NoGhost { s.at_ q call .starting with begun := q :: s.begun } := by
  have hother : ∀ p : DriverStage → Bool, ∀ d, s.pending p d = true →
      ({ s.at_ q call .starting with begun := q :: s.begun }).pending p d = true := by
    intro p d hpending
    obtain ⟨q', hq', call', stage', hreq', hd, hp⟩ := pending_iff.mp hpending
    have hne : q' ≠ q := by
      rintro rfl
      cases hnone.symm.trans hreq'
    exact pending_iff.mpr ⟨q', List.mem_cons_of_mem _ hq', call', stage',
      (update_of_ne hne _ _).trans hreq', hd, hp⟩
  refine h.keep (fun _ hd => hd) ?_ fun d _ havail => havail.imp_right (hother _ d)
  intro d _ hdis
  rcases disabling_iff.mp hdis with hreq | hsweep
  · obtain ⟨q', _, call', stage', hq', hd, hp⟩ := pending_iff.mp hreq
    rcases Tables.update_some_iff.mp hq' with ⟨_, hhere⟩ | ⟨_, hthere⟩
    · cases hhere
      cases hp
    · exact disabling_iff.mpr (Or.inl
        (pending_iff.mpr ⟨q', hbooks.known hthere, call', stage', hthere, hd, hp⟩))
  · exact disabling_iff.mpr (Or.inr hsweep)

/-- A sweep begins: it has removed nobody. -/
theorem NoGhost.beginSweep (h : NoGhost s) {c : SweepId} :
    NoGhost { s.setSweep c (.started s.clock) with sweepsBegun := c :: s.sweepsBegun } := by
  have hmoved : NoGhost (s.setSweep c (.started s.clock)) :=
    h.setSweep fun _ hremoved => by cases hremoved
  refine hmoved.keep (fun _ hd => hd) ?_ fun _ _ havail => havail
  intro d _ hdis
  rcases disabling_iff.mp hdis with hreq | ⟨b, hb, stage, hstage, hremoved⟩
  · exact disabling_iff.mpr (Or.inl hreq)
  · rcases List.mem_cons.mp hb with rfl | hb
    · rcases Tables.update_some_iff.mp hstage with ⟨_, rfl⟩ | ⟨hne, _⟩
      · cases hremoved
      · exact absurd rfl hne
    · exact disabling_iff.mpr (Or.inr ⟨b, hb, stage, hstage, hremoved⟩)

/-- Every step that disturbs nobody keeps the pool free of ghosts. -/
theorem step_noGhost {cfg : Settings} {a : DriverAction} (hbooks : DriverBooks s) (h : NoGhost s)
    (hok : undisturbed s a = true) (hstep : driverStep cfg s a = some t) : NoGhost t := by
  cases a with
  | begin q user request =>
      obtain ⟨hnone, _, rfl⟩ := driver_begin hstep
      exact h.begin hbooks hnone
  | read q =>
      obtain ⟨call, hreq, ⟨profile, _, rfl⟩ | ⟨_, rfl⟩⟩ := driver_read hstep
      · exact h.at_ hreq rfl rfl
      · exact h.at_ hreq rfl rfl
  | insert q =>
      obtain ⟨call, hreq, rfl | ⟨_, _, rfl⟩⟩ := driver_insert hstep
      · exact h.finish hreq fun hen => by cases hen
      · exact h.at_ hreq rfl rfl
  | handle q =>
      obtain ⟨call, profile, fresh, hreq, hcase⟩ := driver_handle hstep
      rcases hcase with ⟨e, _, rfl⟩ | ⟨changed, command, _, rfl⟩ | ⟨changed, hhandle, rfl⟩
      · exact h.finish hreq fun hen => by cases hen
      · exact h.at_ hreq rfl rfl
      · have hsame := handle_silent hhandle
        exact h.at_ hreq rfl (by simp [DriverStage.disables, hsame])
  | redis q =>
      obtain ⟨call, loaded, changed, fresh, command, hreq, ⟨pool, hpool, rfl⟩ | rfl⟩ :=
        driver_redis hstep
      · obtain ⟨_, now, hhandle⟩ := hbooks.fine hreq
        exact h.send (hbooks.known hreq) hreq hhandle hok hpool
      · exact h.finish hreq fun hen => by cases hen
  | commit q =>
      obtain ⟨call, loaded, changed, fresh, hreq, hcase⟩ := driver_commit hstep
      have hbegun := hbooks.known hreq
      obtain ⟨hholds, _⟩ := hbooks.fine hreq
      rcases hcase with ⟨rfl, rfl⟩ | ⟨rfl, row, hrow, rfl⟩ | ⟨rfl, hnone, rfl⟩
      · obtain ⟨rfl, hnone, _⟩ := hholds
        refine h.write hbegun hreq (fun _ => ⟨rfl, rfl⟩) rfl rfl ?_ fun hset _ => hset
        intro _ havail
        simp [DriverStore.Available, hnone] at havail
      · refine h.write hbegun hreq (fun _ => ⟨rfl, rfl⟩) rfl rfl ?_ ?_
        · intro hsame havail
          simpa [DriverProfile.flush, hsame, DriverStore.Available, hrow] using havail
        · intro hset hwas
          simp [DriverProfile.flush, hset, hwas]
      · exact absurd hnone hholds
  | abort q =>
      obtain ⟨call, stage, hreq, _, rfl⟩ := driver_abort hstep
      refine h.finish hreq ?_
      intro hen hin
      simpa [undisturbed, hreq, hen, hin] using hok
  | beginSweep c =>
      obtain ⟨_, rfl⟩ := driver_beginSweep hstep
      exact h.beginSweep
  | selectStale c found =>
      obtain ⟨now, _, _, rfl⟩ := driver_selectStale hstep
      exact h.setSweep fun d hremoved => by simp [SweepStage.removed] at hremoved
  | removeStale c =>
      obtain ⟨now, d, todo, evicted, hc, rfl⟩ := driver_removeStale hstep
      exact h.evict hc (hbooks.swept hc)
  | commitSweep c =>
      obtain ⟨now, evicted, hc, rfl⟩ := driver_commitSweep hstep
      exact h.commitSweep hc (hbooks.swept hc)
  | abortSweep c =>
      obtain ⟨stage, _, _, rfl⟩ := driver_abortSweep hstep
      exact h.setSweep fun _ hremoved => by cases hremoved
  | advance seconds =>
      obtain rfl := driver_advance hstep
      exact h

/-! ### Staying out of the pool -/

/-- The driver is not available and asks for nothing that would change that. -/
structure Withdrawn (d : UserId) (s : DriverState) : Prop where
  cleared : ¬ s.store.Available d
  quiet : ∀ {q call stage}, s.requests q = some (call, stage) → call.user.id = d →
    call.request = .setAvailability true → ∃ outcome, stage = .answered outcome

/-- The action begins a `set_availability(true)` of the driver. -/
def DriverAction.asksFor (d : UserId) : DriverAction → Bool
  | .begin _ user (.setAvailability true) => user.id = d
  | _ => false

theorem Withdrawn.move (h : Withdrawn d s) (hq : s.requests q = some (call, old))
    (hreqs : t.requests = update s.requests q (some (call, stage)))
    (hopen : ∀ outcome, old ≠ .answered outcome) (hcleared : ¬ t.store.Available d) :
    Withdrawn d t where
  cleared := hcleared
  quiet := by
    intro q' call' stage' hq' hd hrequest
    rw [hreqs, Tables.update_some_iff] at hq'
    rcases hq' with ⟨_, hhere⟩ | ⟨_, hthere⟩
    · cases hhere
      obtain ⟨outcome, hans⟩ := h.quiet hq hd hrequest
      exact absurd hans (hopen outcome)
    · exact h.quiet hthere hd hrequest

/-- Nobody withdrawn is about to be enabled. -/
theorem Withdrawn.not_enabling (hbooks : DriverBooks s) (h : Withdrawn d s) :
    s.enabling d = false := by
  rw [Bool.eq_false_iff]
  intro hen
  obtain ⟨q, _, call, stage, hq, hd, hen⟩ := pending_iff.mp hen
  cases stage with
  | committing profile changed fresh =>
      simp only [DriverStage.enables, Bool.and_eq_true, Bool.not_eq_true'] at hen
      obtain ⟨_, now, command, hhandle⟩ := hbooks.fine hq
      obtain ⟨outcome, hans⟩ := h.quiet hq hd (handle_sets hhandle hen.1 hen.2)
      cases hans
  | starting => cases hen
  | creating => cases hen
  | loaded => cases hen
  | sending => cases hen
  | answered => cases hen

/-- Every step but the beginning of a `set_availability(true)` leaves the
driver withdrawn. -/
theorem step_withdrawn {cfg : Settings} {a : DriverAction} (hbooks : DriverBooks s)
    (h : Withdrawn d s) (hother : a.asksFor d = false) (hstep : driverStep cfg s a = some t) :
    Withdrawn d t := by
  cases a with
  | begin q user request =>
      obtain ⟨_, _, rfl⟩ := driver_begin hstep
      refine ⟨h.cleared, ?_⟩
      intro q' call' stage' hq' hd hrequest
      rcases Tables.update_some_iff.mp hq' with ⟨_, hhere⟩ | ⟨_, hthere⟩
      · cases hhere
        subst hrequest
        exact absurd hd (of_decide_eq_false hother)
      · exact h.quiet hthere hd hrequest
  | read q =>
      obtain ⟨call, hreq, ⟨profile, _, rfl⟩ | ⟨_, rfl⟩⟩ := driver_read hstep
      · exact h.move hreq rfl (by simp) h.cleared
      · exact h.move hreq rfl (by simp) h.cleared
  | insert q =>
      obtain ⟨call, hreq, rfl | ⟨_, _, rfl⟩⟩ := driver_insert hstep
      · exact h.move hreq rfl (by simp) h.cleared
      · exact h.move hreq rfl (by simp) h.cleared
  | handle q =>
      obtain ⟨call, profile, fresh, hreq, hcase⟩ := driver_handle hstep
      rcases hcase with ⟨e, _, rfl⟩ | ⟨changed, command, _, rfl⟩ | ⟨changed, _, rfl⟩
      · exact h.move hreq rfl (by simp) h.cleared
      · exact h.move hreq rfl (by simp) h.cleared
      · exact h.move hreq rfl (by simp) h.cleared
  | redis q =>
      obtain ⟨call, loaded, changed, fresh, command, hreq, ⟨pool, _, rfl⟩ | rfl⟩ :=
        driver_redis hstep
      · exact h.move hreq rfl (by simp) h.cleared
      · exact h.move hreq rfl (by simp) h.cleared
  | commit q =>
      obtain ⟨call, loaded, changed, fresh, hreq, hcase⟩ := driver_commit hstep
      obtain ⟨hholds, now, command, hhandle⟩ := hbooks.fine hreq
      -- no request of this driver sets the flag
      have hset : call.user.id = d → loaded.isAvailable = false → changed.isAvailable = false := by
        intro hd hwas
        rw [Bool.eq_false_iff]
        intro hset
        obtain ⟨outcome, hans⟩ := h.quiet hreq hd (handle_sets hhandle hwas hset)
        cases hans
      rcases hcase with ⟨rfl, rfl⟩ | ⟨rfl, row, hrow, rfl⟩ | ⟨_, _, rfl⟩
      · obtain ⟨rfl, _, _⟩ := hholds
        refine h.move hreq rfl (by simp) ?_
        by_cases hd : d = call.user.id
        · subst hd
          simp [DriverStore.Available, DriverState.commitInsert, hset rfl rfl]
        · simpa [DriverStore.Available, DriverState.commitInsert, hd] using h.cleared
      · refine h.move hreq rfl (by simp) ?_
        by_cases hd : d = call.user.id
        · subst hd
          have hcleared : row.isAvailable = false := by
            simpa [DriverStore.Available, hrow] using h.cleared
          simp [DriverStore.Available, DriverState.commitUpdate, flush_cleared hcleared (hset rfl)]
        · simpa [DriverStore.Available, DriverState.commitUpdate, hd] using h.cleared
      · exact h.move hreq rfl (by simp) h.cleared
  | abort q =>
      obtain ⟨call, stage, hreq, hopen, rfl⟩ := driver_abort hstep
      exact h.move hreq rfl hopen h.cleared
  | beginSweep c =>
      obtain ⟨_, rfl⟩ := driver_beginSweep hstep
      exact ⟨h.cleared, h.quiet⟩
  | selectStale c found =>
      obtain ⟨now, _, _, rfl⟩ := driver_selectStale hstep
      exact ⟨h.cleared, h.quiet⟩
  | removeStale c =>
      obtain ⟨now, e, todo, evicted, _, rfl⟩ := driver_removeStale hstep
      exact ⟨h.cleared, h.quiet⟩
  | commitSweep c =>
      obtain ⟨now, evicted, _, rfl⟩ := driver_commitSweep hstep
      refine ⟨?_, h.quiet⟩
      by_cases hd : d ∈ evicted
      · cases hrow : s.store.profiles d <;>
          simp [DriverStore.Available, DriverState.commitSweep, hd, hrow]
      · simpa [DriverStore.Available, DriverState.commitSweep, hd] using h.cleared
  | abortSweep c =>
      obtain ⟨stage, _, _, rfl⟩ := driver_abortSweep hstep
      exact ⟨h.cleared, h.quiet⟩
  | advance seconds =>
      obtain rfl := driver_advance hstep
      exact ⟨h.cleared, h.quiet⟩

/-- The COMMIT of a `set_availability(false)` of the driver, or of a sweep that
has evicted the driver. -/
def DriverState.Withdraws (s : DriverState) (d : UserId) : DriverAction → Prop
  | .commit q => ∃ user loaded changed fresh,
      s.requests q = some (⟨user, .setAvailability false⟩, .committing loaded changed fresh) ∧
        user.id = d
  | .commitSweep c => ∃ now evicted, s.sweeps c = some (.sweeping now [] evicted) ∧ d ∈ evicted
  | _ => False

/-- Such a COMMIT leaves the flag cleared. -/
theorem withdraws_clears {cfg : Settings} {a : DriverAction} (hbooks : DriverBooks s)
    (hok : undisturbed s a = true) (ha : s.Withdraws d a) (hstep : driverStep cfg s a = some t) :
    ¬ t.store.Available d := by
  cases a with
  | commit q =>
      obtain ⟨user, loaded, changed, fresh, hreq, rfl⟩ := ha
      obtain ⟨hholds, now, command, hhandle⟩ := hbooks.fine hreq
      have hchanged : changed.isAvailable = false := by
        rcases handle_ok hhandle with ⟨_, hrequest, _⟩ | ⟨_, _, hrequest, _⟩ | ⟨_, rfl, _⟩ |
          ⟨hrequest, _⟩
        · cases hrequest
        · cases hrequest
        · rfl
        · cases hrequest
      obtain ⟨call, loaded', changed', fresh', hreq', hcase⟩ := driver_commit hstep
      cases hreq.symm.trans hreq'
      rcases hcase with ⟨_, rfl⟩ | ⟨_, row, hrow, rfl⟩ | ⟨hfresh, hnone, _⟩
      · simp [DriverStore.Available, DriverState.commitInsert, hchanged]
      · cases hloaded : loaded.isAvailable with
        | true =>
            simp [DriverStore.Available, DriverState.commitUpdate, DriverProfile.flush, hloaded,
              hchanged]
        | false =>
            -- nothing was changed, so nothing is written
            have hstays : ¬ s.store.Available user.id := by
              simpa [undisturbed, hreq, hloaded] using hok
            simpa [DriverStore.Available, DriverState.commitUpdate, DriverProfile.flush, hloaded,
              hchanged, hrow] using hstays
      · subst hfresh
        exact absurd hnone hholds
  | commitSweep c =>
      obtain ⟨now, evicted, hc, hmem⟩ := ha
      obtain ⟨now', evicted', hc', rfl⟩ := driver_commitSweep hstep
      cases hc.symm.trans hc'
      cases hrow : s.store.profiles d <;>
        simp [DriverStore.Available, DriverState.commitSweep, hmem, hrow]
  | begin => cases ha
  | read => cases ha
  | insert => cases ha
  | handle => cases ha
  | redis => cases ha
  | abort => cases ha
  | beginSweep => cases ha
  | selectStale => cases ha
  | removeStale => cases ha
  | abortSweep => cases ha
  | advance => cases ha

end Steps

section Runs

variable {cfg : Settings} {acts : List DriverAction} {s : DriverState}

theorem driver_books_kept {ok : DriverState → DriverAction → Prop}
    (h : Steps (driverSystem cfg) ok .init acts s) : DriverBooks s :=
  h.invariant DriverBooks driverBooks_init fun _ _ _ hs _ hstep => step_driverBooks hs hstep

/-- A state that is reached without disturbance has no ghosts. -/
theorem no_ghost_kept (h : Steps (driverSystem cfg) (fun s a => undisturbed s a) .init acts s) :
    NoGhost s := by
  have hempty : NoGhost .init := by
    rintro d ⟨m, hm, _⟩
    cases hm
  exact h.invariant_under DriverBooks NoGhost driverBooks_init hempty
    (fun _ _ _ hs hstep => step_driverBooks hs hstep)
    fun _ _ _ hs hghost hok hstep => step_noGhost hs hghost hok hstep

/-- **No ghost drivers.**  In every undisturbed run a driver for whom nothing
is in flight is in the pool only if the committed profile is available; and
once a `set_availability(false)` or an eviction has finished, with no
`set_availability(true)` in flight, the driver is found by nobody until a later
one begins. -/
theorem no_ghost_drivers
    (h : Steps (driverSystem cfg) (fun s a => undisturbed s a) .init acts s) :
    (∀ d, s.Idle d → s.store.InPool d → s.store.Available d) ∧
    ∀ d a t, s.Withdraws d a → undisturbed s a = true → driverStep cfg s a = some t →
      (∀ q call stage, t.requests q = some (call, stage) → call.user.id = d →
        call.request = .setAvailability true → ∃ outcome, stage = .answered outcome) →
      ∀ more u, Steps (driverSystem cfg)
          (fun s a => undisturbed s a = true ∧ a.asksFor d = false) t more u →
        ∀ dist lat lng found, findNearbyDrivers cfg dist u.store.pool lat lng = some found →
          d ∉ found := by
  constructor
  · intro d hidle hin
    rcases (no_ghost_kept h d hin).2 with havail | hen
    · exact havail
    · obtain ⟨q, _, call, stage, hq, hd, hen⟩ := pending_iff.mp hen
      obtain ⟨outcome, rfl⟩ := hidle.1 q call stage hq hd
      cases hen
  · intro d a t hwithdraws hok hstep hquiet more u hmore dist lat lng found hfound hd
    have ht : Steps (driverSystem cfg) (fun s a => undisturbed s a) .init (acts ++ [a]) t :=
      h.snoc hok hstep
    have hu : Steps (driverSystem cfg) (fun s a => undisturbed s a) .init (acts ++ [a] ++ more)
        u := ht.trans (hmore.mono fun _ _ hboth => hboth.1)
    have hbooks := driver_books_kept h
    have hout : Withdrawn d t :=
      ⟨withdraws_clears hbooks hok hwithdraws hstep, fun hq => hquiet _ _ _ hq⟩
    have hstays : Withdrawn d u :=
      hmore.invariant_under DriverBooks (Withdrawn d) (driver_books_kept ht) hout
        (fun _ _ _ hs hstep => step_driverBooks hs hstep)
        fun _ _ _ hs hw hadmit hstep => step_withdrawn hs hw hadmit.2 hstep
    rcases (no_ghost_kept hu d (found_in_pool hfound hd)).2 with havail | hen
    · exact hstays.cleared havail
    · cases (hstays.not_enabling (driver_books_kept hu)).symm.trans hen

end Runs

/-! ### Two runs -/

/-- The requests of one driver that have begun have ended, and no sweep has
begun. -/
def DriverState.quietFor (s : DriverState) (d : UserId) : Bool :=
  (s.begun.all fun q => (s.requests q).any fun r =>
    r.1.user.id ≠ d || r.2 matches .answered _) && s.sweepsBegun.isEmpty

theorem idle_of_quietFor {s : DriverState} {d : UserId} (hbooks : DriverBooks s)
    (h : s.quietFor d = true) : s.Idle d := by
  simp only [DriverState.quietFor, Bool.and_eq_true, List.all_eq_true,
    List.isEmpty_iff] at h
  constructor
  · intro q call stage hq hd
    have hstage := h.1 q (hbooks.known hq)
    cases stage with
    | answered outcome => exact ⟨outcome, rfl⟩
    | starting => simp [hq, hd] at hstage
    | creating => simp [hq, hd] at hstage
    | loaded => simp [hq, hd] at hstage
    | sending => simp [hq, hd] at hstage
    | committing => simp [hq, hd] at hstage
  · intro c now todo evicted hc
    have hbegun := hbooks.swept hc
    simp [h.2] at hbegun

/-- A first heartbeat: it has to create the profile, and nothing is sent. -/
def firstHeartbeat (q : DriverReqId) (d : UserId) : List DriverAction :=
  [.begin q (sampleUser d .driver) (.heartbeat sampleHeartbeat), .read q, .insert q, .handle q,
    .commit q]

/-- A request up to its Redis command. -/
def upToRedis (q : DriverReqId) (d : UserId) (request : DriverRequest) : List DriverAction :=
  [.begin q (sampleUser d .driver) request, .read q, .handle q]

/-- The driver appears at the pickup point of `sampleBody`. -/
def goesOnline (q q' : DriverReqId) (d : UserId) : List DriverAction :=
  firstHeartbeat q d ++ upToRedis q' d (.setAvailability true) ++ [.redis q', .commit q']

/-- Drivers 2 and 4 go online; driver 4 goes offline again while a heartbeat of
driver 4 is under way, whose GEOADD comes before the ZREM. -/
def heartbeatThenOffline : List DriverAction :=
  goesOnline 0 1 2 ++ goesOnline 2 3 4 ++ upToRedis 4 4 (.setAvailability false) ++
    upToRedis 5 4 (.heartbeat sampleHeartbeat) ++ [.redis 5, .commit 5, .redis 4]

/-- Is driver 4 about to commit that it is offline? -/
def withdrawing : DriverCall × DriverStage → Bool
  | (⟨user, .setAvailability false⟩, .committing _ _ _) => user.id = 4
  | _ => false

/-- Driver 2 is found and available; driver 4 is about to commit, and is not
found after that. -/
theorem heartbeat_then_offline_leaves_no_ghost : ∃ s t,
    Steps (driverSystem {}) (fun s a => undisturbed s a) .init heartbeatThenOffline s ∧
    s.store.InPool 2 ∧ s.store.Available 2 ∧ driverStep {} s (.commit 4) = some t ∧
    ∀ dist lat lng found, findNearbyDrivers {} dist t.store.pool lat lng = some found →
      4 ∉ found := by
  have hreplay : (execWhere (driverSystem {}) (fun s a => undisturbed s a) .init
      heartbeatThenOffline).any (fun s => s.store.InPool 2 ∧ s.quietFor 2 ∧
        undisturbed s (.commit 4) ∧ (driverStep {} s (.commit 4)).any (·.quietFor 4) ∧
        (s.requests 4).any withdrawing) = true := by decide +kernel
  obtain ⟨s, hrun, hs⟩ := Steps.of_execWhere_any hreplay
  obtain ⟨hin, hquiet, hok, hcommit, hreq⟩ := of_decide_eq_true hs
  obtain ⟨t, hstep, hdone⟩ := (Option.any_eq_true _ _).mp hcommit
  obtain ⟨⟨⟨user, request⟩, stage⟩, hreq, hwithdraws⟩ := (Option.any_eq_true _ _).mp hreq
  have hbooks := driver_books_kept hrun
  have hbooks' : DriverBooks t := step_driverBooks hbooks hstep
  have hresult := no_ghost_drivers hrun
  refine ⟨s, t, hrun, hin, hresult.1 2 (idle_of_quietFor hbooks hquiet) hin, hstep, ?_⟩
  refine hresult.2 4 (.commit 4) t ?_ hok hstep ?_ [] t (.nil t)
  · unfold withdrawing at hwithdraws
    split at hwithdraws
    case h_1 heq =>
        cases heq
        exact ⟨_, _, _, _, hreq, of_decide_eq_true hwithdraws⟩
    case h_2 => cases hwithdraws
  · intro q call stage hq hd _
    exact (idle_of_quietFor hbooks' hdone).1 q call stage hq hd

/-- **A ghost driver.**  The heartbeat reads `is_available = true`, the driver
goes offline, and then the heartbeat sends its GEOADD. -/
theorem heartbeat_makes_ghost :
    ¬ ∀ (cfg : Settings) (acts : List DriverAction) (s : DriverState),
      Steps (driverSystem cfg) free .init acts s →
        ∀ d, s.Idle d → s.store.InPool d → s.store.Available d := by
  intro hclaim
  have hreplay : (exec (driverSystem {}) .init (goesOnline 0 1 2 ++
      upToRedis 2 2 (.heartbeat sampleHeartbeat) ++ upToRedis 3 2 (.setAvailability false) ++
      [.redis 3, .commit 3, .redis 2, .commit 2])).any
      (fun s => s.quietFor 2 ∧ s.store.InPool 2 ∧ ¬ s.store.Available 2) = true := by
    decide +kernel
  obtain ⟨s, hrun, hs⟩ := Steps.of_exec_any hreplay
  obtain ⟨hquiet, hin, hcleared⟩ := of_decide_eq_true hs
  exact hcleared (hclaim {} _ s hrun 2 (idle_of_quietFor (driver_books_kept hrun) hquiet) hin)

end RideFlow
