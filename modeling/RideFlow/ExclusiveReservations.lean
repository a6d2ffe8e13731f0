import RideFlow.ReservationKeys

/-!
# Concurrent scans reserve different drivers

Any number of `find_and_reserve_driver` calls on one set of keys, none of which
expires or is released meanwhile.  `KeyBooks` balances the keys with what the
calls have returned, and every step keeps it; `TriesSpent` says of every
candidate that a call has left behind that it was reserved at that moment.
-/

namespace RideFlow

open Function Runs Tables

/-- The action frees no key. -/
def noneFreed : ReservationAction → Bool
  | .delete _ => false
  | .expire _ => false
  | _ => true

/-- The call has returned this. -/
def ReservationState.Returned (s : ReservationState) (c : ScanId) (scan : Scan)
    (driverId : Option UserId) : Prop :=
  s.scans c = some scan ∧ scan.stage = .returned driverId

/-- The keys are those of before, and one for each call that has returned a
driver. -/
structure KeyBooks (keys : Reservations) (s : ReservationState) : Prop where
  kept : ∀ d key, keys d = some key → s.keys d = some key
  own : ∀ d key, s.keys d = some key → keys d = some key ∨
    ∃ c scan, s.Returned c scan (some d) ∧ key.rideId = scan.rideId
  held : ∀ c scan d, s.Returned c scan (some d) → d ∈ scan.candidates ∧ keys d = none ∧
    ∃ key, s.keys d = some key ∧ key.rideId = scan.rideId
  once : ∀ c c' scan scan' d, s.Returned c scan (some d) → s.Returned c' scan' (some d) → c = c'

/-- At some moment of the run the call tried the driver, after these candidates
and before those, who was reserved. -/
def InVain (cfg : Settings) (start : ReservationState) (acts : List ReservationAction)
    (c : ScanId) (tried : List UserId) (d : UserId) (rest : List UserId) : Prop :=
  ∃ front back u v rideId candidates, acts = front ++ .tryReserve c :: back ∧
    Moment (reservationSystem cfg) free start front u (.tryReserve c) v ∧
    u.scans c = some ⟨rideId, candidates, .trying tried (d :: rest)⟩ ∧ (u.keys d).isSome

/-- The candidates that a call has behind it. -/
def Scan.spent (scan : Scan) : List UserId :=
  match scan.stage with
  | .trying tried _ => tried
  | .returned none => scan.candidates
  | .returned (some _) => []

/-- Every call tried what it has behind it in vain. -/
structure TriesSpent (cfg : Settings) (start : ReservationState) (acts : List ReservationAction)
    (s : ReservationState) : Prop where
  listed : ∀ c rideId candidates tried rest,
    s.scans c = some ⟨rideId, candidates, .trying tried rest⟩ → candidates = tried ++ rest
  vain : ∀ c scan tried d back, s.scans c = some scan → scan.spent = tried ++ d :: back →
    ∃ rest, scan.candidates = tried ++ d :: rest ∧ InVain cfg start acts c tried d rest

/-- The outcome of concurrent scans: different drivers, who were free, with one
key each, and no driver only where all were reserved. -/
structure Exclusive (cfg : Settings) (start : ReservationState) (acts : List ReservationAction)
    (s : ReservationState) : Prop where
  books : KeyBooks start.keys s
  vain : ∀ c scan tried d rest, s.Returned c scan none → scan.candidates = tried ++ d :: rest →
    InVain cfg start acts c tried d rest

section Keys

variable {cfg : Settings} {keys : Reservations} {s t : ReservationState} {a : ReservationAction}
  {c : ScanId} {scan : Scan}

/-- No key changes, and no call returns a driver. -/
theorem KeyBooks.same (h : KeyBooks keys s) (hkeys : t.keys = s.keys)
    (hreturned : ∀ c scan d, t.Returned c scan (some d) ↔ s.Returned c scan (some d)) :
    KeyBooks keys t where
  kept := by
    rw [hkeys]
    exact h.kept
  own := by
    simp only [hkeys, hreturned]
    exact h.own
  held := by
    simp only [hkeys, hreturned]
    exact h.held
  once := by
    simp only [hreturned]
    exact h.once

/-- A call that has not returned a driver goes on without returning one. -/
theorem returned_update (hscans : t.scans = update s.scans c (some scan))
    (hbefore : ∀ old d, ¬ s.Returned c old (some d)) (hafter : ∀ d, scan.stage ≠ .returned (some d))
    (p : ScanId) (other : Scan) (d : UserId) :
    t.Returned p other (some d) ↔ s.Returned p other (some d) := by
  unfold ReservationState.Returned
  rw [hscans]
  constructor
  · rintro ⟨hscan, hstage⟩
    rcases update_some_iff.mp hscan with ⟨_, rfl⟩ | ⟨_, hold⟩
    · exact absurd hstage (hafter d)
    · exact ⟨hold, hstage⟩
  · rintro ⟨hscan, hstage⟩
    refine ⟨update_some_iff.mpr (Or.inr ⟨?_, hscan⟩), hstage⟩
    rintro rfl
    exact hbefore other d ⟨hscan, hstage⟩

theorem trying_unreturned {rideId : RideId} {candidates tried rest : List UserId}
    (hscan : s.scans c = some ⟨rideId, candidates, .trying tried rest⟩) (old : Scan) (d : UserId) :
    ¬ s.Returned c old (some d) := by
  rintro ⟨hold, hstage⟩
  cases hscan.symm.trans hold
  cases hstage

/-- A SET NX that succeeds: the driver is the one of this call alone. -/
theorem KeyBooks.claim (h : KeyBooks keys s) {rideId : RideId}
    {candidates tried rest : List UserId} {d : UserId} {expiresAt : Timestamp}
    (hscan : s.scans c = some ⟨rideId, candidates, .trying tried (d :: rest)⟩)
    (hlisted : candidates = tried ++ d :: rest) (hfree : s.keys d = none) :
    KeyBooks keys { s.setScan c ⟨rideId, candidates, .returned (some d)⟩ with
      keys := update s.keys d (some ⟨rideId, expiresAt⟩) } := by
  -- who has returned a driver: this call, or another one, and not this driver
  have hsplit : ∀ p scan e,
      (s.setScan c ⟨rideId, candidates, .returned (some d)⟩).Returned p scan (some e) →
      (p = c ∧ scan = ⟨rideId, candidates, .returned (some d)⟩ ∧ e = d) ∨
        (e ≠ d ∧ s.Returned p scan (some e)) := by
    rintro p scan e ⟨hp, hstage⟩
    rcases update_some_iff.mp hp with ⟨hpc, rfl⟩ | ⟨_, hold⟩
    · cases hstage
      exact Or.inl ⟨hpc, rfl, rfl⟩
    · refine Or.inr ⟨?_, hold, hstage⟩
      rintro rfl
      obtain ⟨_, _, key, hkey, _⟩ := h.held p scan e ⟨hold, hstage⟩
      rw [hfree] at hkey
      cases hkey
  have hfresh : keys d = none := by
    cases hkey : keys d with
    | none => rfl
    | some key =>
        have hstill := h.kept d key hkey
        rw [hfree] at hstill
        cases hstill
  constructor
  · intro e key hkey
    refine update_some_iff.mpr (Or.inr ⟨?_, h.kept e key hkey⟩)
    rintro rfl
    rw [hfresh] at hkey
    cases hkey
  · intro e key hkey
    rcases update_some_iff.mp hkey with ⟨rfl, rfl⟩ | ⟨_, hold⟩
    · exact Or.inr ⟨c, _, ⟨update_self .., rfl⟩, rfl⟩
    · rcases h.own e key hold with hbefore | ⟨p, scan, ⟨hp, hstage⟩, hride⟩
      · exact Or.inl hbefore
      · refine Or.inr ⟨p, scan, ⟨update_some_iff.mpr (Or.inr ⟨?_, hp⟩), hstage⟩, hride⟩
        rintro rfl
        exact trying_unreturned hscan scan e ⟨hp, hstage⟩
  · intro p scan e hreturned
    rcases hsplit p scan e hreturned with ⟨rfl, rfl, rfl⟩ | ⟨hne, hold⟩
    · exact ⟨by simp [hlisted], hfresh, _, update_self .., rfl⟩
    · obtain ⟨hmem, hnone, key, hkey, hride⟩ := h.held p scan e hold
      exact ⟨hmem, hnone, key, update_some_iff.mpr (Or.inr ⟨hne, hkey⟩), hride⟩
  · intro p p' scan scan' e hreturned hreturned'
    rcases hsplit p scan e hreturned with ⟨rfl, _, rfl⟩ | ⟨hne, hold⟩
    · rcases hsplit p' scan' e hreturned' with ⟨rfl, _⟩ | ⟨hne, _⟩
      · rfl
      · exact absurd rfl hne
    · rcases hsplit p' scan' e hreturned' with ⟨_, _, rfl⟩ | ⟨_, hold'⟩
      · exact absurd rfl hne
      · exact h.once p p' scan scan' e hold hold'

/-- **Every step that frees no key keeps the books.** -/
theorem step_keyBooks {start : ReservationState} {acts : List ReservationAction}
    (hspent : TriesSpent cfg start acts s) (h : KeyBooks keys s) (hok : noneFreed a = true)
    (hstep : reservationStep cfg s a = some t) : KeyBooks keys t := by
  cases a with
  | find c rideId candidates =>
      obtain ⟨hnone, rfl⟩ := reservation_find hstep
      refine h.same rfl (returned_update rfl ?_ (by simp))
      rintro old d ⟨hold, _⟩
      rw [hnone] at hold
      cases hold
  | tryReserve c =>
      rcases reservation_try hstep with ⟨_, _, _, hscan, rfl⟩ |
        ⟨rideId, candidates, tried, d, rest, hscan, ⟨_, rfl⟩ | ⟨hfree, rfl⟩⟩
      · exact h.same rfl (returned_update rfl (trying_unreturned hscan) (by simp))
      · exact h.same rfl (returned_update rfl (trying_unreturned hscan) (by simp))
      · exact h.claim hscan (hspent.listed _ _ _ _ _ hscan) hfree
  | release c driverId rideId =>
      obtain ⟨_, rfl⟩ := reservation_release hstep
      exact h.same rfl fun _ _ _ => Iff.rfl
  | get c =>
      obtain ⟨_, _, _, ⟨_, rfl⟩ | ⟨_, rfl⟩⟩ := reservation_get hstep
      · exact h.same rfl fun _ _ _ => Iff.rfl
      · exact h.same rfl fun _ _ _ => Iff.rfl
  | delete _ => cases hok
  | expire _ => cases hok
  | advance seconds =>
      obtain rfl := reservation_advance hstep
      exact h.same rfl fun _ _ _ => Iff.rfl

end Keys

section Tries

variable {cfg : Settings} {start s t : ReservationState} {acts : List ReservationAction}
  {a : ReservationAction} {c : ScanId}

theorem InVain.longer (more : List ReservationAction) {tried rest : List UserId} {d : UserId}
    (h : InVain cfg start acts c tried d rest) :
    InVain cfg start (acts ++ more) c tried d rest := by
  obtain ⟨front, back, u, v, rideId, candidates, rfl, hmoment⟩ := h
  exact ⟨front, back ++ more, u, v, rideId, candidates, by simp, hmoment⟩

/-- No scan moves. -/
theorem TriesSpent.same (h : TriesSpent cfg start acts s) (hscans : t.scans = s.scans) :
    TriesSpent cfg start (acts ++ [a]) t where
  listed := by
    rw [hscans]
    exact h.listed
  vain := by
    intro p scan tried d back hp hspent
    rw [hscans] at hp
    obtain ⟨rest, hrest, hvain⟩ := h.vain p scan tried d back hp hspent
    exact ⟨rest, hrest, hvain.longer [a]⟩

/-- One scan moves. -/
theorem TriesSpent.move (h : TriesSpent cfg start acts s) {scan : Scan}
    (hscans : t.scans = update s.scans c (some scan))
    (hlisted : ∀ tried rest, scan.stage = .trying tried rest → scan.candidates = tried ++ rest)
    (hvain : ∀ tried d back, scan.spent = tried ++ d :: back →
      ∃ rest, scan.candidates = tried ++ d :: rest ∧
        InVain cfg start (acts ++ [a]) c tried d rest) :
    TriesSpent cfg start (acts ++ [a]) t where
  listed := by
    intro p rideId candidates tried rest hp
    rw [hscans] at hp
    rcases update_some_iff.mp hp with ⟨_, rfl⟩ | ⟨_, hold⟩
    · exact hlisted tried rest rfl
    · exact h.listed p rideId candidates tried rest hold
  vain := by
    intro p other tried d back hp hspent
    rw [hscans] at hp
    rcases update_some_iff.mp hp with ⟨rfl, rfl⟩ | ⟨_, hold⟩
    · exact hvain tried d back hspent
    · obtain ⟨rest, hrest, hbefore⟩ := h.vain p other tried d back hold hspent
      exact ⟨rest, hrest, hbefore.longer [a]⟩

/-- One more candidate was reserved. -/
theorem TriesSpent.miss (h : TriesSpent cfg start acts s) {rideId : RideId}
    {candidates tried rest : List UserId} {d : UserId}
    (hscan : s.scans c = some ⟨rideId, candidates, .trying tried (d :: rest)⟩)
    (hnow : InVain cfg start (acts ++ [a]) c tried d rest)
    (hscans : t.scans = update s.scans c
      (some ⟨rideId, candidates, .trying (tried ++ [d]) rest⟩)) :
    TriesSpent cfg start (acts ++ [a]) t := by
  have hlisted : candidates = tried ++ d :: rest := h.listed _ _ _ _ _ hscan
  refine h.move hscans ?_ ?_
  · rintro tried' rest' ⟨⟩
    simp [hlisted]
  · intro tried' e back hspent
    have hspent : tried ++ [d] = tried' ++ e :: back := hspent
    rcases List.eq_nil_or_concat back with rfl | ⟨back', x, rfl⟩
    · -- the last one
      obtain ⟨rfl, hlast⟩ := List.append_inj' hspent rfl
      obtain rfl : d = e := by simpa using hlast
      exact ⟨rest, hlisted, hnow⟩
    · rw [List.concat_eq_append, ← List.cons_append, ← List.append_assoc] at hspent
      obtain ⟨htried, _⟩ := List.append_inj' hspent rfl
      obtain ⟨rest', hrest, hvain⟩ := h.vain c _ tried' e back' hscan htried
      exact ⟨rest', hrest, hvain.longer [a]⟩

/-- The list is exhausted. -/
theorem TriesSpent.finish (h : TriesSpent cfg start acts s) {rideId : RideId}
    {candidates tried : List UserId}
    (hscan : s.scans c = some ⟨rideId, candidates, .trying tried []⟩)
    (hscans : t.scans = update s.scans c (some ⟨rideId, candidates, .returned none⟩)) :
    TriesSpent cfg start (acts ++ [a]) t := by
  have hlisted : candidates = tried ++ [] := h.listed _ _ _ _ _ hscan
  refine h.move hscans ?_ ?_
  · rintro tried' rest' ⟨⟩
  · intro tried' d back hspent
    have htried : tried = tried' ++ d :: back := by
      rw [← List.append_nil tried, ← hlisted]
      exact hspent
    obtain ⟨rest, hrest, hvain⟩ := h.vain c _ tried' d back hscan htried
    exact ⟨rest, hrest, hvain.longer [a]⟩

/-- **Every step keeps the tries.** -/
theorem step_triesSpent (hrun : Steps (reservationSystem cfg) free start acts s)
    (h : TriesSpent cfg start acts s) (hstep : reservationStep cfg s a = some t) :
    TriesSpent cfg start (acts ++ [a]) t := by
  cases a with
  | find c rideId candidates =>
      obtain ⟨_, rfl⟩ := reservation_find hstep
      refine h.move rfl ?_ ?_
      · rintro tried rest ⟨⟩
        rfl
      · intro tried d back hspent
        simp [Scan.spent] at hspent
  | tryReserve c =>
      have hmoment : Moment (reservationSystem cfg) free start acts s (.tryReserve c) t :=
        ⟨hrun, trivial, hstep⟩
      rcases reservation_try hstep with ⟨_, _, _, hscan, rfl⟩ |
        ⟨rideId, candidates, tried, d, rest, hscan, ⟨htaken, rfl⟩ | ⟨_, rfl⟩⟩
      · exact h.finish hscan rfl
      · exact h.miss hscan ⟨acts, [], s, _, _, _, rfl, hmoment, hscan, htaken⟩ rfl
      · refine h.move rfl ?_ ?_
        · rintro tried' rest' ⟨⟩
        · intro tried' e back hspent
          simp [Scan.spent] at hspent
  | release c driverId rideId =>
      obtain ⟨_, rfl⟩ := reservation_release hstep
      exact h.same rfl
  | get c =>
      obtain ⟨_, _, _, ⟨_, rfl⟩ | ⟨_, rfl⟩⟩ := reservation_get hstep
      · exact h.same rfl
      · exact h.same rfl
  | delete c =>
      obtain ⟨_, _, _, rfl⟩ := reservation_delete hstep
      exact h.same rfl
  | expire d =>
      obtain ⟨_, _, _, rfl⟩ := reservation_expire hstep
      exact h.same rfl
  | advance seconds =>
      obtain rfl := reservation_advance hstep
      exact h.same rfl

end Tries

section Main

variable {cfg : Settings} {keys : Reservations} {now : Timestamp} {s : ReservationState}
  {acts : List ReservationAction}

/-- Every run keeps the tries. -/
theorem tries_spent {ok : ReservationState → ReservationAction → Prop}
    (h : Steps (reservationSystem cfg) ok (.start keys now) acts s) :
    TriesSpent cfg (.start keys now) acts s := by
  refine h.history (TriesSpent cfg (.start keys now)) ?_ ?_
  · constructor <;> intros <;> simp_all [ReservationState.start]
  · intro acts u a v hrun hspent _ hstep
    exact step_triesSpent (hrun.mono fun _ _ _ => trivial) hspent hstep

/-- **Concurrent scans reserve different drivers.**  For any calls with any lists
of candidates, any keys at the start and any order of their commands, while no
key expires or is released: no driver is returned twice or was reserved at the
start, the keys are those of the start and one for each driver that was
returned, and a call that returned no driver had tried each of its candidates
when it was reserved. -/
theorem concurrent_scans_exclusive
    (h : Steps (reservationSystem cfg) (fun _ a => noneFreed a) (.start keys now) acts s) :
    Exclusive cfg (.start keys now) acts s where
  books := by
    have hinit : KeyBooks keys (.start keys now) := by
      constructor
      · exact fun _ _ hkey => hkey
      · exact fun _ _ hkey => Or.inl hkey
      · rintro c scan d ⟨hscan, _⟩
        cases hscan
      · rintro c c' scan scan' d ⟨hscan, _⟩
        cases hscan
    refine h.history (fun _ s => KeyBooks keys s) hinit ?_
    intro acts u a v hrun hbooks hok hstep
    exact step_keyBooks (tries_spent hrun) hbooks hok hstep
  vain := by
    rintro c scan tried d rest ⟨hscan, hstage⟩ hcandidates
    have hspent : scan.spent = tried ++ d :: rest := by
      rw [Scan.spent, hstage]
      exact hcandidates
    obtain ⟨rest', hrest, hvain⟩ := (tries_spent h).vain c scan tried d rest hscan hspent
    obtain ⟨_, hlast⟩ := List.append_inj (hcandidates.symm.trans hrest) rfl
    obtain rfl : rest = rest' := by simpa using hlast
    exact hvain

end Main

/-- Driver 5 is reserved for ride 9 at the start, and the lists of two calls
overlap. -/
def overlappingScans : List ReservationAction :=
  [.find 0 10 [5, 2, 3], .find 1 11 [2, 5], .tryReserve 0, .tryReserve 0, .tryReserve 1,
    .tryReserve 1, .tryReserve 1]

/-- The first call gets driver 2, and the second one none. -/
theorem overlapping_scans_exclusive : ∃ s,
    Steps (reservationSystem {}) (fun _ a => noneFreed a)
      (.start (update (fun _ => none) 5 (some ⟨9, 100⟩)) 0) overlappingScans s ∧
    s.Returned 0 ⟨10, [5, 2, 3], .returned (some 2)⟩ (some 2) ∧
    s.Returned 1 ⟨11, [2, 5], .returned none⟩ none ∧
    Exclusive {} (.start (update (fun _ => none) 5 (some ⟨9, 100⟩)) 0) overlappingScans s := by
  have hreplay : (execWhere (reservationSystem {}) (fun _ a => noneFreed a)
      (.start (update (fun _ => none) 5 (some ⟨9, 100⟩)) 0) overlappingScans).any
      (fun s => s.scans 0 = some ⟨10, [5, 2, 3], .returned (some 2)⟩ ∧
        s.scans 1 = some ⟨11, [2, 5], .returned none⟩) = true := by decide
  obtain ⟨s, hrun, hs⟩ := Steps.of_execWhere_any hreplay
  obtain ⟨hfirst, hsecond⟩ := of_decide_eq_true hs
  exact ⟨s, hrun, ⟨hfirst, rfl⟩, ⟨hsecond, rfl⟩, concurrent_scans_exclusive hrun⟩

end RideFlow
