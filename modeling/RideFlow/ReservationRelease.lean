import RideFlow.ReservationKeys

/-!
# What a release frees

`release_driver_reservation` reads the key of its driver and deletes it in a
second command.  Between the two the key can go, and another ride can reserve
the driver.

* `release_frees_anothers_key` -- the DEL then removes the other ride's key;
* `release_frees_own_key` -- and it does so in no other way: what a DEL removes
  is the key of its own ride, or the release was overtaken like this.
-/

namespace RideFlow

open Function Runs Tables

/-- The DEL of a release removes no key of another ride. -/
def FreesOwnKey (s : ReservationState) (c : ReleaseId) : Prop :=
  ∀ d r key, s.releases c = some ⟨d, r, .deleting⟩ → s.keys d = some key → key.rideId = r

/-- The release of driver `d` for ride `r` was overtaken: after its GET had seen
a key of `r`, that key expired or another release removed it, and after that a
scan reserved the driver for the ride `other`. -/
def Overtaken (cfg : Settings) (start : ReservationState) (acts : List ReservationAction)
    (s : ReservationState) (c : ReleaseId) (d : UserId) (r other : RideId) : Prop :=
  ∃ front between after back lost p u v u' v' u'' v'' seen key,
    acts = front ++ .get c :: (between ++ lost :: (after ++ .tryReserve p :: back)) ∧
    -- the GET
    Moment (reservationSystem cfg) free start front u (.get c) v ∧
    u.keys d = some seen ∧ seen.rideId = r ∧
    -- the key goes
    Moment (reservationSystem cfg) free v between u' lost v' ∧
    (lost = .expire d ∨ ∃ c', c' ≠ c ∧ lost = .delete c') ∧
    u'.keys d = some seen ∧ v'.keys d = none ∧
    -- another key takes its place, and stays until the DEL
    Moment (reservationSystem cfg) free v' after u'' (.tryReserve p) v'' ∧
    u''.keys d = none ∧ v''.keys d = some key ∧ key.rideId = other ∧
    Steps (reservationSystem cfg) free v'' back s ∧ s.keys d = some key

section Steps

variable {cfg : Settings} {s t : ReservationState} {a : ReservationAction} {c : ReleaseId}
  {d : UserId}

/-- What a step does to a release: nothing, or it begins, or its GET is answered,
or its DEL. -/
theorem release_cases (hstep : reservationStep cfg s a = some t) (c : ReleaseId) :
    t.releases c = s.releases c ∨
      (s.releases c = none ∧ ∃ d r, t.releases c = some ⟨d, r, .asking⟩) ∨
      (∃ d r, a = .get c ∧ t.keys = s.keys ∧ s.releases c = some ⟨d, r, .asking⟩ ∧
        ((∃ seen, s.keys d = some seen ∧ seen.rideId = r ∧
            t.releases c = some ⟨d, r, .deleting⟩) ∨
          t.releases c = some ⟨d, r, .returned false⟩)) ∨
      ∃ d r, a = .delete c ∧ s.releases c = some ⟨d, r, .deleting⟩ ∧
        t.releases c = some ⟨d, r, .returned true⟩ := by
  cases a with
  | find p rideId candidates =>
      obtain ⟨_, rfl⟩ := reservation_find hstep
      exact Or.inl rfl
  | tryReserve p =>
      rcases reservation_try hstep with ⟨_, _, _, _, rfl⟩ |
        ⟨_, _, _, _, _, _, ⟨_, rfl⟩ | ⟨_, rfl⟩⟩
      · exact Or.inl rfl
      · exact Or.inl rfl
      · exact Or.inl rfl
  | release p driverId rideId =>
      obtain ⟨hnone, rfl⟩ := reservation_release hstep
      by_cases hc : c = p
      · subst hc
        exact Or.inr (Or.inl ⟨hnone, driverId, rideId, update_self ..⟩)
      · exact Or.inl (update_of_ne hc _ _)
  | get p =>
      obtain ⟨driverId, rideId, hasking, hcases⟩ := reservation_get hstep
      by_cases hc : c = p
      · subst hc
        refine Or.inr (Or.inr (Or.inl ⟨driverId, rideId, rfl, ?_, hasking, ?_⟩))
        · rcases hcases with ⟨_, rfl⟩ | ⟨_, rfl⟩
          · rfl
          · rfl
        · rcases hcases with ⟨hholds, rfl⟩ | ⟨_, rfl⟩
          · obtain ⟨seen, hseen, hride⟩ := Option.map_eq_some_iff.mp (of_decide_eq_true hholds)
            exact Or.inl ⟨seen, hseen, hride, update_self ..⟩
          · exact Or.inr (update_self ..)
      · rcases hcases with ⟨_, rfl⟩ | ⟨_, rfl⟩
        · exact Or.inl (update_of_ne hc _ _)
        · exact Or.inl (update_of_ne hc _ _)
  | delete p =>
      obtain ⟨driverId, rideId, hdeleting, rfl⟩ := reservation_delete hstep
      by_cases hc : c = p
      · subst hc
        exact Or.inr (Or.inr (Or.inr ⟨driverId, rideId, rfl, hdeleting, update_self ..⟩))
      · exact Or.inl (update_of_ne hc _ _)
  | expire d =>
      obtain ⟨_, _, _, rfl⟩ := reservation_expire hstep
      exact Or.inl rfl
  | advance seconds =>
      obtain rfl := reservation_advance hstep
      exact Or.inl rfl

/-- A release comes to its DEL by a GET that saw a key of its ride. -/
theorem deleting_origin (hstep : reservationStep cfg s a = some t) {r : RideId}
    (h : t.releases c = some ⟨d, r, .deleting⟩) :
    s.releases c = some ⟨d, r, .deleting⟩ ∨
      (a = .get c ∧ t.keys = s.keys ∧ ∃ seen, s.keys d = some seen ∧ seen.rideId = r) := by
  rcases release_cases hstep c with hsame | ⟨_, _, _, hnew⟩ |
    ⟨_, _, hget, hkeys, _, ⟨seen, hseen, hride, hnew⟩ | hnew⟩ | ⟨_, _, _, _, hnew⟩
  · exact Or.inl (hsame ▸ h)
  · cases hnew.symm.trans h
  · cases hnew.symm.trans h
    exact Or.inr ⟨hget, hkeys, seen, hseen, hride⟩
  · cases hnew.symm.trans h
  · cases hnew.symm.trans h

/-- A release that has returned has returned. -/
theorem returned_kept (hstep : reservationStep cfg s a = some t) {r : RideId} {released : Bool}
    (h : s.releases c = some ⟨d, r, .returned released⟩) :
    t.releases c = some ⟨d, r, .returned released⟩ := by
  rcases release_cases hstep c with hsame | ⟨hnone, _⟩ | ⟨_, _, _, _, hasking, _⟩ |
    ⟨_, _, _, hdeleting, _⟩
  · exact hsame.trans h
  · cases hnone.symm.trans h
  · cases hasking.symm.trans h
  · cases hdeleting.symm.trans h

/-- What a step does to the key of a driver: nothing, or it sets it where it
was free, or it removes it. -/
theorem key_cases (hstep : reservationStep cfg s a = some t) (d : UserId) :
    t.keys d = s.keys d ∨ (∃ p, a = .tryReserve p ∧ s.keys d = none) ∨
      (t.keys d = none ∧ (a = .expire d ∨ ∃ c, a = .delete c)) := by
  cases a with
  | find c rideId candidates =>
      obtain ⟨_, rfl⟩ := reservation_find hstep
      exact Or.inl rfl
  | tryReserve c =>
      rcases reservation_try hstep with ⟨_, _, _, _, rfl⟩ |
        ⟨_, _, _, e, _, _, ⟨_, rfl⟩ | ⟨hfree, rfl⟩⟩
      · exact Or.inl rfl
      · exact Or.inl rfl
      · by_cases hd : d = e
        · subst hd
          exact Or.inr (Or.inl ⟨c, rfl, hfree⟩)
        · exact Or.inl (update_of_ne hd _ _)
  | release c driverId rideId =>
      obtain ⟨_, rfl⟩ := reservation_release hstep
      exact Or.inl rfl
  | get c =>
      obtain ⟨_, _, _, ⟨_, rfl⟩ | ⟨_, rfl⟩⟩ := reservation_get hstep
      · exact Or.inl rfl
      · exact Or.inl rfl
  | delete c =>
      obtain ⟨e, _, _, rfl⟩ := reservation_delete hstep
      by_cases hd : d = e
      · subst hd
        exact Or.inr (Or.inr ⟨update_self .., Or.inr ⟨c, rfl⟩⟩)
      · exact Or.inl (update_of_ne hd _ _)
  | expire e =>
      obtain ⟨_, _, _, rfl⟩ := reservation_expire hstep
      by_cases hd : d = e
      · subst hd
        exact Or.inr (Or.inr ⟨update_self .., Or.inl rfl⟩)
      · exact Or.inl (update_of_ne hd _ _)
  | advance seconds =>
      obtain rfl := reservation_advance hstep
      exact Or.inl rfl

/-- A DEL is the last thing that a release does. -/
theorem delete_last (hstep : reservationStep cfg s (.delete c) = some t)
    {more : List ReservationAction} {u : ReservationState}
    (h : Steps (reservationSystem cfg) free t more u) {r : RideId} :
    u.releases c ≠ some ⟨d, r, .deleting⟩ := by
  obtain ⟨driverId, rideId, _, rfl⟩ := reservation_delete hstep
  have hover : u.releases c = some ⟨driverId, rideId, .returned true⟩ :=
    h.invariant (fun u => u.releases c = some ⟨driverId, rideId, .returned true⟩)
      (update_self ..) fun _ _ _ hu _ hnext => returned_kept hnext hu
  rw [hover]
  simp

/-- **What a release frees.**  In every run, what a DEL removes is a key of its
own ride, or the release was overtaken: its own key expired or was removed by
another release after its GET, and another ride reserved the driver after that. -/
theorem release_frees_own_key {keys : Reservations} {now : Timestamp}
    {acts : List ReservationAction}
    (h : Steps (reservationSystem cfg) free (.start keys now) acts s)
    (hstep : reservationStep cfg s (.delete c) = some t) :
    ∃ d r, s.releases c = some ⟨d, r, .deleting⟩ ∧ (∀ e, e ≠ d → t.keys e = s.keys e) ∧
      ∀ key, s.keys d = some key → key.rideId = r ∨
        Overtaken cfg (.start keys now) acts s c d r key.rideId := by
  obtain ⟨d, r, hdeleting, rfl⟩ := reservation_delete hstep
  refine ⟨d, r, hdeleting, fun e he => update_of_ne he _ _, fun key hkey => ?_⟩
  by_cases hown : key.rideId = r
  · exact Or.inl hown
  refine Or.inr ?_
  -- the GET is where the release came to its DEL
  obtain ⟨front, a, rest, u, v, rfl, hget, hbefore, hafter, hrest⟩ := h.turning_point
    (fun u => u.releases c ≠ some ⟨d, r, .deleting⟩) (by simp [ReservationState.start])
    (not_not_intro hdeleting)
  rcases deleting_origin hget.taken (not_not.mp hafter) with hold | ⟨rfl, hkeys, seen, hseen, hride⟩
  · exact absurd hold hbefore
  -- the key that it saw is not the one that is there now
  obtain ⟨between, lost, rest', u', v', rfl, hlost, hstill, hgone, hrest'⟩ := hrest.turning_point
    (fun u => u.keys d = some seen) (hkeys ▸ hseen) (by
      intro hsame
      obtain rfl := Option.some.inj (hkey.symm.trans hsame)
      exact hown hride)
  have hfreed : v'.keys d = none ∧ (lost = .expire d ∨ ∃ c', c' ≠ c ∧ lost = .delete c') := by
    rcases key_cases hlost.taken d with hsame | ⟨_, _, hfree⟩ | ⟨hnone, hexpire | ⟨c', rfl⟩⟩
    · exact absurd (hsame.trans hstill) hgone
    · cases hfree.symm.trans hstill
    · exact ⟨hnone, Or.inl hexpire⟩
    · refine ⟨hnone, Or.inr ⟨c', ?_, rfl⟩⟩
      rintro rfl
      exact delete_last hlost.taken hrest' hdeleting
  -- and the one that is there now was set after that one had gone
  obtain ⟨after, a, back, u'', v'', rfl, hset, hnot, hnow, hback⟩ := hrest'.turning_point
    (fun u => u.keys d ≠ some key) (by simp [hfreed.1]) (not_not_intro hkey)
  rcases key_cases hset.taken d with hsame | ⟨p, rfl, hfree⟩ | ⟨hnone, _⟩
  · exact absurd (hsame ▸ not_not.mp hnow) hnot
  · exact ⟨front, between, after, back, lost, p, u, v, u', v', u'', v'', seen, key, rfl, hget,
      hseen, hride, hlost, hfreed.2, hstill, hfreed.1, hset, hfree, not_not.mp hnow, rfl, hback,
      hkey⟩
  · rw [hnone] at hnow
    simp at hnow

end Steps

/-- Driver 2 is reserved for ride 10, whose release reads the key; the key
expires, and ride 11 reserves the driver. -/
def overtakenRelease : List ReservationAction :=
  [.release 0 2 10, .get 0, .advance 15, .expire 2, .find 0 11 [2], .tryReserve 0]

def keyOfRideTen : Reservations := update (fun _ => none) 2 (some ⟨10, 15⟩)

/-- **A release frees another ride's key.** -/
theorem release_frees_anothers_key :
    ¬ ∀ (cfg : Settings) (keys : Reservations) (now : Timestamp) (acts : List ReservationAction)
      (s : ReservationState), Steps (reservationSystem cfg) free (.start keys now) acts s →
        ∀ c, FreesOwnKey s c := by
  intro hclaim
  have hreplay : (exec (reservationSystem {}) (.start keyOfRideTen 0) overtakenRelease).any
      (fun s => s.releases 0 = some ⟨2, 10, .deleting⟩ ∧ s.keys 2 = some ⟨11, 30⟩) = true := by
    decide
  obtain ⟨s, hrun, hs⟩ := Steps.of_exec_any hreplay
  obtain ⟨hdeleting, hkey⟩ := of_decide_eq_true hs
  have hsame : 11 = 10 := hclaim {} keyOfRideTen 0 _ s hrun 0 2 10 _ hdeleting hkey
  cases hsame

/-- A release that nobody overtakes. -/
theorem undisturbed_release : ∃ s t,
    Steps (reservationSystem {}) free (.start keyOfRideTen 0) [.release 0 2 10, .get 0] s ∧
    reservationStep {} s (.delete 0) = some t ∧ s.keys 2 = some ⟨10, 15⟩ ∧ t.keys 2 = none ∧
    ∃ d r, s.releases 0 = some ⟨d, r, .deleting⟩ ∧ (∀ e, e ≠ d → t.keys e = s.keys e) ∧
      ∀ key, s.keys d = some key → key.rideId = r ∨
        Overtaken {} (.start keyOfRideTen 0) [.release 0 2 10, .get 0] s 0 d r key.rideId := by
  have hreplay : (exec (reservationSystem {}) (.start keyOfRideTen 0)
      [.release 0 2 10, .get 0]).any (fun s => s.keys 2 = some ⟨10, 15⟩ ∧
        (reservationStep {} s (.delete 0)).any fun t => t.keys 2 = none) = true := by decide
  obtain ⟨s, hrun, hs⟩ := Steps.of_exec_any hreplay
  obtain ⟨hkey, hdelete⟩ := of_decide_eq_true hs
  obtain ⟨t, hstep, hnone⟩ := (Option.any_eq_true _ _).mp hdelete
  exact ⟨s, t, hrun, hstep, hkey, of_decide_eq_true hnone, release_frees_own_key hrun hstep⟩

end RideFlow
