import RideFlow.OutboxLog

/-!
# One ride request at a time

The ride system with a server that finishes one request before it begins the
next: `serving` names the request in flight, `create` waits for it as well.
Keys may expire and the clock may advance at any moment, and the request in
flight may fail at any point.

* `Serial.quiet` -- every other request has been answered;
* `Serial.read_stands` -- the row that the request has read is still stored
  when it comes to its UPDATE, whatever version it names;
* `serial_adds` -- so every UPDATE replaces the row that was checked.
-/

namespace RideFlow

open RowLocks Tables Function Runs

/-- The ride system and the request in flight. -/
structure Serial where
  base : RideState
  serving : Option ReqId

def Serial.init : Serial := ⟨.init, none⟩

/-- Is this action the server's next one?  A request begins, and a ride is
created, when nothing is in flight; any other action of a request must be of
the one in flight. -/
def Serial.admits (s : Serial) : RideAction → Bool
  | .create _ _ _ _ _ => s.serving.isNone
  | .begin _ _ _ _ => s.serving.isNone
  | a => a.request.all fun q => s.serving = some q

/-- Has the request been answered? -/
def Stage.isAnswered : Stage → Bool
  | .answered _ => true
  | _ => false

/-- The request in flight after an action led to `t`. -/
def Serial.next (s : Serial) (a : RideAction) (t : RideState) : Option ReqId :=
  match a.request with
  | none => s.serving
  | some q => if (t.requests q).any (fun c => c.2.isAnswered) then none else some q

/-- A step of the rides, if the scheduler admits it. -/
def serialStep (cfg : Settings) (s : Serial) (a : RideAction) : Option Serial :=
  if s.admits a then (rideStep cfg s.base a).map fun t => ⟨t, s.next a t⟩ else none

/-- The rides, with one request at a time. -/
def serialSystem (cfg : Settings) : System Serial RideAction := ⟨serialStep cfg⟩

section Step

variable {cfg : Settings} {s t : Serial} {a : RideAction}

/-- A step of the server is an admitted step of the ride system. -/
theorem step_serial (h : serialStep cfg s a = some t) :
    s.admits a = true ∧ rideStep cfg s.base a = some t.base ∧
      t.serving = s.next a t.base := by
  unfold serialStep at h
  split at h
  case isTrue hadmits =>
      obtain ⟨u, hu, rfl⟩ := Option.map_eq_some_iff.mp h
      exact ⟨hadmits, hu, rfl⟩
  case isFalse => cases h

/-- Every request but the one in flight has been answered. -/
def Serial.Quiet (s : Serial) : Prop :=
  ∀ p call stage, s.base.requests p = some (call, stage) →
    (∃ outcome, stage = .answered outcome) ∨ s.serving = some p

/-- An admitted action of a request finds nobody else in flight. -/
theorem Serial.admits_request {q : ReqId} (h : s.admits a = true) (hq : a.request = some q) :
    s.serving = none ∨ s.serving = some q := by
  cases a <;> simp_all [Serial.admits, RideAction.request]

/-- One step keeps the server quiet. -/
theorem step_quiet (h : s.Quiet) (hstep : serialStep cfg s a = some t) : t.Quiet := by
  obtain ⟨hadmits, hride, hserving⟩ := step_serial hstep
  intro p call stage hp
  rcases step_advances hride with ⟨hnone, hsame⟩ | ⟨q, call', _, after, _, hmoved, hadv⟩
  · rw [hsame] at hp
    rw [hserving, Serial.next, hnone]
    exact h p call stage hp
  · rw [hserving, Serial.next, hadv.served]
    rw [hmoved] at hp ⊢
    rcases update_some_iff.mp hp with ⟨rfl, hnew⟩ | ⟨hne, hold⟩
    · cases hnew
      cases stage with
      | answered outcome => exact Or.inl ⟨outcome, rfl⟩
      | loading => simp [Stage.isAnswered]
      | updating _ => simp [Stage.isAnswered]
      | holding _ _ _ => simp [Stage.isAnswered]
    · rcases h p call stage hold with hans | hserved
      · exact Or.inl hans
      · rcases Serial.admits_request hadmits hadv.served with hnobody | hsame
        · rw [hserved] at hnobody
          cases hnobody
        · rw [hserved] at hsame
          exact absurd (Option.some.inj hsame) hne

/-- Two requests that are both unanswered are one. -/
theorem Serial.Quiet.unique (h : s.Quiet) {p q : ReqId} {callP callQ : TransitionCall}
    {stageP stageQ : Stage} (hp : s.base.requests p = some (callP, stageP))
    (hq : s.base.requests q = some (callQ, stageQ))
    (hpOpen : ∀ outcome, stageP ≠ .answered outcome)
    (hqOpen : ∀ outcome, stageQ ≠ .answered outcome) : p = q := by
  rcases h p callP stageP hp with ⟨o, ho⟩ | hserveP
  · exact absurd ho (hpOpen o)
  · rcases h q callQ stageQ hq with ⟨o, ho⟩ | hserveQ
    · exact absurd ho (hqOpen o)
    · exact Option.some.inj (hserveP.symm.trans hserveQ)

/-- What the request in flight has read is still stored. -/
def Serial.ReadStands (s : Serial) : Prop :=
  ∀ q call ride, s.base.requests q = some (call, .updating ride) →
    s.base.rides ride.id = some ride

/-- One step keeps what has been read. -/
theorem step_readStands {good : Applied → Prop}
    (hsound : Sound rideSchema Born good s.base.store) (hquiet : s.Quiet)
    (h : s.ReadStands) (hstep : serialStep cfg s a = some t) : t.ReadStands := by
  obtain ⟨_, hride, _⟩ := step_serial hstep
  intro q call ride hreq
  rcases updating_origin hreq hride with hold | ⟨rfl, _, hread⟩
  · have hstored := h q call ride hold
    rcases step_effects hride with
      ⟨_, hsame, _⟩ | ⟨new, _, hfresh, _, hnew⟩ | ⟨p, callP, _, _, _, hp, _⟩
    · rw [hsame]
      exact hstored
    · rw [hnew]
      refine update_some_iff.mpr (Or.inr ⟨?_, hstored⟩)
      intro heq
      rw [heq, hfresh] at hstored
      cases hstored
    · obtain rfl : p = q := hquiet.unique hp hold (by simp) (by simp)
      rw [hp] at hold
      cases hold
  · have hkey : ride.id = call.rideId := hsound.row_key _ _ hread
    have hsame : t.base.rides = s.base.rides := by
      obtain ⟨_, _, ⟨_, hnext⟩ | ⟨_, _, _, hnext⟩⟩ := step_read hride
      · rw [hnext]
        rfl
      · rw [hnext]
        rfl
    rw [hsame, hkey]
    exact hread

/-- **An UPDATE replaces the row that was checked.** -/
theorem serial_adds (h : s.ReadStands) {e : Applied} (hadds : Adds s.base a e) :
    Rereads e := by
  cases hadds with
  | first hreq hrow _ hchecked _ _ _ =>
      have hstored := h _ _ _ hreq
      rw [hrow] at hstored
      rw [Rereads, hchecked]
      exact (Option.some.inj hstored).symm
  | second _ _ hchecked hrow _ _ => rw [Rereads, hchecked, hrow]

/-- What every run of the server keeps. -/
structure Serial.Settled (good : Applied → Prop) (s : Serial) : Prop where
  sound : Sound rideSchema Born good s.base.store
  quiet : s.Quiet
  stands : s.ReadStands

theorem settled_init {good : Applied → Prop} : Serial.init.Settled good where
  sound := sound_init
  quiet := by
    intro _ _ _ hreq
    cases hreq
  stands := by
    intro _ _ _ hreq
    cases hreq

/-- One step keeps the server settled. -/
theorem step_settled {good : Applied → Prop} (h : s.Settled good)
    (hgood : ∀ e, Adds s.base a e → Rereads e → good e)
    (hstep : serialStep cfg s a = some t) : t.Settled good where
  sound :=
    (step_move h.sound (fun e he => hgood e he (serial_adds h.stands he))
      (step_serial hstep).2.1).sound h.sound
  quiet := step_quiet h.quiet hstep
  stands := step_readStands h.sound h.quiet h.stands hstep

end Step

section Runs

variable {cfg : Settings} {ok : Serial → RideAction → Prop} {s : Serial}
  {acts : List RideAction}

/-- A run of the server is a run of the ride system. -/
theorem serial_run (h : Steps (serialSystem cfg) ok .init acts s) :
    Steps (rideSystem cfg) free .init acts s.base := by
  have hproject : Steps (rideSystem cfg) free Serial.init.base (acts.filterMap some) s.base :=
    h.project Serial.base some fun s a t _ hstep => ⟨trivial, (step_serial hstep).2.1⟩
  rw [List.filterMap_some] at hproject
  exact hproject

/-- **Every run of the server stays settled**, with what is known of the
updates that replace the row they checked. -/
theorem serial_settled {good : Applied → Prop}
    (hgood : ∀ s a e, ok s a → Adds s.base a e → Rereads e → good e)
    (h : Steps (serialSystem cfg) ok .init acts s) : s.Settled good :=
  h.invariant (Serial.Settled good) settled_init
    fun s a _ hs hok hstep => step_settled hs (fun e => hgood s a e hok) hstep

end Runs

end RideFlow
