import RideFlow.Idempotency
import RideFlow.RideRequests
import RideFlow.Server

/-!
# What every row of the server carries

A ride is known to the server in three places: committed in the table, updated
by a transition that has not committed yet, and INSERTed by a creation that has
not committed yet.  What holds of every new ride and is kept by the SET clause
of an UPDATE holds of all of them, in every run (`rides_carry`).

The drivers' requests share nothing with the other systems but the clock, so that
a run of the server is seen from them as a run of their own (`drivers_run`), and
so do the creations (`creates_run`).
-/

namespace RideFlow

open Function Runs Tables

/-- `P` holds of every committed ride, which is stored under its id, and of
every row that a transition holds. -/
structure AllRides (P : Ride → Prop) (s : RideState) : Prop where
  keyed : ∀ r ride, s.rides r = some ride → ride.id = r
  committed : ∀ r ride, s.rides r = some ride → P ride
  held : ∀ q call ride pending todo, s.requests q = some (call, .holding ride pending todo) →
    P ride

/-- New rides have it, when their request bodies are `fine`, and the SET clause of
a legal UPDATE keeps it. -/
structure Inherited (fine : RideCreateRequest → Prop) (P : Ride → Prop) : Prop where
  born : ∀ id user payload fare key now, fine payload →
    P (newRide id user payload fare key now)
  kept : ∀ row status target extra now, P row → target ∈ rideTransitions status →
    P (row.set target extra now)

section Transitions

variable {cfg : Settings} {fine : RideCreateRequest → Prop} {P : Ride → Prop} {s t : RideState}
  {a : RideAction}

theorem Inherited.written (hP : Inherited fine P) {e : Applied} (h : P e.replaced) :
    P e.written := by
  obtain ⟨hlegal, _, hwritten, _⟩ := e.spec
  rw [hwritten]
  exact hP.kept _ _ _ _ _ h hlegal

/-- A committed row was committed before, or held by the transition that has
just ended; no transition makes a new one. -/
theorem committed_origin {b : ServerAction} (hbegun : a.BegunBy b)
    (hstep : rideStep cfg s a = some t) {r : RideId} {ride : Ride}
    (hride : t.rides r = some ride) :
    s.rides r = some ride ∨
      r = ride.id ∧ ∃ q call pending, s.requests q = some (call, .holding ride pending .commit) := by
  rcases step_effects hstep with ⟨_, hsame, _⟩ | ⟨_, hserved, _, _, _⟩ |
    ⟨q, call, written, pending, _, hreq, rfl⟩
  · rw [hsame] at hride
    exact Or.inl hride
  · cases a with
    | create _ _ _ _ _ => exact absurd hbegun id
    | advance _ =>
        obtain rfl := step_advance hstep
        exact Or.inl hride
    | expire _ =>
        obtain ⟨_, _, _, rfl⟩ := step_expire hstep
        exact Or.inl hride
    | _ => cases hserved
  · rcases update_some_iff.mp hride with ⟨rfl, rfl⟩ | ⟨_, hold⟩
    · exact Or.inr ⟨rfl, q, call, pending, hreq⟩
    · exact Or.inl hold

/-- A transition holds the row that it has written, over a committed one or
over its own. -/
theorem held_kept (hP : Inherited fine P) (h : AllRides P s) (hstep : rideStep cfg s a = some t)
    {q : ReqId} {call : TransitionCall} {ride : Ride} {pending : List Applied} {todo : Todo}
    (hreq : t.requests q = some (call, .holding ride pending todo)) : P ride := by
  rcases stage_origin hreq hstep with hold | ⟨before, hbefore, hadvances⟩
  · exact h.held q call ride pending todo hold
  · cases hadvances with
    | update hadds _ =>
        cases hadds with
        | first _ hrow _ _ _ _ _ => exact hP.written (h.committed _ _ hrow)
    | work _ _ => exact h.held _ _ _ _ _ hbefore
    | resolve hadds =>
        cases hadds with
        | second hreq' _ _ hrow _ _ => exact hP.written (hrow ▸ h.held _ _ _ _ _ hreq')

theorem step_allRides (hP : Inherited fine P) (h : AllRides P s) {b : ServerAction}
    (hbegun : a.BegunBy b) (hstep : rideStep cfg s a = some t) : AllRides P t where
  keyed := by
    intro r ride hride
    rcases committed_origin hbegun hstep hride with hold | ⟨rfl, _⟩
    · exact h.keyed r ride hold
    · rfl
  committed := by
    intro r ride hride
    rcases committed_origin hbegun hstep hride with hold | ⟨_, q, call, pending, hreq⟩
    · exact h.committed r ride hold
    · exact h.held q call ride pending _ hreq
  held := fun _ _ _ _ _ hreq => held_kept hP h hstep hreq

/-- A new row that has it joins the others. -/
theorem AllRides.insert (h : AllRides P s) {new : Ride} (hnew : P new) :
    AllRides P (s.insert (some new)) where
  keyed := by
    intro r ride hride
    rcases update_some_iff.mp hride with ⟨rfl, rfl⟩ | ⟨_, hold⟩
    · rfl
    · exact h.keyed r ride hold
  committed := by
    intro r ride hride
    rcases update_some_iff.mp hride with ⟨_, rfl⟩ | ⟨_, hold⟩
    · exact hnew
    · exact h.committed r ride hold
  held := h.held

end Transitions

section Server

variable {cfg : Settings} {fns : ServerFunctions} {ok : ServerState → ServerAction → Prop}
  {fine : RideCreateRequest → Prop} {P : Ride → Prop} {s t : ServerState} {a : ServerAction}
  {users : List User} {acts : List ServerAction}

/-- The drivers' requests and the sweeps of a server run are a run of their
own. -/
theorem drivers_run (h : Steps (serverSystem cfg fns) ok (.init users) acts s) :
    ∃ seen, Steps (driverSystem cfg) (fun _ b => ∃ a ∈ acts, b.BegunBy a) .init seen
      s.drivers := by
  refine h.scheduled.simulate ServerState.drivers (fun _ => True) trivial
    (fun _ _ _ _ _ _ => trivial) ?_
  intro s a t _ hok hstep
  rcases server_drivers hstep with hsame | ⟨b, hbegun, _, hdriver⟩
  · exact Or.inl hsame
  · exact Or.inr ⟨b, ⟨a, hok.2, hbegun⟩, hdriver⟩

/-- The creations and cleanups of a server run are a run of their own. -/
theorem creates_run (h : Steps (serverSystem cfg fns) ok s acts t) :
    ∃ seen, Steps (createSystem fns.body) free s.creates seen t.creates := by
  refine h.simulate ServerState.creates (fun _ => True) trivial (fun _ _ _ _ _ _ => trivial) ?_
  intro u a v _ _ hstep
  rcases server_creates hstep with hsame | ⟨b, _, hcreate⟩
  · exact Or.inl hsame
  · exact Or.inr ⟨b, trivial, hcreate⟩

/-- The bodies of the creations that have arrived are fine. -/
def FineBodies (fine : RideCreateRequest → Prop) (acts : List ServerAction) : Prop :=
  ∀ q payload key token, .arrive (.createRide q payload key) token ∈ acts → fine payload

theorem step_finePayloads {b : CreateAction} {creates creates' : CreateState}
    (hfine : FineBodies fine acts)
    (h : ∀ q call stage, creates.requests q = some (call, stage) → fine call.payload)
    (ha : a ∈ acts) (hbegun : b.BegunBy a)
    (hstep : createStep fns.body creates b = some creates') :
    ∀ q call stage, creates'.requests q = some (call, stage) → fine call.payload := by
  intro q call stage hreq
  rcases create_call_origin hstep hreq with ⟨old, hold⟩ | ⟨user, payload, key, rfl, rfl⟩
  · exact h q call old hold
  · obtain ⟨token, rfl⟩ := hbegun
    exact hfine q _ key token ha

/-- **Every ride of a server run carries what rides inherit.** -/
theorem rides_carry (hP : Inherited fine P) (hfine : FineBodies fine acts)
    (h : Steps (serverSystem cfg fns) ok (.init users) acts s) : AllRides P s.rides := by
  have hinit : AllRides P RideState.init := by
    constructor <;> intros <;> simp_all [RideState.init]
  have hall := h.scheduled.invariant
    (fun s => (CreateBooks fns.body s.creates ∧
      ∀ q call stage, s.creates.requests q = some (call, stage) → fine call.payload) ∧
      AllRides P s.rides)
    ⟨⟨create_books_kept (.nil _ : Steps _ free _ _ _), fun _ _ _ hreq => by cases hreq⟩, hinit⟩ ?_
  · exact hall.2
  rintro s a t ⟨⟨hbooks, hpayloads⟩, hrides⟩ ⟨_, ha⟩ hstep
  constructor
  · rcases server_creates hstep with hsame | ⟨b, hbegun, hcreate⟩
    · rw [hsame]
      exact ⟨hbooks, hpayloads⟩
    · exact ⟨step_createBooks hbooks hcreate,
        step_finePayloads hfine hpayloads ha hbegun hcreate⟩
  · rcases server_rides hstep with
      hsame | ⟨b, hbegun, _, _, hride⟩ | ⟨q, call, ride, hreq, hinsert⟩
    · rw [hsame]
      exact hrides
    · exact step_allRides hP hrides hbegun hride
    · obtain ⟨id, rfl⟩ := hbooks.fine q call _ hreq
      rw [hinsert]
      exact hrides.insert (hP.born _ _ _ _ _ _ (hpayloads q call _ hreq))

end Server

end RideFlow
