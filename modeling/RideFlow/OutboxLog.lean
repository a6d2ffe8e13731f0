import RideFlow.Legality

/-!
# The outbox as a log of each ride

A client that transitions a ride with a version it was once given names a
version that its own request finds or has already missed.  Under this rule
every UPDATE replaces the very row that the handler checked (`rereads`), so
the events of a ride, read in the order in which their UPDATEs took effect,
replay the ride from its creation to its stored row (`outbox_replays`).
-/

namespace RideFlow

open RowLocks Trails Tables Runs

/-- The outbox rows of a ride, in the order of their commits. -/
def RideState.events (s : RideState) (r : RideId) : List OutboxEvent :=
  s.outbox.filter fun e => e.aggregateId = r

/-- A list of events replays a ride: one event for each version after the
first, laid end to end from REQUESTED along legal edges, the last one showing
the stored status and driver. -/
structure Replays (ride : Ride) (events : List OutboxEvent) : Prop where
  version : ride.version = events.length + 1
  first : ∀ e, events.head? = some e → e.payload.previousStatus = .requested
  meets : events.IsChain fun e f => f.payload.previousStatus = e.payload.newStatus
  legal : ∀ e ∈ events, e.payload.newStatus ∈ rideTransitions e.payload.previousStatus
  last : ∀ e, events.getLast? = some e →
    e.payload.newStatus = ride.status ∧ e.payload.driverId = ride.driverId
  empty : events = [] → ride.status = .requested ∧ ride.driverId = none

/-- `expected_version` is at most the version that the handler reads. -/
def tokenOfARead (s : RideState) : RideAction → Bool
  | .read q =>
      match s.requests q with
      | some (call, .loading) =>
          (s.rides call.rideId).all fun ride =>
            decide (call.payload.expectedVersion ≤ ride.version)
      | _ => true
  | _ => true

section Events

variable (e : Applied)

theorem Applied.event_id : e.event.id = e.effectAt := by
  rw [e.spec.2.2.2]
  rfl

theorem Applied.event_aggregateId : e.event.aggregateId = e.replaced.id := by
  rw [e.spec.2.2.2]
  exact rideSchema.key_tgt e

theorem Applied.event_payload : e.event.payload =
    ⟨e.written.id, e.checked.status, e.written.status, e.written.driverId,
      e.written.passengerId⟩ := by
  obtain ⟨_, _, hwritten, hevent⟩ := e.spec
  have hstatus : e.written.status = e.target := by rw [hwritten, Ride.set_status]
  rw [hevent, hstatus]
  rfl

end Events

/-- The events of a ride are those of its committed updates. -/
theorem events_eq {s : RideState} (h : s.outbox = s.log.map Applied.event) (r : RideId) :
    s.events r = (s.committed r).map Applied.event := by
  rw [RideState.events, h, List.filter_map, RideState.committed]
  congr 1
  apply List.filter_congr
  intro e _
  simp [e.event_aggregateId]

/-- The events of a ride are in the order of their effects. -/
theorem events_sorted {s : RideState} (h : s.outbox = s.log.map Applied.event)
    (hordered : Ordered rideSchema s.store) (r : RideId) :
    (s.events r).Pairwise fun e f => e.id < f.id := by
  rw [events_eq h, List.pairwise_map]
  refine (hordered.log_sorted r).imp ?_
  intro e f hlt
  rw [e.event_id, f.event_id]
  exact hlt

/-- An applied transition that replaced the row it was checked against. -/
def Rereads (e : Applied) : Prop := e.checked = e.replaced

section Replay

variable {es : List Applied} {first ride : Ride}

/-- **A trail of rechecked updates replays its end.** -/
theorem trail_replays (hborn : Born first)
    (htrail : IsTrail Applied.replaced Applied.written first es ride)
    (hread : ∀ e ∈ es, Rereads e) : Replays ride (es.map Applied.event) where
  version := by
    have hend := htrail.rank_end Ride.version fun e _ => version_climbs e
    rw [List.length_map, hend, hborn.2.1, Nat.add_comm]
  first := by
    intro event hevent
    rw [List.head?_map] at hevent
    obtain ⟨e, he, rfl⟩ := Option.map_eq_some_iff.mp hevent
    have hsrc : e.replaced = first := htrail.head_src he
    have hsame : e.checked = e.replaced := hread e (List.mem_of_mem_head? he)
    rw [e.event_payload, hsame, hsrc]
    exact hborn.1
  meets := by
    rw [List.isChain_map]
    refine htrail.meets.imp_of_mem_imp ?_
    intro e f _ hf hmeet
    have hsame : f.checked = f.replaced := hread f hf
    rw [e.event_payload, f.event_payload, hsame, hmeet]
  legal := by
    intro event hevent
    obtain ⟨e, he, rfl⟩ := List.mem_map.mp hevent
    have hstatus : CheckedStatus e := congrArg Ride.status (hread e he)
    have hsame : e.checked.status = e.replaced.status := hstatus
    rw [e.event_payload, hsame]
    exact hstatus.legal
  last := by
    intro event hevent
    rw [List.getLast?_map] at hevent
    obtain ⟨e, he, rfl⟩ := Option.map_eq_some_iff.mp hevent
    have htgt : e.written = ride := htrail.getLast_tgt he
    rw [e.event_payload, htgt]
    exact ⟨rfl, rfl⟩
  empty := by
    intro hempty
    obtain rfl : es = [] := List.map_eq_nil_iff.mp hempty
    obtain rfl : first = ride := htrail
    exact ⟨hborn.1, hborn.2.2⟩

end Replay

section Tokens

variable {cfg : Settings} {s t : RideState} {a : RideAction} {acts : List RideAction}

/-- Every request about to UPDATE carries a version up to the one it read, and
the row it read is the stored one or an older one. -/
def TokensSeen (s : RideState) : Prop :=
  ∀ q call ride, s.requests q = some (call, .updating ride) →
    call.payload.expectedVersion ≤ ride.version ∧
      Seen rideSchema Ride.version s.store ride

/-- One step keeps the tokens. -/
theorem step_tokensSeen (hsound : Sound rideSchema Born anyUpdate s.store)
    (h : TokensSeen s) (hok : tokenOfARead s a = true) (hstep : rideStep cfg s a = some t) :
    TokensSeen t := by
  have hmove : Move rideSchema Born anyUpdate s.store t.store :=
    step_move hsound (fun _ _ => trivial) hstep
  have hseen : ∀ ride, Seen rideSchema Ride.version s.store ride →
      Seen rideSchema Ride.version t.store ride :=
    fun ride => (hmove.extends hsound).seen (hmove.sound hsound) fun e _ => version_climbs e
  intro q call ride hreq
  rcases updating_origin hreq hstep with hold | ⟨rfl, hloading, hride⟩
  · obtain ⟨htoken, hold⟩ := h q call ride hold
    exact ⟨htoken, hseen ride hold⟩
  · have htoken : call.payload.expectedVersion ≤ ride.version := by
      simpa [tokenOfARead, hloading, hride] using hok
    exact ⟨htoken, hseen ride (hsound.seen hride)⟩

/-- **An UPDATE that matches replaces the row that was checked.** -/
theorem adds_rereads (h : TokensSeen s) {e : Applied} (hadds : Adds s a e) : Rereads e := by
  cases hadds with
  | @first q call ride _ hreq hrow _ hchecked _ hexpected _ =>
      obtain ⟨htoken, cur, hcur, hle⟩ := h q call ride hreq
      obtain rfl : cur = e.replaced := Option.some.inj (hcur.symm.trans hrow)
      have hversion := e.spec.2.1
      rw [hexpected] at hversion
      rcases hle with hsame | hlt
      · rw [Rereads, hchecked, hsame]
      · omega
  | second _ _ hchecked hrow _ _ => rw [Rereads, hchecked, hrow]

/-- Runs of token holders keep the ride store sound, every update being one of
the row that was checked. -/
theorem rereads (h : Steps (rideSystem cfg) (fun s a => tokenOfARead s a) .init acts s) :
    Sound rideSchema Born Rereads s.store ∧ Ordered rideSchema s.store ∧ TokensSeen s :=
  rides_sound_under TokensSeen
    (fun _ _ _ hsound hI hok hstep =>
      step_tokensSeen (hsound.mono fun _ _ => trivial) hI hok hstep)
    (fun _ _ _ _ hI _ hadds => adds_rereads hI hadds)
    (fun _ _ _ hreq => by cases hreq) h

/-- Token holders never meet a row that has left the status they checked. -/
theorem tokens_find_row_as_checked
    (h : Steps (rideSystem cfg) (fun s a => tokenOfARead s a) .init acts s) :
    Steps (rideSystem cfg) (fun s a => rowAsChecked s a) .init acts s := by
  refine h.strengthen
    (fun s => Sound rideSchema Born anyUpdate s.store ∧ TokensSeen s)
    ⟨sound_init, fun _ _ _ hreq => by cases hreq⟩ ?_ ?_
  · intro s a t hs hok hstep
    exact ⟨(step_move hs.1 (fun _ _ => trivial) hstep).sound hs.1,
      step_tokensSeen hs.1 hs.2 hok hstep⟩
  · intro s a hs _
    cases a with
    | update q =>
        dsimp only [rowAsChecked]
        split
        case h_1 call ride hreq =>
            obtain ⟨htoken, cur, hcur, hle⟩ := hs.2 q call ride hreq
            have hcur : s.rides ride.id = some cur := hcur
            rw [hcur, Option.all_some, decide_eq_true_eq]
            intro hversion
            rcases hle with rfl | hlt
            · rfl
            · omega
        case h_2 => rfl
    | _ => rfl

/-- **The outbox replays every ride.**  In every interleaving in which each
request carries at most the version its handler reads:

* the committed events of a ride, which the outbox lists in the order in which
  their UPDATEs took effect, replay the ride;
* there is no event of a ride that does not exist;
* every event was added by a request that was answered 200. -/
theorem outbox_replays
    (h : Steps (rideSystem cfg) (fun s a => tokenOfARead s a) .init acts s) :
    (∀ r, (s.events r).Pairwise fun e f => e.id < f.id) ∧
    (∀ r ride, s.rides r = some ride → Replays ride (s.events r)) ∧
    (∀ r, s.rides r = none → s.events r = []) ∧
    s.outbox = s.log.map Applied.event ∧
    ∀ e ∈ s.log, ∃ call ride, s.requests e.request = some (call, .answered (.ok ride)) := by
  obtain ⟨hsound, hordered, _⟩ := rereads h
  have hbooks := books_kept h
  have hevents := events_eq hbooks.outbox
  refine ⟨events_sorted hbooks.outbox hordered, ?_, ?_, hbooks.outbox, ?_⟩
  · intro r ride hride
    obtain ⟨first, hborn, htrail⟩ := hsound.row_trail r ride hride
    rw [hevents]
    refine trail_replays hborn htrail ?_
    intro e he
    exact hsound.log_good e (mem_committed.mp he).1
  · intro r hnone
    rw [hevents]
    exact congrArg (List.map Applied.event) (hsound.row_none r hnone)
  · intro e he
    obtain ⟨call, ride, hans, _⟩ := hbooks.logged e he
    exact ⟨call, ride, hans⟩

end Tokens

/-- A ride is matched while an administrator's cancellation, read before, is
on its way; the cancellation misses its version. -/
def matchThenMiss : List RideAction :=
  [.create 0 (sampleUser 1 .passenger) sampleBody sampleFare none,
    .begin 0 (sampleUser 1 .passenger) 0 ⟨.matching, 1⟩,
    .begin 1 (sampleUser 7 .admin) 0 ⟨.cancelled, 1⟩,
    .read 1, .read 0, .update 0, .search 0 [2], .reserve 0, .resolve 0, .commit 0, .update 1]

theorem match_then_miss_replays : ∃ s ride,
    Steps (rideSystem {}) (fun s a => tokenOfARead s a) .init matchThenMiss s ∧
      s.rides 0 = some ride ∧ ride.status = .accepted ∧ Replays ride (s.events 0) := by
  have hreplay : (execWhere (rideSystem {}) (fun s a => tokenOfARead s a) .init
      matchThenMiss).any (fun s => (s.rides 0).any fun ride => ride.status = .accepted) =
        true := by decide
  obtain ⟨s, hrun, hs⟩ := Steps.of_execWhere_any hreplay
  obtain ⟨ride, hride, haccepted⟩ := (Option.any_eq_true _ _).mp hs
  exact ⟨s, ride, hrun, hride, of_decide_eq_true haccepted,
    (outbox_replays hrun).2.1 0 ride hride⟩

end RideFlow
