import RideFlow.Library.Rankings
import RideFlow.TransitionRide

/-!
# What the search for a driver finds

`find_and_reserve_driver` asks GEOSEARCH for ten drivers and tries their keys
in that order.  Reserved drivers stay in the pool and count among the ten, so
the search is a truncated one (`Rankings.truncated_search_iff`): it serves the
nearest unreserved driver in range, except where the ten nearest are reserved
and a free one is behind them.  There it returns `None`.

* `search_alone` -- the search and the SET NX steps of a request that nobody
  interleaves with are the scan;
* `nearest_found_iff` -- what the scan returns is right, and exactly when.
-/

namespace RideFlow

open Function Runs Rankings

/-- The distance of a member from the pickup. -/
def distanceTo (dist : GeoDistance) (lat lng : Degrees) (m : GeoMember) : ℚ :=
  dist lng lat m.lng m.lat

/-- The members within `driver_search_radius_km` of the pickup. -/
def inRange (cfg : Settings) (dist : GeoDistance) (pool : GeoPool) (lat lng : Degrees) :
    List GeoMember :=
  pool.filter fun m => distanceTo dist lat lng m ≤ cfg.driverSearchRadiusKm

/-- What the search is for: `None` only if every driver in range is reserved,
else the nearest driver in range who is not. -/
def ServesNearest (cfg : Settings) (dist : GeoDistance) (pool : GeoPool) (keys : Reservations)
    (lat lng : Degrees) : Option UserId → Prop
  | none => ∀ m ∈ inRange cfg dist pool lat lng, keys m.driverId ≠ none
  | some d => ∃ m ∈ inRange cfg dist pool lat lng, m.driverId = d ∧ keys d = none ∧
      ∀ n ∈ inRange cfg dist pool lat lng, keys n.driverId = none →
        distanceTo dist lat lng m ≤ distanceTo dist lat lng n

section Alone

variable {cfg : Settings} {s : RideState} {q : ReqId}

/-- The SET NX steps of a request with nobody in between are the scan. -/
theorem reserve_alone (candidates : List UserId) {call : TransitionCall} {ride : Ride}
    {pending : List Applied}
    (hreq : s.requests q = some (call, .holding ride pending (.reserve candidates))) :
    ∃ acts t, Steps (rideSystem cfg) (fun _ a => a.request = some q) s acts t ∧
      t.requests q = some (call, .holding ride pending
        (.resolve (reserveFirst cfg ride.id s.clock s.reservations candidates).1)) ∧
      t.reservations = (reserveFirst cfg ride.id s.clock s.reservations candidates).2 := by
  induction candidates generalizing s with
  | nil =>
      have hstep : rideStep cfg s (.reserve q) =
          some (s.at_ q call (.holding ride pending (.resolve none))) := by
        simp [rideStep, hreq]
      exact ⟨[.reserve q], _, .single rfl hstep, update_self .., rfl⟩
  | cons d rest ih =>
      cases hkey : s.reservations d with
      | none =>
          have hstep : rideStep cfg s (.reserve q) =
              some { s.at_ q call (.holding ride pending (.resolve (some d))) with
                reservations := update s.reservations d
                  (some ⟨ride.id, s.clock + cfg.driverReservationTtlSeconds⟩) } := by
            simp [rideStep, hreq, tryReserveDriver, hkey]
          refine ⟨[.reserve q], _, .single rfl hstep, ?_⟩
          simp [reserveFirst, tryReserveDriver, hkey, RideState.at_]
      | some key =>
          have hstep : rideStep cfg s (.reserve q) =
              some (s.at_ q call (.holding ride pending (.reserve rest))) := by
            simp [rideStep, hreq, tryReserveDriver, hkey]
          have hfirst : Steps (rideSystem cfg) (fun _ a => a.request = some q) s [.reserve q]
              (s.at_ q call (.holding ride pending (.reserve rest))) := .single rfl hstep
          obtain ⟨acts, t, hrun, hans, hkeys⟩ := ih
            (s := s.at_ q call (.holding ride pending (.reserve rest))) (update_self ..)
          refine ⟨_, t, hfirst.trans hrun, ?_⟩
          have hscan : reserveFirst cfg ride.id s.clock s.reservations (d :: rest) =
              reserveFirst cfg ride.id s.clock s.reservations rest := by
            simp [reserveFirst, tryReserveDriver, hkey]
          rw [hscan]
          exact ⟨hans, hkeys⟩

/-- A search with nobody in between: what GEOSEARCH answers, scanned. -/
theorem search_alone (candidates : List UserId) {call : TransitionCall} {ride : Ride}
    {pending : List Applied}
    (hreq : s.requests q = some (call, .holding ride pending .search)) :
    ∃ acts t, Steps (rideSystem cfg) (fun _ a => a.request = some q) s acts t ∧
      t.requests q = some (call, .holding ride pending
        (.resolve (reserveFirst cfg ride.id s.clock s.reservations candidates).1)) ∧
      t.reservations = (reserveFirst cfg ride.id s.clock s.reservations candidates).2 := by
  have hstep : rideStep cfg s (.search q candidates) =
      some (s.at_ q call (.holding ride pending (.reserve candidates))) := by
    simp [rideStep, hreq]
  have hfirst : Steps (rideSystem cfg) (fun _ a => a.request = some q) s [.search q candidates]
      (s.at_ q call (.holding ride pending (.reserve candidates))) := .single rfl hstep
  obtain ⟨acts, t, hrun, hans, hkeys⟩ := reserve_alone candidates
    (s := s.at_ q call (.holding ride pending (.reserve candidates))) (update_self ..)
  exact ⟨_, t, hfirst.trans hrun, hans, hkeys⟩

end Alone

section Search

variable {cfg : Settings} {dist : GeoDistance} {pool ranked : GeoPool} {keys : Reservations}
  {lat lng : Degrees} {ride : RideId} {now : Timestamp}

/-- The key of the driver is absent. -/
def isFree (keys : Reservations) (m : GeoMember) : Bool := (keys m.driverId).isNone

theorem isFree_iff {m : GeoMember} : isFree keys m = true ↔ keys m.driverId = none :=
  Option.isNone_iff_eq_none

theorem not_isFree_iff {m : GeoMember} : isFree keys m = false ↔ keys m.driverId ≠ none := by
  rw [← Bool.not_eq_true, isFree_iff]

/-- A cheapest free member is a driver that the search is for. -/
theorem serves_of_cheapest {found : Option GeoMember}
    (h : Cheapest (distanceTo dist lat lng) (isFree keys) (inRange cfg dist pool lat lng)
      found) :
    ServesNearest cfg dist pool keys lat lng (found.map GeoMember.driverId) := by
  cases found with
  | none => exact fun m hm => not_isFree_iff.mp (h m hm)
  | some m =>
      obtain ⟨hm, hfree, hleast⟩ := h
      exact ⟨m, hm, rfl, isFree_iff.mp hfree,
        fun n hn hkey => hleast n hn (isFree_iff.mpr hkey)⟩

/-- The scan of the first ten of a ranking serves the nearest free driver in
range, or rightly nobody, exactly when one of the ten is free or nobody is. -/
theorem scan_serves_iff
    (h : IsRanking (distanceTo dist lat lng) (inRange cfg dist pool lat lng) ranked) :
    ServesNearest cfg dist pool keys lat lng
        (reserveFirst cfg ride now keys ((ranked.take 10).map GeoMember.driverId)).1 ↔
      (∃ m ∈ ranked.take 10, keys m.driverId = none) ∨ ∀ m ∈ ranked, keys m.driverId ≠ none := by
  have hscan : (reserveFirst cfg ride now keys ((ranked.take 10).map GeoMember.driverId)).1 =
      ((ranked.take 10).find? (isFree keys)).map GeoMember.driverId := by
    have hmap : ((ranked.take 10).map GeoMember.driverId).find? (fun d => (keys d).isNone) =
        ((ranked.take 10).find? (isFree keys)).map GeoMember.driverId := List.find?_map ..
    rw [reserveFirst_eq_find, hmap]
    cases (ranked.take 10).find? (isFree keys) <;> rfl
  have htruncated : Cheapest (distanceTo dist lat lng) (isFree keys)
      (inRange cfg dist pool lat lng) ((ranked.take 10).find? (isFree keys)) ↔
      (∃ m ∈ ranked.take 10, isFree keys m = true) ∨ ∀ m ∈ ranked, isFree keys m = false :=
    truncated_search_iff h
  simp only [isFree_iff, not_isFree_iff] at htruncated
  rw [hscan]
  refine ⟨fun hserves => ?_, fun hcond => serves_of_cheapest (htruncated.mpr hcond)⟩
  cases hfind : (ranked.take 10).find? (isFree keys) with
  | none =>
      rw [hfind] at hserves
      exact Or.inr fun m hm => hserves m (h.perm.mem_iff.mp hm)
  | some m =>
      exact Or.inl ⟨m, List.mem_of_find?_eq_some hfind, isFree_iff.mp (List.find?_some hfind)⟩

/-- GEOSEARCH answers with the first ten of a ranking of the drivers in range. -/
theorem findNearbyDrivers_ranks {found : List UserId}
    (h : findNearbyDrivers cfg dist pool lat lng = some found) :
    found = (((inRange cfg dist pool lat lng).insertionSort fun m n =>
      distanceTo dist lat lng m ≤ distanceTo dist lat lng n).take 10).map
        GeoMember.driverId := by
  simp only [findNearbyDrivers, geosearch, Option.ite_none_right_eq_some,
    Option.some.injEq] at h
  exact h.2.symm

/-- **The nearest free driver is found**, or rightly nobody, if and only if one
of the ten nearest drivers in range is free or every driver in range is
reserved; and so in whichever order Redis ranks drivers at equal distance. -/
theorem nearest_found_iff (cfg : Settings) (dist : GeoDistance) (pool : GeoPool)
    (keys : Reservations) (lat lng : Degrees) (ride : RideId) (now : Timestamp) :
    (∀ ranked, IsRanking (distanceTo dist lat lng) (inRange cfg dist pool lat lng) ranked →
      (ServesNearest cfg dist pool keys lat lng
          (reserveFirst cfg ride now keys ((ranked.take 10).map GeoMember.driverId)).1 ↔
        (∃ m ∈ ranked.take 10, keys m.driverId = none) ∨
          ∀ m ∈ ranked, keys m.driverId ≠ none)) ∧
    ∀ result keys',
      findAndReserveDriver cfg dist pool keys lat lng ride now = some (result, keys') →
      ∃ ranked, IsRanking (distanceTo dist lat lng) (inRange cfg dist pool lat lng) ranked ∧
        (ServesNearest cfg dist pool keys lat lng result ↔
          (∃ m ∈ ranked.take 10, keys m.driverId = none) ∨
            ∀ m ∈ ranked, keys m.driverId ≠ none) := by
  refine ⟨fun ranked hranked => scan_serves_iff hranked, ?_⟩
  intro result keys' hfind
  obtain ⟨found, hfound, hscan⟩ := Option.map_eq_some_iff.mp hfind
  have hranked := isRanking_insertionSort (distanceTo dist lat lng)
    (inRange cfg dist pool lat lng)
  refine ⟨_, hranked, ?_⟩
  have hresult : result = (reserveFirst cfg ride now keys found).1 := by rw [hscan]
  rw [hresult, findNearbyDrivers_ranks hfound]
  exact scan_serves_iff hranked

end Search

/-- The distance along a meridian, one kilometre a degree. -/
def meridianDistance : GeoDistance :=
  fun _ lat _ lat' => if lat ≤ lat' then lat' - lat else lat - lat'

/-- Drivers `0` to `n - 1` on one meridian, each a tenth of a degree behind the
one before. -/
def queueOfDrivers (n : Nat) : GeoPool :=
  (List.range n).map fun d => ⟨d, 0, d / 10⟩

/-- The drivers below `n` are reserved for ride 0. -/
def reservedBelow (n : Nat) : Reservations :=
  fun d => if d < n then some ⟨0, 15⟩ else none

/-- The nearest of two drivers is reserved; the scan serves the other one. -/
theorem second_driver_found :
    (findAndReserveDriver {} meridianDistance (queueOfDrivers 2) (reservedBelow 1) 0 0 1 0).map
        Prod.fst = some (some 1) ∧
      ServesNearest {} meridianDistance (queueOfDrivers 2) (reservedBelow 1) 0 0 (some 1) := by
  have hresult : (findAndReserveDriver {} meridianDistance (queueOfDrivers 2) (reservedBelow 1)
      0 0 1 0).map Prod.fst = some (some 1) := by decide +kernel
  refine ⟨hresult, ?_⟩
  obtain ⟨⟨result, keys'⟩, hfind, hfirst⟩ := Option.map_eq_some_iff.mp hresult
  obtain rfl : result = some 1 := hfirst
  obtain ⟨ranked, hranked, hiff⟩ := (nearest_found_iff {} meridianDistance (queueOfDrivers 2)
    (reservedBelow 1) 0 0 1 0).2 _ _ hfind
  refine hiff.mpr (Or.inl ⟨⟨1, 0, 1 / 10⟩, ?_, rfl⟩)
  have hlength : ranked.length = 2 := by
    rw [hranked.perm.length_eq]
    decide +kernel
  rw [List.take_of_length_le (by omega), hranked.perm.mem_iff]
  decide +kernel

/-- **A free driver in range is not found.**  The ten nearest drivers are
reserved, the eleventh is free. -/
theorem eleventh_driver_missed :
    ¬ ∀ (cfg : Settings) (dist : GeoDistance) (pool : GeoPool) (keys : Reservations)
        (lat lng : Degrees) (ride : RideId) (now : Timestamp) result keys',
      findAndReserveDriver cfg dist pool keys lat lng ride now = some (result, keys') →
        ServesNearest cfg dist pool keys lat lng result := by
  intro hclaim
  have hresult : (findAndReserveDriver {} meridianDistance (queueOfDrivers 11)
      (reservedBelow 10) 0 0 1 0).map Prod.fst = some none := by decide +kernel
  obtain ⟨⟨result, keys'⟩, hfind, hfirst⟩ := Option.map_eq_some_iff.mp hresult
  obtain rfl : result = none := hfirst
  have hserves := hclaim _ _ _ _ _ _ _ _ _ _ hfind
  have hfree : (⟨10, 0, 1⟩ : GeoMember) ∈ inRange {} meridianDistance (queueOfDrivers 11) 0 0 := by
    decide +kernel
  exact hserves _ hfree rfl

end RideFlow
