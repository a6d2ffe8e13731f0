import Mathlib.Algebra.Order.Round
import Mathlib.Geometry.Euclidean.Angle.Unoriented.TriangleInequality
import RideFlow.Library.GreatCircles
import RideFlow.Models

/-!
# The fare estimate

`_haversine_km` and `_estimate_fare` of `routers/rides.py`, read over the real
numbers, on the points that `RideCreateRequest` lets in.

The distance is the great-circle distance (`distance_is_great_circle`), so that it
vanishes only between two names of one point (`no_distance_iff`), and what a request
is quoted has bounds (`estimate_mem`).  Whoever books the legs of a trip one by one
is quoted the more for every stop (`stops_cost`).
-/

namespace RideFlow

open GreatCircles InnerProductGeometry Real
open Set (Icc)

/-- A point with the bounds of the schema. -/
structure Place where
  lat : ℝ
  lng : ℝ
  lat_mem : lat ∈ Icc (-90) 90
  lng_mem : lng ∈ Icc (-180) 180

/-- The pickup, as a place on the sphere. -/
noncomputable def RideCreateRequest.pickup (request : RideCreateRequest) : Place where
  lat := request.pickupLat
  lng := request.pickupLng
  lat_mem := Set.mem_Icc.mpr (by exact_mod_cast request.pickup_lat_mem)
  lng_mem := Set.mem_Icc.mpr (by exact_mod_cast request.pickup_lng_mem)

/-- The dropoff, as a place on the sphere. -/
noncomputable def RideCreateRequest.dropoff (request : RideCreateRequest) : Place where
  lat := request.dropoffLat
  lng := request.dropoffLng
  lat_mem := Set.mem_Icc.mpr (by exact_mod_cast request.dropoff_lat_mem)
  lng_mem := Set.mem_Icc.mpr (by exact_mod_cast request.dropoff_lng_mem)

/-- `math.radians`. -/
noncomputable def radians (degrees : ℝ) : ℝ := degrees * (π / 180)

/-- The `a` of `_haversine_km`. -/
noncomputable def haversineA (lat1 lng1 lat2 lng2 : ℝ) : ℝ :=
  let p1 := radians lat1
  let p2 := radians lat2
  let dphi := radians (lat2 - lat1)
  let dlambda := radians (lng2 - lng1)
  sin (dphi / 2) ^ 2 + cos p1 * cos p2 * sin (dlambda / 2) ^ 2

/-- `_haversine_km`, over the reals. -/
noncomputable def haversineKm (lat1 lng1 lat2 lng2 : ℝ) : ℝ :=
  let r : ℝ := 6371.0
  2 * r * arcsin (√(haversineA lat1 lng1 lat2 lng2))

/-- The fare before it is rounded. -/
noncomputable def unroundedFare (pickupLat pickupLng dropoffLat dropoffLng : ℝ) : ℝ :=
  let baseFare : ℝ := 2.5
  let perKm : ℝ := 1.35
  let distance := haversineKm pickupLat pickupLng dropoffLat dropoffLng
  baseFare + perKm * distance

/-- The nearest integer, and of two the even one. -/
noncomputable def roundHalfEven (x : ℝ) : ℤ :=
  if Int.fract x < 1 / 2 then ⌊x⌋
  else if 1 / 2 < Int.fract x then ⌊x⌋ + 1
  else if Even ⌊x⌋ then ⌊x⌋ else ⌊x⌋ + 1

/-- `round(…, 2)` of the fare. -/
noncomputable def estimateFare (pickupLat pickupLng dropoffLat dropoffLng : ℝ) : ℝ :=
  roundHalfEven (unroundedFare pickupLat pickupLng dropoffLat dropoffLng * 100) / 100

/-- The unit vector of a place. -/
noncomputable def Place.onSphere (p : Place) : EuclideanSpace ℝ (Fin 3) :=
  point (radians p.lat) (radians p.lng)

/-- `_haversine_km` of two places. -/
noncomputable def Place.kmTo (p q : Place) : ℝ := haversineKm p.lat p.lng q.lat q.lng

/-- `_estimate_fare` of two places, unrounded. -/
noncomputable def Place.fareTo (p q : Place) : ℝ := unroundedFare p.lat p.lng q.lat q.lng

section Distance

variable (p q : Place)

/-- Differences can be taken before or after. -/
theorem radians_sub (x y : ℝ) : radians (x - y) = radians x - radians y :=
  sub_mul x y _

/-- A place lies on the unit sphere. -/
theorem norm_onSphere : ‖p.onSphere‖ = 1 := norm_point _ _

/-- The radicand is half of what the inner product lacks to one. -/
theorem haversineA_eq : haversineA p.lat p.lng q.lat q.lng =
    (1 - inner ℝ p.onSphere q.onSphere) / 2 := by
  rw [Place.onSphere, Place.onSphere, ← haversine_formula, ← radians_sub, ← radians_sub]
  rfl

/-- **The distance is the angle times the radius.** -/
theorem kmTo_eq : p.kmTo q = 6371 * angle p.onSphere q.onSphere := by
  have hradius : (2 : ℝ) * 6371.0 = 6371 * 2 := by norm_num
  rw [← two_mul_arcsin_sqrt (norm_onSphere p) (norm_onSphere q), ← haversineA_eq, Place.kmTo,
    haversineKm, hradius, mul_assoc]

/-- No distance is negative. -/
theorem kmTo_nonneg : 0 ≤ p.kmTo q := by
  rw [kmTo_eq]
  exact mul_nonneg (by norm_num) (angle_nonneg _ _)

/-- No distance exceeds half the way around. -/
theorem kmTo_le : p.kmTo q ≤ 6371 * π := by
  rw [kmTo_eq]
  exact mul_le_mul_of_nonneg_left (angle_le_pi _ _) (by norm_num)

/-- The fare before it is rounded. -/
theorem fareTo_eq : p.fareTo q = 2.5 + 1.35 * p.kmTo q := rfl

/-- It lies between the base fare and that for half the way around. -/
theorem fareTo_mem : p.fareTo q ∈ Icc 2.5 (2.5 + 1.35 * 6371 * π) := by
  have hlow := kmTo_nonneg p q
  have hhigh := kmTo_le p q
  rw [fareTo_eq]
  constructor <;> linarith

/-- The fare grows with the distance. -/
theorem fareTo_lt_iff (p' q' : Place) : p.fareTo q < p'.fareTo q' ↔ p.kmTo q < p'.kmTo q' := by
  rw [fareTo_eq, fareTo_eq]
  constructor <;> intro h <;> linarith

/-- What the formula computes on two places. -/
structure GreatCircleDistance (p q : Place) : Prop where
  radicand : haversineA p.lat p.lng q.lat q.lng ∈ Icc (0 : ℝ) 1
  /-- The argument of `asin`. -/
  root : √(haversineA p.lat p.lng q.lat q.lng) ∈ Icc (0 : ℝ) 1
  unit : ‖p.onSphere‖ = 1
  distance : p.kmTo q = 6371 * arccos (inner ℝ p.onSphere q.onSphere)
  angle : p.kmTo q = 6371 * angle p.onSphere q.onSphere
  symm : p.kmTo q = q.kmTo p
  zero : p.kmTo q = 0 ↔ p.onSphere = q.onSphere
  le : p.kmTo q ≤ 6371 * π
  fare : p.fareTo q ∈ Icc 2.5 (2.5 + 1.35 * 6371 * π)
  grows : ∀ p' q' : Place, p.kmTo q < p'.kmTo q' → p.fareTo q < p'.fareTo q'

/-- **The fare's distance is the great-circle distance.** -/
theorem distance_is_great_circle : GreatCircleDistance p q := by
  have hradicand : haversineA p.lat p.lng q.lat q.lng ∈ Icc (0 : ℝ) 1 := by
    rw [haversineA_eq]
    exact half_lack_mem (norm_onSphere p) (norm_onSphere q)
  constructor
  case radicand => exact hradicand
  case root => exact ⟨sqrt_nonneg _, sqrt_le_one.mpr hradicand.2⟩
  case unit => exact norm_onSphere p
  case distance => rw [kmTo_eq, angle_eq_arccos (norm_onSphere p) (norm_onSphere q)]
  case angle => exact kmTo_eq p q
  case symm => rw [kmTo_eq, kmTo_eq, angle_comm]
  case zero =>
      rw [kmTo_eq, mul_eq_zero_iff_left (by norm_num)]
      exact angle_eq_zero (norm_onSphere p) (norm_onSphere q)
  case le => exact kmTo_le p q
  case fare => exact fareTo_mem p q
  case grows => exact fun p' q' h => (fareTo_lt_iff p q p' q').mpr h

end Distance

section SamePoint

/-- Bounds on degrees are bounds on radians. -/
theorem radians_mem {x bound : ℝ} (h : x ∈ Icc (-bound) bound) :
    radians x ∈ Icc (-radians bound) (radians bound) := by
  have hscale : 0 ≤ π / 180 := by positivity
  constructor
  · rw [radians, radians, ← neg_mul]
    exact mul_le_mul_of_nonneg_right h.1 hscale
  · exact mul_le_mul_of_nonneg_right h.2 hscale

/-- Different degrees are different radians. -/
theorem radians_inj {x y : ℝ} : radians x = radians y ↔ x = y :=
  mul_left_inj' (by positivity)

/-- A right angle. -/
theorem radians_90 : radians 90 = π / 2 := by
  rw [radians]
  ring

/-- A full turn. -/
theorem radians_360 : radians 360 = 2 * π := by
  rw [radians]
  ring

/-- The absolute value can be taken before or after. -/
theorem abs_radians (x : ℝ) : |radians x| = radians |x| := by
  have hscale : 0 ≤ π / 180 := by positivity
  rw [radians, abs_mul, abs_of_nonneg hscale, radians]

/-- The cosine of a latitude vanishes at the poles only. -/
theorem cos_radians_eq_zero {lat : ℝ} (h : lat ∈ Icc (-90) 90) :
    cos (radians lat) = 0 ↔ |lat| = 90 := by
  have hmem : radians lat ∈ Icc (-(π / 2)) (π / 2) := radians_90 ▸ radians_mem h
  have hpole : |lat| = 90 ↔ |radians lat| = π / 2 := by
    rw [abs_radians, ← radians_90, radians_inj]
  rw [hpole]
  constructor
  · intro hcos
    by_contra hne
    have hinside : |radians lat| < π / 2 := lt_of_le_of_ne (abs_le.mpr hmem) hne
    exact (cos_pos_of_mem_Ioo (abs_lt.mp hinside)).ne' hcos
  · intro hend
    rw [← cos_abs, hend, cos_pi_div_two]

/-- **No distance** is between two names of one point: the same latitude, and
either a pole, the same longitude, or the two sides of the antimeridian. -/
theorem no_distance_iff (p q : Place) : p.kmTo q = 0 ↔
    p.lat = q.lat ∧ (|p.lat| = 90 ∨ p.lng = q.lng ∨ |q.lng - p.lng| = 360) := by
  have hturn : |q.lng - p.lng| ≤ 360 := by
    have hp := p.lng_mem
    have hq := q.lng_mem
    exact abs_le.mpr ⟨by linarith [hp.2, hq.1], by linarith [hp.1, hq.2]⟩
  have hlat : radians p.lat ∈ Icc (-(π / 2)) (π / 2) := radians_90 ▸ radians_mem p.lat_mem
  have hlat' : radians q.lat ∈ Icc (-(π / 2)) (π / 2) := radians_90 ▸ radians_mem q.lat_mem
  have hlng : |radians q.lng - radians p.lng| ≤ 2 * π := by
    rw [← radians_sub, abs_radians, ← radians_360]
    exact mul_le_mul_of_nonneg_right hturn (by positivity)
  rw [kmTo_eq, mul_eq_zero_iff_left (by norm_num),
    angle_eq_zero (norm_onSphere p) (norm_onSphere q), Place.onSphere, Place.onSphere,
    point_eq_iff hlat hlat' hlng, radians_inj, radians_inj, cos_radians_eq_zero p.lat_mem,
    ← radians_sub, abs_radians, ← radians_360, radians_inj]

end SamePoint

section Rounding

/-- Rounding moves a number by no more than a half. -/
theorem abs_roundHalfEven_sub (x : ℝ) : |(roundHalfEven x : ℝ) - x| ≤ 1 / 2 := by
  have hfract := Int.floor_add_fract x
  have hlow := Int.fract_nonneg x
  have hhigh := Int.fract_lt_one x
  rw [abs_le]
  unfold roundHalfEven
  split_ifs <;> push_cast <;> constructor <;> linarith

/-- **The estimate of a request** is its fare to within half a cent. -/
theorem estimate_mem (request : RideCreateRequest) :
    estimateFare request.pickup.lat request.pickup.lng request.dropoff.lat request.dropoff.lng ∈
      Icc 2.495 (2.505 + 1.35 * 6371 * π) := by
  obtain ⟨hfrom, hto⟩ := fareTo_mem request.pickup request.dropoff
  obtain ⟨hdown, hup⟩ := abs_le.mp (abs_roundHalfEven_sub
    (request.pickup.fareTo request.dropoff * 100))
  rw [estimateFare, ← Place.fareTo]
  constructor <;> linarith

end Rounding

section Stops

/-- `_estimate_fare` of two places. -/
noncomputable def Place.estimateTo (p q : Place) : ℝ := estimateFare p.lat p.lng q.lat q.lng

/-- What the legs of a trip with these stops are quoted together. -/
noncomputable def Place.estimateBy (p : Place) : List Place → Place → ℝ
  | [], q => p.estimateTo q
  | stop :: stops, q => p.estimateTo stop + stop.estimateBy stops q

/-- The distance is no shorter by way of another place. -/
theorem kmTo_triangle (p stop q : Place) : p.kmTo q ≤ p.kmTo stop + stop.kmTo q := by
  rw [kmTo_eq, kmTo_eq, kmTo_eq, ← mul_add]
  exact mul_le_mul_of_nonneg_left (angle_le_angle_add_angle _ _ _) (by norm_num)

/-- A stop costs a base fare, before anything is rounded. -/
theorem fareTo_triangle (p stop q : Place) :
    p.fareTo q + 2.5 ≤ p.fareTo stop + stop.fareTo q := by
  have hkm := kmTo_triangle p stop q
  rw [fareTo_eq, fareTo_eq, fareTo_eq]
  linarith

/-- Three roundings take less than two cents off a base fare, and so at most one. -/
theorem roundHalfEven_add {x y z : ℝ} (h : z + 250 ≤ x + y) :
    roundHalfEven z + 249 ≤ roundHalfEven x + roundHalfEven y := by
  have hx := (abs_le.mp (abs_roundHalfEven_sub x)).1
  have hy := (abs_le.mp (abs_roundHalfEven_sub y)).1
  have hz := (abs_le.mp (abs_roundHalfEven_sub z)).2
  have hless : ((roundHalfEven z + 248 : ℤ) : ℝ) < (roundHalfEven x + roundHalfEven y : ℤ) := by
    push_cast
    linarith
  have hcents := Int.cast_lt.mp hless
  omega

/-- One stop on the way costs 2.49 at least. -/
theorem one_stop_costs (p stop q : Place) :
    p.estimateTo q + 2.49 ≤ p.estimateTo stop + stop.estimateTo q := by
  have hfare := fareTo_triangle p stop q
  have hcents : roundHalfEven (p.fareTo q * 100) + 249 ≤
      roundHalfEven (p.fareTo stop * 100) + roundHalfEven (stop.fareTo q * 100) :=
    roundHalfEven_add (by linarith)
  have hcast : ((roundHalfEven (p.fareTo q * 100) + 249 : ℤ) : ℝ) ≤
      (roundHalfEven (p.fareTo stop * 100) + roundHalfEven (stop.fareTo q * 100) : ℤ) :=
    Int.cast_le.mpr hcents
  push_cast at hcast
  change (roundHalfEven (p.fareTo q * 100) : ℝ) / 100 + 2.49 ≤
    (roundHalfEven (p.fareTo stop * 100) : ℝ) / 100 +
      (roundHalfEven (stop.fareTo q * 100) : ℝ) / 100
  linarith

/-- **Stops cost**: booked leg by leg, a trip is quoted at least 2.49 more for every
place it stops at on the way. -/
theorem stops_cost (p q : Place) (stops : List Place) :
    p.estimateTo q + 2.49 * stops.length ≤ p.estimateBy stops q := by
  induction stops generalizing p with
  | nil => simp [Place.estimateBy]
  | cons stop stops ih =>
      have hrest := ih stop
      have hstop := one_stop_costs p stop q
      rw [Place.estimateBy, List.length_cons]
      push_cast
      linarith

end Stops

end RideFlow
