import Mathlib.Analysis.InnerProductSpace.PiL2
import Mathlib.Geometry.Euclidean.Angle.Unoriented.Basic

/-!
# Great circles

The angle of two unit vectors is twice the arcsine of the root of half of what
their inner product lacks to one (`two_mul_arcsin_sqrt`), and that half stays in
`[0, 1]` (`half_lack_mem`).

The points of the unit sphere by latitude and longitude, in radians, are unit
vectors.  Their inner product is the spherical law of cosines (`inner_point`), and
half of what it lacks to one is the haversine formula (`haversine_formula`).
-/

namespace GreatCircles

open Real InnerProductGeometry
open Set (Icc)

section UnitVectors

variable {V : Type*} [NormedAddCommGroup V] [InnerProductSpace ℝ V] {u v : V}

/-- The inner product of unit vectors is between -1 and 1. -/
theorem inner_mem (hu : ‖u‖ = 1) (hv : ‖v‖ = 1) : inner ℝ u v ∈ Icc (-1 : ℝ) 1 := by
  have hbound := abs_real_inner_le_norm u v
  rw [hu, hv, mul_one] at hbound
  exact abs_le.mp hbound

/-- The angle of unit vectors is the arccosine of their inner product. -/
theorem angle_eq_arccos (hu : ‖u‖ = 1) (hv : ‖v‖ = 1) : angle u v = arccos (inner ℝ u v) := by
  rw [angle, hu, hv, mul_one, div_one]

/-- Unit vectors at no angle are the same. -/
theorem angle_eq_zero (hu : ‖u‖ = 1) (hv : ‖v‖ = 1) : angle u v = 0 ↔ u = v := by
  rw [angle_eq_arccos hu hv, arccos_eq_zero, ← inner_eq_one_iff_of_norm_eq_one (𝕜 := ℝ) hu hv]
  constructor
  · exact fun h => le_antisymm (inner_mem hu hv).2 h
  · exact fun h => h.ge

/-- Half of what the inner product lacks to one is in the domain of the root, and
the root in that of the arcsine. -/
theorem half_lack_mem (hu : ‖u‖ = 1) (hv : ‖v‖ = 1) : (1 - inner ℝ u v) / 2 ∈ Icc (0 : ℝ) 1 := by
  obtain ⟨hlow, hhigh⟩ := inner_mem hu hv
  constructor <;> linarith

/-- It is 1 for equal ones only. -/
theorem half_lack_eq_zero (hu : ‖u‖ = 1) (hv : ‖v‖ = 1) :
    (1 - inner ℝ u v) / 2 = (0 : ℝ) ↔ u = v := by
  rw [div_eq_zero_iff, sub_eq_zero, or_iff_left two_ne_zero, eq_comm]
  exact inner_eq_one_iff_of_norm_eq_one hu hv

/-- The half-angle formula for the sine. -/
theorem sin_half_sq (x : ℝ) : sin (x / 2) ^ 2 = (1 - cos x) / 2 := by
  rw [sin_sq_eq_half_sub, mul_div_cancel₀ x two_ne_zero]
  ring

/-- **Twice the arcsine of the root** is the angle. -/
theorem two_mul_arcsin_sqrt (hu : ‖u‖ = 1) (hv : ‖v‖ = 1) :
    2 * arcsin (√((1 - inner ℝ u v) / 2)) = angle u v := by
  obtain ⟨hlow, hhigh⟩ : 0 ≤ angle u v ∧ angle u v ≤ π := ⟨angle_nonneg u v, angle_le_pi u v⟩
  have hcos : cos (angle u v) = inner ℝ u v := by rw [cos_angle, hu, hv, mul_one, div_one]
  have hsin : 0 ≤ sin (angle u v / 2) := sin_nonneg_of_nonneg_of_le_pi (by linarith) (by linarith)
  have hroot : √((1 - inner ℝ u v) / 2) = sin (angle u v / 2) := by
    rw [← hcos, ← sin_half_sq, sqrt_sq hsin]
  have harcsin : arcsin (sin (angle u v / 2)) = angle u v / 2 :=
    arcsin_sin (by linarith) (by linarith)
  rw [hroot, harcsin, mul_div_cancel₀ _ two_ne_zero]

end UnitVectors

section Points

/-- The point of the unit sphere with this latitude and longitude. -/
noncomputable def point (lat lng : ℝ) : EuclideanSpace ℝ (Fin 3) :=
  WithLp.toLp _ ![cos lat * cos lng, cos lat * sin lng, sin lat]

variable (lat lng lat' lng' : ℝ)

/-- **The spherical law of cosines.** -/
theorem inner_point : inner ℝ (point lat lng) (point lat' lng') =
    sin lat * sin lat' + cos lat * cos lat' * cos (lng' - lng) := by
  have hsum : inner ℝ (point lat lng) (point lat' lng') =
      cos lat' * cos lng' * (cos lat * cos lng) + cos lat' * sin lng' * (cos lat * sin lng) +
        sin lat' * sin lat := by
    simp [point, PiLp.inner_apply, Fin.sum_univ_three]
  rw [hsum, cos_sub]
  ring

/-- A place on the sphere is a unit vector. -/
theorem norm_point : ‖point lat lng‖ = 1 := by
  have hinner : inner ℝ (point lat lng) (point lat lng) = (1 : ℝ) := by
    rw [inner_point, sub_self, cos_zero, mul_one, ← pow_two, ← pow_two, sin_sq_add_cos_sq]
  rw [real_inner_self_eq_norm_sq] at hinner
  exact (pow_eq_one_iff_of_nonneg (norm_nonneg _) two_ne_zero).mp hinner

/-- **The haversine formula.** -/
theorem haversine_formula :
    sin ((lat' - lat) / 2) ^ 2 + cos lat * cos lat' * sin ((lng' - lng) / 2) ^ 2 =
      (1 - inner ℝ (point lat lng) (point lat' lng')) / 2 := by
  rw [inner_point, sin_half_sq, sin_half_sq, cos_sub lat' lat]
  ring

/-- Within a full turn the half angle has no sine only at the ends and at zero. -/
theorem sin_half_eq_zero {d : ℝ} (hd : |d| ≤ 2 * π) : sin (d / 2) = 0 ↔ d = 0 ∨ |d| = 2 * π := by
  constructor
  · intro hsin
    rcases hd.lt_or_eq with hinside | hend
    · obtain ⟨hlow, hhigh⟩ := abs_lt.mp hinside
      have hhalf : d / 2 = 0 :=
        (sin_eq_zero_iff_of_lt_of_lt (by linarith) (by linarith)).mp hsin
      exact Or.inl (by linarith)
    · exact Or.inr hend
  · rintro (rfl | hend)
    · rw [zero_div, sin_zero]
    · have hturn : |d / 2| = π := by
        rw [abs_div, hend, abs_two, mul_div_cancel_left₀ π two_ne_zero]
      rcases (abs_eq pi_nonneg).mp hturn with hhalf | hhalf
      · rw [hhalf, sin_pi]
      · rw [hhalf, sin_neg, sin_pi, neg_zero]

/-- **When two coordinates name one point**: the same latitude, and either a pole,
the same longitude, or the two ends of the range of longitudes. -/
theorem point_eq_iff {lat lng lat' lng' : ℝ} (hlat : lat ∈ Icc (-(π / 2)) (π / 2))
    (hlat' : lat' ∈ Icc (-(π / 2)) (π / 2)) (hlng : |lng' - lng| ≤ 2 * π) :
    point lat lng = point lat' lng' ↔
      lat = lat' ∧ (cos lat = 0 ∨ lng = lng' ∨ |lng' - lng| = 2 * π) := by
  -- the bounds on the latitudes keep both terms of the formula from being negative
  have hcos : 0 ≤ cos lat * cos lat' :=
    mul_nonneg (cos_nonneg_of_mem_Icc hlat) (cos_nonneg_of_mem_Icc hlat')
  have hlats : sin ((lat' - lat) / 2) = 0 ↔ lat = lat' := by
    obtain ⟨hlow, hhigh⟩ := hlat
    obtain ⟨hlow', hhigh'⟩ := hlat'
    have hpi := pi_pos
    rw [sin_eq_zero_iff_of_lt_of_lt (by linarith) (by linarith)]
    constructor <;> intro h <;> linarith
  rw [← half_lack_eq_zero (norm_point _ _) (norm_point _ _), ← haversine_formula,
    add_eq_zero_iff_of_nonneg (sq_nonneg _) (mul_nonneg hcos (sq_nonneg _)),
    pow_eq_zero_iff two_ne_zero, hlats, mul_eq_zero, pow_eq_zero_iff two_ne_zero,
    sin_half_eq_zero hlng, sub_eq_zero]
  constructor
  · rintro ⟨rfl, hpole | hlngs⟩
    · exact ⟨rfl, Or.inl (mul_self_eq_zero.mp hpole)⟩
    · exact ⟨rfl, Or.inr (hlngs.imp_left Eq.symm)⟩
  · rintro ⟨rfl, hpole | hlngs⟩
    · exact ⟨rfl, Or.inl (mul_self_eq_zero.mpr hpole)⟩
    · exact ⟨rfl, Or.inr (hlngs.imp_left Eq.symm)⟩

end Points

end GreatCircles
