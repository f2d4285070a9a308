import Mathlib

/-! # Directions by longitude and latitude

  A longitude and a latitude name a direction, a point of the unit sphere.
  A direction has many names: the angles are taken up to full turns, the
  longitude of a pole is arbitrary, and a latitude may pass over a pole to
  the opposite longitude.

  * **Angles**: when two pairs of angles name one direction.
  * **Degrees**: the same for rational angles in degrees, where it is a
    question about integers.
  * **Radians**: a pair of rational angles in radians and a pair of rational
    angles in degrees name one direction only at the origin, because `π` is
    irrational.
-/

namespace SphereAngles

open Real

/-! ### Angles -/

/-- The point of the unit sphere at a longitude and a latitude. -/
noncomputable def direction (lon lat : ℝ) : ℝ × ℝ × ℝ :=
  (cos lat * cos lon, cos lat * sin lon, sin lat)

variable {lon lat lon' lat' : ℝ}

/-- The angles are the same, up to a pole. -/
def Upright (lon lat lon' lat' : ℝ) : Prop :=
  (lat : Angle) = lat' ∧ (cos lat = 0 ∨ (lon : Angle) = lon')

/-- The second latitude passes over the pole. -/
def Over (lon lat lon' lat' : ℝ) : Prop :=
  (lat : Angle) + lat' = π ∧ (cos lat = 0 ∨ (lon : Angle) = lon' + π)

theorem circle_eq_iff {c : ℝ} :
    (c * cos lon = c * cos lon' ∧ c * sin lon = c * sin lon') ↔
      c = 0 ∨ (lon : Angle) = lon' := by
  constructor
  · intro ⟨hcos, hsin⟩
    by_cases hc : c = 0
    · exact .inl hc
    · exact .inr (Angle.cos_sin_inj (mul_left_cancel₀ hc hcos) (mul_left_cancel₀ hc hsin))
  · rintro (rfl | heq)
    · simp
    · have hcos : cos lon = cos lon' := by
        rw [← Angle.cos_coe, heq, Angle.cos_coe]
      have hsin : sin lon = sin lon' := by
        rw [← Angle.sin_coe, heq, Angle.sin_coe]
      rw [hcos, hsin]
      exact ⟨rfl, rfl⟩

theorem direction_eq_iff :
    direction lon lat = direction lon' lat' ↔ Upright lon lat lon' lat' ∨ Over lon lat lon' lat' := by
  have hsplit : direction lon lat = direction lon' lat' ↔
      (cos lat * cos lon = cos lat' * cos lon' ∧ cos lat * sin lon = cos lat' * sin lon') ∧
        sin lat = sin lat' := by
    unfold direction
    simp only [Prod.mk.injEq]
    tauto
  have hupright : (lat : Angle) = lat' →
      ((cos lat * cos lon = cos lat' * cos lon' ∧ cos lat * sin lon = cos lat' * sin lon') ↔
        cos lat = 0 ∨ (lon : Angle) = lon') := by
    intro heq
    have hcos : cos lat' = cos lat := by rw [← Angle.cos_coe, ← heq, Angle.cos_coe]
    rw [hcos]
    exact circle_eq_iff
  have hover : (lat : Angle) + lat' = π →
      ((cos lat * cos lon = cos lat' * cos lon' ∧ cos lat * sin lon = cos lat' * sin lon') ↔
        cos lat = 0 ∨ (lon : Angle) = lon' + π) := by
    intro heq
    have hcos : cos lat' = -cos lat := by
      rw [← Angle.cos_coe, eq_sub_of_add_eq' heq, ← neg_sub, Angle.cos_neg, Angle.cos_sub_pi,
        Angle.cos_coe]
    -- the opposite longitude makes up for the sign
    have hopposite : cos lat' * cos lon' = cos lat * cos (lon' + π) ∧
        cos lat' * sin lon' = cos lat * sin (lon' + π) := by
      rw [hcos, cos_add_pi, sin_add_pi]
      constructor <;> ring
    rw [hopposite.1, hopposite.2, circle_eq_iff, Angle.coe_add]
  rw [hsplit, Angle.sin_eq_iff_coe_eq_or_add_eq_pi]
  unfold Upright Over
  constructor
  · rintro ⟨hcircle, hlat | hlat⟩
    · exact .inl ⟨hlat, (hupright hlat).mp hcircle⟩
    · exact .inr ⟨hlat, (hover hlat).mp hcircle⟩
  · rintro (⟨hlat, hlon⟩ | ⟨hlat, hlon⟩)
    · exact ⟨(hupright hlat).mpr hlon, .inl hlat⟩
    · exact ⟨(hover hlat).mpr hlon, .inr hlat⟩

/-! ### Degrees -/

section
local instance half_circle : Nat.AtLeastTwo 180 := inferInstance

/-- Degrees in radians. -/
noncomputable def rad (x : ℚ) : ℝ := x * (π / 180)

end

/-- A whole number of turns. -/
def Turns (x : ℚ) : Prop := ∃ k : ℤ, x = 360 * k

/-- Longitude and latitude, in degrees, of one direction. -/
def SameDirection (p q : ℚ × ℚ) : Prop :=
  (Turns (p.2 - q.2) ∧ (Turns (2 * p.2 - 180) ∨ Turns (p.1 - q.1))) ∨
    (Turns (p.2 + q.2 - 180) ∧ (Turns (2 * p.2 - 180) ∨ Turns (p.1 - q.1 - 180)))

theorem SameDirection.refl (p : ℚ × ℚ) : SameDirection p p :=
  .inl ⟨⟨0, by simp⟩, .inr ⟨0, by simp⟩⟩

theorem coe_eq_iff_turns {x y : ℝ} {d : ℚ} (h : x - y = rad d) : (x : Angle) = y ↔ Turns d := by
  rw [Angle.angle_eq_iff_two_pi_dvd_sub, h]
  unfold rad Turns
  apply exists_congr
  intro k
  have hpi := pi_pos.ne'
  constructor
  · intro heq
    have hreal : (d : ℝ) = 360 * k := by
      field_simp at heq
      linarith
    exact_mod_cast hreal
  · intro heq
    rw [heq]
    push_cast
    ring

theorem cos_rad_eq_zero_iff (x : ℚ) : cos (rad x) = 0 ↔ Turns (2 * x - 180) := by
  rw [cos_eq_zero_iff]
  unfold rad Turns
  apply exists_congr
  intro k
  have hpi := pi_pos.ne'
  constructor
  · intro heq
    have hreal : 2 * (x : ℝ) - 180 = 360 * k := by
      field_simp at heq
      linarith
    exact_mod_cast hreal
  · intro heq
    have hx : x = 90 + 180 * k := by linarith
    rw [hx]
    push_cast
    ring

theorem rad_sub (x y : ℚ) : rad x - rad y = rad (x - y) := by
  unfold rad
  push_cast
  ring

theorem rad_180 : rad 180 = π := by
  unfold rad
  push_cast
  field_simp

theorem direction_rad_eq_iff (p q : ℚ × ℚ) :
    direction (rad p.1) (rad p.2) = direction (rad q.1) (rad q.2) ↔ SameDirection p q := by
  have hlat : ((rad p.2 : ℝ) : Angle) + (rad q.2 : ℝ) = (π : ℝ) ↔ Turns (p.2 + q.2 - 180) := by
    rw [← Angle.coe_add]
    apply coe_eq_iff_turns
    rw [← rad_180, ← rad_sub]
    unfold rad
    push_cast
    ring
  have hlon : ((rad p.1 : ℝ) : Angle) = (rad q.1 : ℝ) + (π : ℝ) ↔ Turns (p.1 - q.1 - 180) := by
    rw [← Angle.coe_add]
    apply coe_eq_iff_turns
    rw [← rad_sub, ← rad_sub, rad_180]
    ring
  rw [direction_eq_iff]
  unfold Upright Over SameDirection
  rw [coe_eq_iff_turns (rad_sub p.2 q.2), coe_eq_iff_turns (rad_sub p.1 q.1), hlat, hlon,
    cos_rad_eq_zero_iff]

/-! ### Radians -/

theorem eq_zero_of_eq_rad {a d : ℚ} (h : (a : ℝ) = rad d) : a = 0 := by
  by_contra hne
  have hd : d ≠ 0 := by
    intro hzero
    rw [hzero, rad, Rat.cast_zero, zero_mul] at h
    exact hne (by exact_mod_cast h)
  have hpi : π = ((a * 180 / d : ℚ) : ℝ) := by
    have hd' : (d : ℝ) ≠ 0 := by exact_mod_cast hd
    unfold rad at h
    push_cast
    rw [h]
    field_simp
  exact irrational_pi ⟨_, hpi.symm⟩

theorem eq_zero_of_coe_eq {a d : ℚ} (h : ((a : ℝ) : Angle) = (rad d : ℝ)) : a = 0 := by
  obtain ⟨k, hk⟩ := Angle.angle_eq_iff_two_pi_dvd_sub.mp h
  apply eq_zero_of_eq_rad (d := d + 360 * k)
  unfold rad at hk ⊢
  push_cast
  linarith

theorem direction_cast_eq_iff (p q : ℚ × ℚ) :
    direction (p.1 : ℝ) (p.2 : ℝ) = direction (rad q.1) (rad q.2) ↔
      p = (0, 0) ∧ SameDirection (0, 0) q := by
  have horigin : direction ((0 : ℚ) : ℝ) ((0 : ℚ) : ℝ) = direction (rad 0) (rad 0) := by
    simp [rad]
  constructor
  · intro heq
    have hp : p = (0, 0) := by
      rcases direction_eq_iff.mp heq with ⟨hlat, hlon⟩ | ⟨hlat, hlon⟩
      · have hzero := eq_zero_of_coe_eq hlat
        rw [hzero, Rat.cast_zero, cos_zero] at hlon
        exact Prod.ext (eq_zero_of_coe_eq (hlon.resolve_left one_ne_zero)) hzero
      · have hzero : p.2 = 0 := by
          apply eq_zero_of_coe_eq (d := 180 - q.2)
          rw [← rad_sub, rad_180, Angle.coe_sub]
          exact eq_sub_of_add_eq hlat
        rw [hzero, Rat.cast_zero, cos_zero] at hlon
        refine Prod.ext ?_ hzero
        apply eq_zero_of_coe_eq (d := q.1 + 180)
        have hsum : rad (q.1 + 180) = rad q.1 + π := by
          rw [← rad_180]
          unfold rad
          push_cast
          ring
        rw [hsum, Angle.coe_add]
        exact hlon.resolve_left one_ne_zero
    rw [hp, horigin] at heq
    exact ⟨hp, (direction_rad_eq_iff (0, 0) q).mp heq⟩
  · rintro ⟨rfl, hsame⟩
    rw [horigin]
    exact (direction_rad_eq_iff (0, 0) q).mpr hsame

end SphereAngles
