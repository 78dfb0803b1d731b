import DriverPolicy.Proofs.Number.Value
import Mathlib.Tactic.FieldSimp
import Mathlib.Tactic.Ring

/-!
# Rounding to the nearest value

The finite values of a format are significands of its width over the places of its range, and only at
the lowest place may the first bit be missing. A number is rounded to the nearest of them and, if it lies
in the middle between two, to the one with the even significand; from half a last place above the largest
value on it is rounded to infinity. This determines the rounded value, and it is what `round` computes.

Two neighbouring values have significands of different parity, which makes the value unique. Seen from
the last place that suits a number, all values at this place and above are whole numbers, and all below it
are farther away than the least one with a full significand.
-/

namespace DriverPolicy

open Binary

namespace FloatFormat

/-- A significand and a place that make a value of a format. -/
structure Fits (format : FloatFormat) (m p : ℕ) : Prop where
  lt_width : m < 2 ^ format.precision
  lowest_le : format.lowest ≤ p
  le_highest : p ≤ format.highest
  full : p = format.lowest ∨ 2 ^ (format.precision - 1) ≤ m

/-- The least number of units that is rounded to infinity: half a last place above the largest value. -/
def overflowUnits (format : FloatFormat) : ℚ := (2 ^ format.precision - 1 / 2) * 2 ^ format.highest

/-- The least magnitude that is rounded to infinity. -/
def overflow (format : FloatFormat) : ℚ := format.overflowUnits / unitsPerOne

/-- The values of a format that are nearest to a number, ties to the even significand; `negative` is the
sign, which a number that is rounded to zero keeps. -/
inductive Nearest (format : FloatFormat) (negative : Bool) (q : ℚ) : Binary → Prop
  | finite {m p : ℕ} (hfits : format.Fits m p) (hbelow : |q| < format.overflow)
      (hnearest : ∀ s m' p', format.Fits m' p' →
        |q - (Binary.finite negative m p).toRat| ≤ |q - (Binary.finite s m' p').toRat|)
      (heven : ∀ s m' p', format.Fits m' p' →
        |q - (Binary.finite negative m p).toRat| = |q - (Binary.finite s m' p').toRat| →
        (Binary.finite s m' p').toRat ≠ (Binary.finite negative m p).toRat → m % 2 = 0) :
      Nearest format negative q (.finite negative m p)
  | infinite (hbeyond : format.overflow ≤ |q|) : Nearest format negative q (.infinite negative)

namespace Fits

variable {format : FloatFormat} {m m' p p' : ℕ}

/-- A value is smaller than all full significands at higher places. -/
theorem lt_of_place_lt (h : format.Fits m p) (hplace : p < p') :
    m * 2 ^ p < 2 ^ (format.precision - 1) * 2 ^ p' := by
  calc m * 2 ^ p < 2 ^ format.precision * 2 ^ p :=
        Nat.mul_lt_mul_of_pos_right h.lt_width (Nat.two_pow_pos p)
    _ ≤ 2 ^ (format.precision - 1) * 2 ^ p' := by
        rw [← Nat.pow_add, ← Nat.pow_add]
        exact Nat.pow_le_pow_right (by decide) (by omega)

/-- Of two values the one with the higher place is greater. -/
theorem mul_lt_of_place_lt (h : format.Fits m p) (h' : format.Fits m' p') (hplace : p < p') :
    m * 2 ^ p < m' * 2 ^ p' := by
  have hfull : 2 ^ (format.precision - 1) ≤ m' := by
    have := h.lowest_le
    rcases h'.full with heq | hfull
    · omega
    · exact hfull
  exact Nat.lt_of_lt_of_le (h.lt_of_place_lt hplace) (Nat.mul_le_mul_right _ hfull)

/-- No two significands and places make the same value. -/
theorem unique (h : format.Fits m p) (h' : format.Fits m' p') (heq : m * 2 ^ p = m' * 2 ^ p') :
    m = m' ∧ p = p' := by
  obtain rfl : p = p' := by
    rcases Nat.lt_trichotomy p p' with hlt | hplace | hlt
    · exact absurd heq (Nat.ne_of_lt (h.mul_lt_of_place_lt h' hlt))
    · exact hplace
    · exact absurd heq.symm (Nat.ne_of_lt (h'.mul_lt_of_place_lt h hlt))
  exact ⟨Nat.eq_of_mul_eq_mul_right (Nat.two_pow_pos p) heq, rfl⟩

/-- An even significand has a next one at its place. -/
theorem succ (hprecision : 0 < format.precision) (h : format.Fits m p) (heven : m % 2 = 0) :
    format.Fits (m + 1) p where
  lt_width := by
    have hwidth : 2 ^ format.precision = 2 ^ (format.precision - 1) * 2 := by
      rw [← Nat.pow_succ, Nat.succ_eq_add_one, Nat.sub_add_cancel hprecision]
    have := h.lt_width
    omega
  lowest_le := h.lowest_le
  le_highest := h.le_highest
  full := h.full.imp_right fun hfull => Nat.le_succ_of_le hfull

/-- No value lies between a value and the one with the next significand. -/
theorem succ_mul_le (h : format.Fits m p) (h' : format.Fits m' p')
    (hlt : m * 2 ^ p < m' * 2 ^ p') : (m + 1) * 2 ^ p ≤ m' * 2 ^ p' := by
  have hplace : p ≤ p' := by
    by_contra hnot
    exact absurd (h'.mul_lt_of_place_lt h (Nat.not_le.mp hnot)) (Nat.not_lt.mpr hlt.le)
  rw [← Nat.sub_add_cancel hplace, Nat.pow_add, ← Nat.mul_assoc] at hlt ⊢
  exact Nat.mul_le_mul_right _ (Nat.lt_of_mul_lt_mul_right hlt)

/-- A value is at most a full significand at the highest place. -/
theorem le_largest (h : format.Fits m p) :
    m * 2 ^ p ≤ (2 ^ format.precision - 1) * 2 ^ format.highest :=
  Nat.mul_le_mul (Nat.le_sub_one_of_lt h.lt_width) (Nat.pow_le_pow_right (by decide) h.le_highest)

/-- A value is below what is rounded to infinity. -/
theorem units_lt (h : format.Fits m p) :
    (m * 2 ^ p : ℚ) < format.overflowUnits := by
  have hlargest : (m * 2 ^ p : ℚ) ≤ (2 ^ format.precision - 1 : ℕ) * 2 ^ format.highest := by
    exact_mod_cast h.le_largest
  have hplace : (0 : ℚ) < 2 ^ format.highest := by positivity
  refine hlargest.trans_lt ?_
  rw [overflowUnits, Nat.cast_sub Nat.one_le_two_pow]
  push_cast
  gcongr
  norm_num

end Fits

/-- A number that is as far from one number as from a greater one is nearer to all between them. -/
theorem abs_sub_lt_of_between {u a b c : ℚ} (hab : a < b) (hbc : b < c) (h : |u - a| = |u - c|) :
    |u - b| < |u - a| := by
  have hmiddle : u - a = c - u := by
    rcases abs_eq_abs.mp h with heq | heq
    · linarith
    · linarith
  rw [abs_of_pos (by linarith : 0 < u - a), abs_lt]
  constructor <;> linarith

/-- In the middle between two values with even significands lies a value that is nearer. -/
theorem exists_fits_between {format : FloatFormat} (hprecision : 0 < format.precision)
    {m p m' p' : ℕ} {u : ℚ} (h : format.Fits m p) (h' : format.Fits m' p') (hm : m % 2 = 0)
    (hm' : m' % 2 = 0) (hlt : m * 2 ^ p < m' * 2 ^ p')
    (heq : |u - m * 2 ^ p| = |u - m' * 2 ^ p'|) :
    ∃ k r, format.Fits k r ∧ |u - k * 2 ^ r| < |u - m * 2 ^ p| := by
  have hnext := h.succ hprecision hm
  have hbelow : m * 2 ^ p < (m + 1) * 2 ^ p :=
    Nat.mul_lt_mul_of_pos_right (Nat.lt_succ_self m) (Nat.two_pow_pos p)
  have habove : (m + 1) * 2 ^ p < m' * 2 ^ p' := by
    refine Nat.lt_of_le_of_ne (h.succ_mul_le h' hlt) fun hsame => ?_
    obtain ⟨hodd, -⟩ := hnext.unique h' hsame
    omega
  refine ⟨m + 1, p, hnext, ?_⟩
  exact abs_sub_lt_of_between (by exact_mod_cast hbelow) (by exact_mod_cast habove) heq

/-- The values of a format that are closest to a number of units, ties to the even significand. -/
structure Closest (format : FloatFormat) (u : ℚ) (m p : ℕ) : Prop where
  fits : format.Fits m p
  le_abs_sub : ∀ m' p', format.Fits m' p' → |u - m * 2 ^ p| ≤ |u - m' * 2 ^ p'|
  even : ∀ m' p', format.Fits m' p' → |u - m * 2 ^ p| = |u - m' * 2 ^ p'| →
    m' * 2 ^ p' ≠ m * 2 ^ p → m % 2 = 0

namespace Closest

variable {format : FloatFormat} {u : ℚ} {m p m' p' : ℕ}

/-- There is one closest value. -/
theorem unique (hprecision : 0 < format.precision) (h : format.Closest u m p)
    (h' : format.Closest u m' p') : m = m' ∧ p = p' := by
  by_contra hne
  have hvalue : m * 2 ^ p ≠ m' * 2 ^ p' := fun heq => hne (h.fits.unique h'.fits heq)
  have hdistance := le_antisymm (h.le_abs_sub m' p' h'.fits) (h'.le_abs_sub m p h.fits)
  -- two values at the same distance are both even, and a value between them is closer
  have hm := h.even m' p' h'.fits hdistance hvalue.symm
  have hm' := h'.even m p h.fits hdistance.symm hvalue
  rcases Nat.lt_or_gt_of_ne hvalue with hlt | hlt
  · obtain ⟨k, r, hfits, hcloser⟩ :=
      exists_fits_between hprecision h.fits h'.fits hm hm' hlt hdistance
    exact absurd (h.le_abs_sub k r hfits) (not_le.mpr hcloser)
  · obtain ⟨k, r, hfits, hcloser⟩ :=
      exists_fits_between hprecision h'.fits h.fits hm' hm hlt hdistance.symm
    exact absurd (h'.le_abs_sub k r hfits) (not_le.mpr hcloser)

end Closest

/-- The values nearest to a number are the closest ones of its units. -/
theorem Nearest.closest {format : FloatFormat} {negative : Bool} {u : ℚ} {m p : ℕ}
    (h : format.Nearest negative (withSign negative (u / unitsPerOne)) (.finite negative m p)) :
    format.Closest u m p := by
  have hunit := unitsPerOne_pos
  cases h with
  | finite hfits hbelow hnearest heven =>
    refine ⟨hfits, fun m' p' hfits' => ?_, fun m' p' hfits' heq hne => ?_⟩
    · have := hnearest negative m' p' hfits'
      rwa [abs_sub_toRat, abs_sub_toRat, div_le_div_iff_of_pos_right hunit] at this
    · refine heven negative m' p' hfits' ?_ ((toRat_finite_inj negative).not.mpr hne)
      rw [abs_sub_toRat, abs_sub_toRat, heq]

/-- A number has one nearest value. -/
theorem Nearest.unique {format : FloatFormat} (hprecision : 0 < format.precision) {negative : Bool}
    {q : ℚ} {x y : Binary} (hx : format.Nearest negative q x) (hy : format.Nearest negative q y) :
    x = y := by
  obtain ⟨u, rfl⟩ := exists_units negative q
  cases hx with
  | infinite hbeyond =>
    cases hy with
    | infinite => rfl
    | finite _ hbelow => exact absurd hbelow (not_lt.mpr hbeyond)
  | finite hfits hbelow hnearest heven =>
    cases hy with
    | infinite hbeyond => exact absurd hbelow (not_lt.mpr hbeyond)
    | finite hfits' hbelow' hnearest' heven' =>
      have h := (Nearest.finite hfits hbelow hnearest heven).closest
      have h' := (Nearest.finite hfits' hbelow' hnearest' heven').closest
      obtain ⟨rfl, rfl⟩ := h.unique hprecision h'
      rfl

/-- Zero is a value of every format. -/
theorem fits_zero {format : FloatFormat} (hplaces : format.lowest ≤ format.highest) :
    format.Fits 0 format.lowest :=
  ⟨Nat.two_pow_pos _, le_refl _, hplaces, Or.inl rfl⟩

/-- The closest value of a number of units is the nearest one, if the number is not rounded to infinity:
values of the other sign are no nearer than zero. -/
theorem Closest.nearest {format : FloatFormat} (hplaces : format.lowest ≤ format.highest)
    {u : ℚ} (hu : 0 ≤ u) {m p : ℕ} (h : format.Closest u m p)
    (hbelow : u / unitsPerOne < format.overflow) (negative : Bool) :
    format.Nearest negative (withSign negative (u / unitsPerOne)) (.finite negative m p) := by
  have hunit := unitsPerOne_pos
  have hzero : |u - m * 2 ^ p| ≤ |u - (0 : ℕ) * 2 ^ format.lowest| :=
    h.le_abs_sub 0 format.lowest (fits_zero hplaces)
  have hzero' : |u - (0 : ℕ) * 2 ^ format.lowest| = u := by
    rw [Nat.cast_zero, zero_mul, sub_zero, abs_of_nonneg hu]
  refine .finite h.fits ?_ (fun s m' p' hfits => ?_) fun s m' p' hfits heq hne => ?_
  · rwa [abs_withSign, abs_of_nonneg (div_nonneg hu hunit.le)]
  · rcases Bool.eq_or_eq_not s negative with rfl | rfl
    · rw [abs_sub_toRat, abs_sub_toRat, div_le_div_iff_of_pos_right hunit]
      exact h.le_abs_sub m' p' hfits
    · rw [abs_sub_toRat, abs_sub_toRat_not negative hu, div_le_div_iff_of_pos_right hunit]
      have hvalue := units_nonneg m' p'
      linarith
  · rcases Bool.eq_or_eq_not s negative with rfl | rfl
    · rw [abs_sub_toRat, abs_sub_toRat, div_left_inj' hunit.ne'] at heq
      exact h.even m' p' hfits heq ((toRat_finite_inj s).not.mp hne)
    · -- a value of the other sign at the same distance is zero
      rw [abs_sub_toRat, abs_sub_toRat_not negative hu, div_left_inj' hunit.ne'] at heq
      have hvalue := units_nonneg m' p'
      have hnone : (m' * 2 ^ p' : ℚ) = 0 := by linarith
      refine h.even 0 format.lowest (fits_zero hplaces) (by rw [hzero', heq, hnone, add_zero]) ?_
      intro hsame
      refine hne ?_
      have hm : (m * 2 ^ p : ℚ) = 0 := by
        rw [Nat.zero_mul] at hsame
        exact_mod_cast hsame.symm
      rw [toRat_finite, toRat_finite, hnone, hm, zero_div]
      cases negative <;> simp [withSign]

/-- A value is nearest to the number that it stands for. -/
theorem Fits.nearest {format : FloatFormat} {m p : ℕ} (h : format.Fits m p) (negative : Bool) :
    format.Nearest negative (Binary.finite negative m p).toRat (.finite negative m p) := by
  have hunits := units_nonneg m p
  have hunit := unitsPerOne_pos
  refine .finite h ?_ (fun s m' p' hfits => ?_) fun s m' p' hfits heq hne => ?_
  · rw [abs_toRat_finite, overflow, div_lt_div_iff_of_pos_right hunit]
    exact h.units_lt
  · rw [sub_self, abs_zero]
    exact abs_nonneg _
  · rw [sub_self, abs_zero, eq_comm, abs_eq_zero, sub_eq_zero] at heq
    exact absurd heq.symm hne

/-- A significand of a format's width at one of its places makes a value of the format, at this place or at
a lower one. -/
theorem exists_fits {format : FloatFormat} (hprecision : 0 < format.precision) {m p : ℕ}
    (hm : m < 2 ^ format.precision) (hlowest : format.lowest ≤ p) (hhighest : p ≤ format.highest) :
    ∃ m' p', format.Fits m' p' ∧ m' * 2 ^ p' = m * 2 ^ p := by
  have hwidth : 2 ^ format.precision = 2 * 2 ^ (format.precision - 1) := by
    rw [← Nat.pow_succ', Nat.succ_eq_add_one, Nat.sub_add_cancel hprecision]
  induction p, hlowest using Nat.le_induction generalizing m with
  | base => exact ⟨m, format.lowest, ⟨hm, le_refl _, hhighest, Or.inl rfl⟩, rfl⟩
  | succ p hlowest ih =>
    by_cases hfull : 2 ^ (format.precision - 1) ≤ m
    · exact ⟨m, p + 1, ⟨hm, Nat.le_succ_of_le hlowest, hhighest, Or.inr hfull⟩, rfl⟩
    · obtain ⟨m', p', hfits, hvalue⟩ := @ih (2 * m) (by omega) (Nat.le_of_succ_le hhighest)
      refine ⟨m', p', hfits, hvalue.trans ?_⟩
      rw [Nat.pow_succ']
      ring

/-- A number of at most half the lowest place is rounded to zero. -/
theorem nearest_zero {format : FloatFormat} (hprecision : 0 < format.precision)
    (hplaces : format.lowest ≤ format.highest) {u : ℚ} (hu : 0 ≤ u) (hsmall : 2 * u ≤ 2 ^ format.lowest)
    (negative : Bool) : format.Nearest negative (withSign negative (u / unitsPerOne))
      (.finite negative 0 format.lowest) := by
  have hplace : (0 : ℚ) < 2 ^ format.lowest := by positivity
  have hone : format.Fits 1 format.lowest :=
    ⟨Nat.one_lt_two_pow hprecision.ne', le_refl _, hplaces, Or.inl rfl⟩
  have hbelow : u < format.overflowUnits := by
    have := hone.units_lt
    rw [Nat.cast_one, one_mul] at this
    linarith
  have hclosest : format.Closest u 0 format.lowest := by
    refine ⟨fits_zero hplaces, fun m p hfits => ?_, fun _ _ _ _ _ => rfl⟩
    rw [Nat.cast_zero, zero_mul, sub_zero, abs_of_nonneg hu]
    rcases Nat.eq_zero_or_pos m with rfl | hm
    · rw [Nat.cast_zero, zero_mul, sub_zero, abs_of_nonneg hu]
    · have hvalue : 2 ^ format.lowest ≤ m * 2 ^ p :=
        calc 2 ^ format.lowest ≤ 2 ^ p := Nat.pow_le_pow_right (by decide) hfits.lowest_le
          _ ≤ m * 2 ^ p := Nat.le_mul_of_pos_left _ hm
      have hvalue' : (2 : ℚ) ^ format.lowest ≤ m * 2 ^ p := by exact_mod_cast hvalue
      rw [abs_sub_comm]
      exact le_trans (by linarith) (le_abs_self _)
  exact hclosest.nearest hplaces hu ((div_lt_div_iff_of_pos_right unitsPerOne_pos).mpr hbelow) negative

end FloatFormat
end DriverPolicy
