import DriverPolicy.Number.Binary
import Mathlib.Algebra.Order.Field.Basic
import Mathlib.Algebra.Order.Ring.Abs
import Mathlib.Tactic.Linarith
import Mathlib.Tactic.Positivity

/-!
# The value of a floating-point number

A finite floating-point number stands for a rational one, whatever its significand and place are. Any
number can be counted in units, with a sign; two values of one sign are the same number if they are as many
units, and the distance of a number to a value is a number of units too. Comparing a value with one in units
is comparing its number with one.
-/

namespace DriverPolicy

/-- A number, or its opposite if a minus stands in front of it. -/
def withSign (negative : Bool) (q : ℚ) : ℚ := if negative then -q else q

/-- A sign does not change a magnitude. -/
theorem abs_withSign (negative : Bool) (q : ℚ) : |withSign negative q| = |q| := by
  cases negative with
  | false => rfl
  | true => exact abs_neg q

/-- A sign does not change the distance of two numbers. -/
theorem abs_withSign_sub (negative : Bool) (q r : ℚ) :
    |withSign negative q - withSign negative r| = |q - r| := by
  cases negative with
  | false => rfl
  | true =>
    rw [withSign, withSign, if_pos rfl, if_pos rfl, neg_sub_neg, abs_sub_comm]

/-- There are units in one. -/
theorem unitsPerOne_pos : (0 : ℚ) < unitsPerOne := by
  rw [unitsPerOne, Nat.one_shiftLeft, Nat.cast_pos]
  exact Nat.two_pow_pos unitExponent

/-- A number of units is not negative. -/
theorem units_nonneg (m p : ℕ) : (0 : ℚ) ≤ m * 2 ^ p := by positivity

/-- A significand that is shifted to its place is multiplied by it. -/
theorem cast_shiftLeft (m p : ℕ) : ((m <<< p : ℕ) : ℚ) = m * 2 ^ p := by
  rw [Nat.shiftLeft_eq, Nat.cast_mul, Nat.cast_pow, Nat.cast_ofNat]

/-- Every number is a number of units with a sign. -/
theorem exists_units (negative : Bool) (q : ℚ) :
    ∃ u, q = withSign negative (u / unitsPerOne) := by
  have hunit := unitsPerOne_pos.ne'
  refine ⟨withSign negative q * unitsPerOne, ?_⟩
  rw [mul_div_cancel_right₀ _ hunit]
  cases negative with
  | false => rfl
  | true => exact (neg_neg q).symm

namespace Binary

/-- The rational number that a finite value is; the others have none and count as zero. -/
def toRat : Binary → ℚ
  | finite negative m p =>
    let magnitude := (m * 2 ^ p : ℚ) / 2 ^ unitExponent
    if negative then -magnitude else magnitude
  | _ => 0

/-- A magnitude is its number of units divided by the number of units in one. -/
theorem toRat_finite_false (m p : Nat) :
    (finite false m p).toRat = (m <<< p : Nat) / (unitsPerOne : ℚ) := by
  have hunits : (unitsPerOne : ℚ) = 2 ^ unitExponent := by
    rw [unitsPerOne, Nat.one_shiftLeft, Nat.cast_pow, Nat.cast_ofNat]
  rw [hunits, cast_shiftLeft]
  rfl

/-- A negative value is the opposite of its magnitude. -/
theorem toRat_finite_true (m p : Nat) : (finite true m p).toRat = -(finite false m p).toRat := rfl

/-- The number that a value stands for is its significand scaled by its place, with its sign. -/
theorem toRat_finite (negative : Bool) (m p : ℕ) :
    (finite negative m p).toRat = withSign negative (m * 2 ^ p / unitsPerOne) := by
  have hmagnitude : (finite false m p).toRat = m * 2 ^ p / unitsPerOne := by
    rw [toRat_finite_false, cast_shiftLeft]
  cases negative with
  | false => exact hmagnitude
  | true => rw [toRat_finite_true, hmagnitude, withSign, if_pos rfl]

/-- The magnitude of a value. -/
theorem abs_toRat_finite (negative : Bool) (m p : ℕ) :
    |(finite negative m p).toRat| = m * 2 ^ p / unitsPerOne := by
  rw [toRat_finite, abs_withSign, abs_of_nonneg (div_nonneg (units_nonneg m p) unitsPerOne_pos.le)]

/-- Values of one sign are the same number if and only if they are as many units. -/
theorem toRat_finite_inj (negative : Bool) {m p m' p' : ℕ} :
    (finite negative m p).toRat = (finite negative m' p').toRat ↔ m * 2 ^ p = m' * 2 ^ p' := by
  have hunit := unitsPerOne_pos.ne'
  have hunits : (m * 2 ^ p / unitsPerOne : ℚ) = m' * 2 ^ p' / unitsPerOne ↔
      m * 2 ^ p = m' * 2 ^ p' := by
    rw [div_left_inj' hunit]
    exact_mod_cast Iff.rfl
  rw [toRat_finite, toRat_finite, ← hunits]
  cases negative with
  | false => rfl
  | true => exact neg_inj

/-- The distance of a number to a value of the same sign, counted in units. -/
theorem abs_sub_toRat (negative : Bool) (u : ℚ) (m p : ℕ) :
    |withSign negative (u / unitsPerOne) - (finite negative m p).toRat| =
      |u - m * 2 ^ p| / unitsPerOne := by
  rw [toRat_finite, abs_withSign_sub, ← sub_div, abs_div, abs_of_pos unitsPerOne_pos]

/-- The distance of a number to a value of the other sign, counted in units. -/
theorem abs_sub_toRat_not (negative : Bool) {u : ℚ} (hu : 0 ≤ u) (m p : ℕ) :
    |withSign negative (u / unitsPerOne) - (finite (!negative) m p).toRat| =
      (u + m * 2 ^ p) / unitsPerOne := by
  have hsum : 0 ≤ (u + m * 2 ^ p) / (unitsPerOne : ℚ) :=
    div_nonneg (add_nonneg hu (units_nonneg m p)) unitsPerOne_pos.le
  have hother : (finite (!negative) m p).toRat = withSign negative (-(m * 2 ^ p / unitsPerOne)) := by
    rw [toRat_finite]
    cases negative with
    | false => rfl
    | true => exact (neg_neg _).symm
  rw [hother, abs_withSign_sub, sub_neg_eq_add, ← add_div, abs_of_nonneg hsum]

/-- A value stands for a number of one or more if it is finite and not below one. -/
theorem one_le_toRat_iff {x : Binary} : 1 ≤ x.toRat ↔ x.isFinite ∧ x.belowOne = false := by
  cases x with
  | infinite negative => simp [toRat, isFinite]
  | notANumber => simp [toRat, isFinite]
  | finite negative m p =>
    cases negative with
    | true =>
      have hmagnitude : 0 ≤ (finite false m p).toRat := by
        rw [toRat_finite_false]
        exact div_nonneg (Nat.cast_nonneg _) unitsPerOne_pos.le
      have hbelow : ¬1 ≤ -(finite false m p).toRat := by linarith only [hmagnitude]
      rw [toRat_finite_true]
      simp only [hbelow, belowOne, Bool.true_or, reduceCtorEq, and_false]
    | false =>
      rw [toRat_finite_false, one_le_div unitsPerOne_pos, Nat.cast_le]
      simp [isFinite, belowOne]

end Binary

end DriverPolicy
