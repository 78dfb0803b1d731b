import DriverPolicy.Proofs.Number.Rounding

/-!
# Rounding to 32 bits

The values of 32 bits are values of 64 bits as well. What is within the range of 32 bits is rounded to one
of them, the nearest, which is held in 64 bits as the same number; rounding it again does not change it.
-/

namespace DriverPolicy

/-- A sign and a magnitude in units are rounded to the nearest value of the number that they make. -/
theorem FloatFormat.nearest_round_finite (format : FloatFormat) (hprecision : 2 ≤ format.precision)
    (hplaces : format.lowest ≤ format.highest) (negative : Bool) (m p : ℕ) :
    format.Nearest negative (Binary.finite negative m p).toRat (format.round negative (m <<< p) 1) := by
  have hround := @FloatFormat.nearest_round format (m <<< p) 1 hprecision hplaces Nat.one_pos negative
  have hvalue : ((m <<< p : ℕ) / (1 : ℕ) / unitsPerOne : ℚ) = m * 2 ^ p / unitsPerOne := by
    rw [cast_shiftLeft, Nat.cast_one, div_one]
  rwa [hvalue, ← Binary.toRat_finite] at hround

/-- A value is at most a full significand at the highest place. -/
theorem FloatFormat.Fits.shiftLeft_le {format : FloatFormat} {m p : ℕ} (h : format.Fits m p) :
    m <<< p ≤ (1 <<< format.precision - 1) <<< format.highest := by
  rw [Nat.shiftLeft_eq, Nat.shiftLeft_eq, Nat.one_shiftLeft]
  exact h.le_largest

/-- The value of 64 bits that is the value of 32 bits nearest to a number, which is finite. -/
inductive NearestSingle (negative : Bool) (q : ℚ) (y : Binary) : Prop
  | intro {z : Binary} (hnearest : binary32.Nearest negative q z) (hfinite : z.isFinite)
      (hheld : binary64.Nearest negative z.toRat y) (hvalue : y.toRat = z.toRat)

/-- The largest number of 32 bits. -/
def largestSingle : ℚ := (2 - 1 / 2 ^ 23) * 2 ^ 127

/-- The limit of 32 bits is their largest number, in units. -/
theorem singleLimit_eq : (Binary.singleLimit : ℚ) = largestSingle * unitsPerOne := by
  have hscale {limit units : ℕ} (h : limit * 2 ^ 23 = 16777215 * 2 ^ 127 * units) :
      (limit : ℚ) = (2 - 1 / 2 ^ 23) * 2 ^ 127 * units := by
    have h' : (limit * 2 ^ 23 : ℚ) = 16777215 * 2 ^ 127 * units := by exact_mod_cast h
    linarith
  exact hscale (by decide +kernel)

/-- The largest number of 32 bits is below what they round to infinity. -/
theorem largestSingle_lt_overflow : largestSingle < binary32.overflow := by
  have hunit := unitsPerOne_pos
  have hlimit := singleLimit_eq
  have hfits : binary32.Fits 16777215 1178 :=
    ⟨by decide, by decide, by decide, Or.inr (by decide)⟩
  have hunits : 16777215 <<< 1178 = Binary.singleLimit := rfl
  have hbelow := hfits.units_lt
  rw [← cast_shiftLeft, hunits, hlimit] at hbelow
  rwa [FloatFormat.overflow, lt_div_iff₀ hunit]

namespace Binary

variable {s : Bool} {m p : ℕ}

/-- A value is within the range of 32 bits if and only if it is finite and its magnitude is at most their
largest number. -/
theorem fitsSingle_iff {x : Binary} : x.fitsSingle ↔ x.isFinite ∧ |x.toRat| ≤ largestSingle := by
  have hunit := unitsPerOne_pos
  cases x with
  | infinite s => simp [fitsSingle, isFinite]
  | notANumber => simp [fitsSingle, isFinite]
  | finite s m p =>
    rw [abs_toRat_finite, div_le_iff₀ hunit, ← singleLimit_eq]
    simp only [fitsSingle, isFinite, decide_eq_true_eq, true_and]
    rw [← cast_shiftLeft, Nat.cast_le]

/-- A value of 32 bits is a value of 64 bits. -/
theorem exists_fits_double (h : binary32.Fits m p) :
    ∃ m' p', binary64.Fits m' p' ∧ m' * 2 ^ p' = m * 2 ^ p := by
  have hwidth : 2 ^ binary32.precision ≤ 2 ^ binary64.precision := by decide
  have hplaces : binary32.highest ≤ binary64.highest := by decide
  exact FloatFormat.exists_fits (by decide) (Nat.lt_of_lt_of_le h.lt_width hwidth) (Nat.zero_le p)
    (Nat.le_trans h.le_highest hplaces)

/-- A number that is nearest to a value of 32 bits is held as this value in 64 bits. -/
theorem nearestSingle_of_nearest {q : ℚ} {y : Binary} (hnearest : binary32.Nearest s q (finite s m p))
    (hheld : binary64.Nearest s (finite s m p).toRat y) :
    NearestSingle s q y := by
  cases id hnearest with
  | finite hfits =>
    obtain ⟨m', p', hfits', hunits⟩ := exists_fits_double hfits
    have hvalue : (finite s m' p').toRat = (finite s m p).toRat := (toRat_finite_inj s).mpr hunits
    obtain rfl : y = finite s m' p' := by
      refine hheld.unique (by decide) ?_
      rw [← hvalue]
      exact hfits'.nearest s
    exact ⟨hnearest, rfl, hheld, hvalue⟩

/-- A sign and a magnitude within the range of 32 bits are rounded to the nearest value of 32 bits. -/
theorem nearestSingle_toSingle (h : (finite s m p).fitsSingle) :
    NearestSingle s (finite s m p).toRat (finite s m p).toSingle := by
  have hround := binary32.nearest_round_finite (by decide) (by decide) s m p
  have hbelow := (fitsSingle_iff.mp h).2.trans_lt largestSingle_lt_overflow
  unfold toSingle
  dsimp only
  generalize binary32.round s (m <<< p) 1 = z at hround
  cases id hround with
  | infinite hbeyond => exact absurd hbelow (not_lt.mpr hbeyond)
  | @finite m' p' =>
    have hheld := binary64.nearest_round_finite (by decide) (by decide) s m' p'
    exact nearestSingle_of_nearest hround hheld

end Binary

namespace NearestSingle

variable {negative : Bool} {q : ℚ} {y y' : Binary}

/-- A number has one nearest value of 32 bits. -/
theorem unique (h : NearestSingle negative q y) (h' : NearestSingle negative q y') : y = y' := by
  obtain ⟨hnearest, -, hheld, -⟩ := h
  obtain ⟨hnearest', -, hheld', -⟩ := h'
  obtain rfl := hnearest.unique (by decide) hnearest'
  exact hheld.unique (by decide) hheld'

/-- The value is held with finite significand and place, and as a value of 32 bits it has them too. -/
theorem exists_finite (h : NearestSingle negative q y) : ∃ m p m' p',
    y = .finite negative m' p' ∧ binary32.Fits m p ∧ binary64.Fits m' p' ∧
      m' * 2 ^ p' = m * 2 ^ p := by
  obtain ⟨hnearest, hfinite, hheld, hvalue⟩ := h
  cases id hnearest with
  | infinite => simp [Binary.isFinite] at hfinite
  | @finite m p hfits =>
    obtain ⟨m', p', hfits', hunits⟩ := Binary.exists_fits_double hfits
    refine ⟨m, p, m', p', hheld.unique (by decide) ?_, hfits, hfits', hunits⟩
    rw [← (Binary.toRat_finite_inj negative).mpr hunits]
    exact hfits'.nearest negative

/-- It is finite. -/
theorem isFinite (h : NearestSingle negative q y) : y.isFinite := by
  obtain ⟨m, p, m', p', rfl, -⟩ := h.exists_finite
  rfl

/-- It is within the range of 32 bits. -/
theorem fitsSingle (h : NearestSingle negative q y) : y.fitsSingle := by
  obtain ⟨m, p, m', p', rfl, hfits, -, hunits⟩ := h.exists_finite
  have hlimit : Binary.singleLimit = (1 <<< binary32.precision - 1) <<< binary32.highest := by
    decide +kernel
  have hshifted : m' <<< p' = m <<< p := by rw [Nat.shiftLeft_eq, Nat.shiftLeft_eq, hunits]
  rw [Binary.fitsSingle, decide_eq_true_eq, hshifted, hlimit]
  exact hfits.shiftLeft_le

/-- Rounding it again does not change it. -/
theorem toSingle_eq (h : NearestSingle negative q y) : y.toSingle = y := by
  have hfitsSingle := h.fitsSingle
  obtain ⟨m, p, m', p', rfl, hfits, hfits', hunits⟩ := h.exists_finite
  have hvalue := (Binary.toRat_finite_inj negative).mpr hunits
  refine (Binary.nearestSingle_toSingle hfitsSingle).unique (.intro ?_ rfl ?_ hvalue)
  · rw [hvalue]
    exact hfits.nearest negative
  · rw [← hvalue]
    exact hfits'.nearest negative

end NearestSingle

namespace Binary

variable {x : Binary}

/-- What is within the range of 32 bits is rounded to the nearest value of 32 bits. -/
theorem exists_nearestSingle (h : x.fitsSingle) : ∃ negative, NearestSingle negative x.toRat x.toSingle := by
  cases x with
  | infinite s => simp [fitsSingle] at h
  | notANumber => simp [fitsSingle] at h
  | finite s m p => exact ⟨s, nearestSingle_toSingle h⟩

/-- Everything within the range of 32 bits is finite when it is rounded to them. -/
theorem isFinite_toSingle (h : x.fitsSingle) : x.toSingle.isFinite := by
  obtain ⟨negative, hnearest⟩ := exists_nearestSingle h
  exact hnearest.isFinite

/-- Rounding to 32 bits twice is rounding once. -/
theorem toSingle_toSingle (h : x.fitsSingle) : x.toSingle.toSingle = x.toSingle := by
  obtain ⟨negative, hnearest⟩ := exists_nearestSingle h
  exact hnearest.toSingle_eq

end Binary

end DriverPolicy
