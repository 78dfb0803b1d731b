import DriverPolicy.Proofs.Number.Nearest

/-!
# What rounding computes

A magnitude is divided by the last place that suits it, and the quotient is rounded to a natural number,
which is the significand. At this place and above all values are multiples of it, and below it they are
farther away than the least full significand. A significand of the whole width is carried into the next
place. What comes out is the nearest value.
-/

namespace DriverPolicy

/-- A quotient is at most a half away from the natural number that it is rounded to, which is even if it
is as far away. -/
theorem abs_sub_roundDiv {d : ℕ} (hd : 0 < d) (n : ℕ) :
    |(n / d : ℚ) - roundDiv n d| ≤ 1 / 2 ∧
      (|(n / d : ℚ) - roundDiv n d| = 1 / 2 → roundDiv n d % 2 = 0) := by
  have hdpos : (0 : ℚ) < d := by exact_mod_cast hd
  have hdivision : (d * (n / d : ℕ) + (n % d : ℕ) : ℚ) = n := by exact_mod_cast Nat.div_add_mod n d
  have hquotient : (n / d : ℚ) = (n / d : ℕ) + (n % d : ℕ) / d := by
    rw [← hdivision]
    field_simp
  have hrest : (0 : ℚ) ≤ (n % d : ℕ) / d := by positivity
  have hless : ((n % d : ℕ) / d : ℚ) < 1 := by
    rw [div_lt_one hdpos]
    exact_mod_cast Nat.mod_lt n hd
  have hhalf : ((n % d : ℕ) / d : ℚ) < 1 / 2 ↔ 2 * (n % d) < d := by
    rw [div_lt_iff₀ hdpos, ← @Nat.cast_lt ℚ]
    push_cast
    constructor <;> intro h <;> linarith
  have hhalf' : 1 / 2 < ((n % d : ℕ) / d : ℚ) ↔ d < 2 * (n % d) := by
    rw [lt_div_iff₀ hdpos, ← @Nat.cast_lt ℚ]
    push_cast
    constructor <;> intro h <;> linarith
  rw [hquotient]
  unfold roundDiv
  dsimp only
  split
  · next h =>
    rw [add_sub_cancel_left, abs_of_nonneg hrest]
    have := hhalf.mpr h
    exact ⟨this.le, fun heq => absurd heq this.ne⟩
  split
  · next h =>
    have := hhalf'.mpr h
    rw [Nat.cast_add, Nat.cast_one, add_sub_add_left_eq_sub, abs_sub_comm,
      abs_of_pos (by linarith : (0 : ℚ) < 1 - (n % d : ℕ) / d)]
    exact ⟨by linarith, fun heq => absurd heq (by linarith : (1 - (n % d : ℕ) / d : ℚ) < 1 / 2).ne⟩
  · next hlow hhigh =>
    have heq : ((n % d : ℕ) / d : ℚ) = 1 / 2 :=
      le_antisymm (not_lt.mp (hhalf'.not.mpr hhigh)) (not_lt.mp (hhalf.not.mpr hlow))
    split
    · next heven =>
      rw [add_sub_cancel_left, heq]
      exact ⟨by norm_num, fun _ => heven⟩
    · next hodd =>
      rw [Nat.cast_add, Nat.cast_one, add_sub_add_left_eq_sub, heq]
      exact ⟨by norm_num, fun _ => by omega⟩

/-- No natural number is closer to a quotient than the one that it is rounded to, which is even if another
one is as close. -/
theorem abs_sub_roundDiv_le {d : ℕ} (hd : 0 < d) (n j : ℕ) :
    |(n / d : ℚ) - roundDiv n d| ≤ |(n / d : ℚ) - j| ∧
      (|(n / d : ℚ) - roundDiv n d| = |(n / d : ℚ) - j| → j ≠ roundDiv n d →
        roundDiv n d % 2 = 0) := by
  obtain ⟨hhalf, heven⟩ := abs_sub_roundDiv hd n
  by_cases hj : j = roundDiv n d
  · subst hj
    exact ⟨le_refl _, fun _ hne => absurd rfl hne⟩
  · have hapart : (1 : ℚ) ≤ |(roundDiv n d : ℚ) - j| := by
      have : (1 : ℤ) ≤ |(roundDiv n d : ℤ) - j| := Int.one_le_abs (by omega)
      exact_mod_cast this
    have htriangle := abs_sub_le (roundDiv n d : ℚ) (n / d) j
    rw [abs_sub_comm (roundDiv n d : ℚ) (n / d)] at htriangle
    exact ⟨by linarith, fun heq _ => heven (by linarith)⟩

namespace FloatFormat

variable {format : FloatFormat} {n d : ℕ}

/-- A quotient is smaller than a full significand at the place that suits it. -/
theorem div_lt_width (format : FloatFormat) (hd : 0 < d) (n : ℕ) :
    (n / (d * 2 ^ format.placeFor n d : ℕ) : ℚ) < 2 ^ format.precision := by
  have hpos : 0 < d * 2 ^ format.placeFor n d := Nat.mul_pos hd (Nat.two_pow_pos _)
  have hplace : (n / d).log2 + 1 ≤ format.precision + format.placeFor n d := by
    rw [placeFor]
    omega
  have hquotient : n / d < 2 ^ (format.precision + format.placeFor n d) :=
    Nat.lt_of_lt_of_le Nat.lt_log2_self (Nat.pow_le_pow_right (by decide) hplace)
  have hn : n < 2 ^ format.precision * (d * 2 ^ format.placeFor n d) := by
    rw [Nat.div_lt_iff_lt_mul hd, Nat.pow_add] at hquotient
    calc n < 2 ^ format.precision * 2 ^ format.placeFor n d * d := hquotient
      _ = 2 ^ format.precision * (d * 2 ^ format.placeFor n d) := by ring
  rw [div_lt_iff₀ (by exact_mod_cast hpos)]
  exact_mod_cast hn

/-- At a place above the lowest its significand is full. -/
theorem width_le_div (hprecision : 0 < format.precision) (hd : 0 < d)
    (hplace : format.lowest < format.placeFor n d) :
    2 ^ (format.precision - 1) ≤ (n / (d * 2 ^ format.placeFor n d : ℕ) : ℚ) := by
  have hpos : 0 < d * 2 ^ format.placeFor n d := Nat.mul_pos hd (Nat.two_pow_pos _)
  have hlog : (n / d).log2 = format.precision - 1 + format.placeFor n d := by
    rw [placeFor] at hplace ⊢
    omega
  have hquotient : 2 ^ (format.precision - 1 + format.placeFor n d) ≤ n / d := by
    rw [← hlog]
    refine Nat.log2_self_le fun hzero => ?_
    rw [placeFor, hzero, Nat.log2_zero] at hplace
    omega
  have hn : 2 ^ (format.precision - 1) * (d * 2 ^ format.placeFor n d) ≤ n := by
    rw [Nat.le_div_iff_mul_le hd, Nat.pow_add] at hquotient
    calc 2 ^ (format.precision - 1) * (d * 2 ^ format.placeFor n d)
        = 2 ^ (format.precision - 1) * 2 ^ format.placeFor n d * d := by ring
      _ ≤ n := hquotient
  rw [le_div_iff₀ (by exact_mod_cast hpos)]
  exact_mod_cast hn

/-- The significand of a quotient at the place that suits it. -/
def significand (format : FloatFormat) (n d : ℕ) : ℕ := roundDiv n (d * 2 ^ format.placeFor n d)

/-- The distance of a quotient to a multiple of a place, counted in places. -/
theorem abs_sub_mul_two_pow (hd : 0 < d) (n place : ℕ) (x : ℚ) :
    |(n / d : ℚ) - x * 2 ^ place| = |(n / (d * 2 ^ place : ℕ) : ℚ) - x| * 2 ^ place := by
  have hplace : (0 : ℚ) < 2 ^ place := by positivity
  have hd' : (d : ℚ) ≠ 0 := by exact_mod_cast hd.ne'
  rw [← abs_of_pos hplace, ← abs_mul, abs_of_pos hplace]
  congr 1
  push_cast
  field_simp

/-- A value of a lower place is farther away from a quotient that reaches a full significand than the
natural number that the quotient is rounded to: the least full significand lies between. -/
theorem abs_sub_roundDiv_lt (hd : 0 < d) {m p place : ℕ} (h : format.Fits m p) (hlow : p < place)
    (hwidth : 2 ^ (format.precision - 1) ≤ (n / (d * 2 ^ place : ℕ) : ℚ)) :
    |(n / (d * 2 ^ place : ℕ) : ℚ) - roundDiv n (d * 2 ^ place)| <
      |(n / (d * 2 ^ place : ℕ) : ℚ) - m * 2 ^ p / 2 ^ place| := by
  have hplace : (0 : ℚ) < 2 ^ place := by positivity
  have hpos : 0 < d * 2 ^ place := Nat.mul_pos hd (Nat.two_pow_pos place)
  have hless : (m * 2 ^ p / 2 ^ place : ℚ) < 2 ^ (format.precision - 1) := by
    rw [div_lt_iff₀ hplace]
    exact_mod_cast h.lt_of_place_lt hlow
  have hnear := (abs_sub_roundDiv_le hpos n (2 ^ (format.precision - 1))).1
  push_cast at hnear hwidth ⊢
  rw [abs_of_nonneg (by linarith : (0 : ℚ) ≤ n / (d * 2 ^ place) - 2 ^ (format.precision - 1))] at hnear
  rw [abs_of_nonneg (by linarith : (0 : ℚ) ≤ n / (d * 2 ^ place) - m * 2 ^ p / 2 ^ place)]
  linarith

/-- No value of a format is closer to a quotient than its significand at the place that suits it, which is
even if another value is as close. -/
theorem abs_sub_significand_le (hprecision : 0 < format.precision) (hd : 0 < d) {m p : ℕ}
    (h : format.Fits m p) :
    |(n / d : ℚ) - format.significand n d * 2 ^ format.placeFor n d| ≤ |(n / d : ℚ) - m * 2 ^ p| ∧
      (|(n / d : ℚ) - format.significand n d * 2 ^ format.placeFor n d| =
          |(n / d : ℚ) - m * 2 ^ p| →
        m * 2 ^ p ≠ format.significand n d * 2 ^ format.placeFor n d →
          format.significand n d % 2 = 0) := by
  have hfull := @width_le_div format n d hprecision hd
  unfold significand
  generalize format.placeFor n d = place at *
  have hplace : (0 : ℚ) < 2 ^ place := by positivity
  have hpos : 0 < d * 2 ^ place := Nat.mul_pos hd (Nat.two_pow_pos place)
  by_cases hlow : place ≤ p
  · -- the value is a multiple of the place
    have hvalue : m * 2 ^ p = m * 2 ^ (p - place) * 2 ^ place := by
      rw [Nat.mul_assoc, ← Nat.pow_add, Nat.sub_add_cancel hlow]
    have hvalue' : (m * 2 ^ p : ℚ) = (m * 2 ^ (p - place) : ℕ) * 2 ^ place := by
      exact_mod_cast hvalue
    obtain ⟨hle, heven⟩ := abs_sub_roundDiv_le hpos n (m * 2 ^ (p - place))
    rw [hvalue', abs_sub_mul_two_pow hd, abs_sub_mul_two_pow hd, mul_left_inj' hplace.ne']
    refine ⟨by gcongr, fun heq hne => heven heq fun hsame => hne ?_⟩
    rw [hvalue, hsame]
  · have hwidth := hfull (Nat.lt_of_le_of_lt h.lowest_le (Nat.not_le.mp hlow))
    have hvalue : (m * 2 ^ p : ℚ) = m * 2 ^ p / 2 ^ place * 2 ^ place := by
      rw [div_mul_cancel₀ _ hplace.ne']
    have hfarther : |(n / d : ℚ) - roundDiv n (d * 2 ^ place) * 2 ^ place| <
        |(n / d : ℚ) - m * 2 ^ p| := by
      rw [hvalue, abs_sub_mul_two_pow hd, abs_sub_mul_two_pow hd]
      have := abs_sub_roundDiv_lt hd h (Nat.not_le.mp hlow) hwidth
      gcongr
    exact ⟨hfarther.le, fun heq => absurd heq hfarther.ne⟩

/-- A number of units that is multiplied by a place. -/
theorem div_mul_two_pow (n d place : ℕ) :
    (n / (d * 2 ^ place : ℕ) : ℚ) * 2 ^ place = n / d := by
  push_cast
  field_simp

/-- The significand of a quotient needs the whole width at most. -/
theorem significand_le_width (format : FloatFormat) (hd : 0 < d) (n : ℕ) :
    format.significand n d ≤ 2 ^ format.precision := by
  have hpos : 0 < d * 2 ^ format.placeFor n d := Nat.mul_pos hd (Nat.two_pow_pos _)
  have hquotient := format.div_lt_width hd n
  obtain ⟨hhalf, -⟩ := abs_sub_roundDiv hpos n
  have hless : (format.significand n d : ℚ) < (2 ^ format.precision + 1 : ℕ) := by
    have := (abs_le.mp hhalf).1
    push_cast
    unfold significand
    linarith
  exact Nat.lt_succ_iff.mp (by exact_mod_cast hless)

/-- At a place above the lowest the significand is full. -/
theorem width_le_significand (hprecision : 0 < format.precision) (hd : 0 < d)
    (hplace : format.lowest < format.placeFor n d) :
    2 ^ (format.precision - 1) ≤ format.significand n d := by
  have hpos : 0 < d * 2 ^ format.placeFor n d := Nat.mul_pos hd (Nat.two_pow_pos _)
  have hquotient := width_le_div hprecision hd hplace
  obtain ⟨hhalf, -⟩ := abs_sub_roundDiv hpos n
  have hless : ((2 ^ (format.precision - 1) : ℕ) : ℚ) < (format.significand n d + 1 : ℕ) := by
    have := (abs_le.mp hhalf).2
    push_cast
    unfold significand
    linarith
  exact Nat.lt_succ_iff.mp (by exact_mod_cast hless)

/-- A quotient whose significand keeps to the width is less than half a place below it: in the middle the
significand would be odd. -/
theorem div_lt_of_significand_ne (hprecision : 0 < format.precision) (hd : 0 < d)
    (hne : format.significand n d ≠ 2 ^ format.precision) :
    (n / (d * 2 ^ format.placeFor n d : ℕ) : ℚ) < 2 ^ format.precision - 1 / 2 := by
  have hpos : 0 < d * 2 ^ format.placeFor n d := Nat.mul_pos hd (Nat.two_pow_pos _)
  have hlt : format.significand n d < 2 ^ format.precision :=
    Nat.lt_of_le_of_ne (format.significand_le_width hd n) hne
  have hcast : (format.significand n d : ℚ) + 1 ≤ 2 ^ format.precision := by exact_mod_cast hlt
  obtain ⟨hhalf, heven⟩ := abs_sub_roundDiv hpos n
  rw [← significand] at hhalf heven
  have habove := (abs_le.mp hhalf).2
  refine lt_of_le_of_ne (by linarith) fun heq => ?_
  have hlast : (format.significand n d : ℚ) + 1 = 2 ^ format.precision := by linarith
  have hodd : format.significand n d + 1 = 2 ^ format.precision := by exact_mod_cast hlast
  have hwidth : 2 ^ format.precision = 2 * 2 ^ (format.precision - 1) := by
    rw [← Nat.pow_succ', Nat.succ_eq_add_one, Nat.sub_add_cancel hprecision]
  have hdistance : (n / (d * 2 ^ format.placeFor n d : ℕ) : ℚ) - format.significand n d = 1 / 2 := by
    linarith
  have := heven (by rw [hdistance, abs_of_pos (by norm_num)])
  omega

/-- A quotient whose significand is carried is at most half a place below the width. -/
theorem le_div_of_significand_eq (hd : 0 < d)
    (heq : format.significand n d = 2 ^ format.precision) :
    2 ^ format.precision - 1 / 2 ≤ (n / (d * 2 ^ format.placeFor n d : ℕ) : ℚ) := by
  have hpos : 0 < d * 2 ^ format.placeFor n d := Nat.mul_pos hd (Nat.two_pow_pos _)
  obtain ⟨hhalf, -⟩ := abs_sub_roundDiv hpos n
  rw [← significand, heq] at hhalf
  have hbelow := (abs_le.mp hhalf).1
  push_cast at hbelow ⊢
  linarith

/-- The significand and the last place of a rounded quotient: a significand that needs the whole width is
carried into the next place. -/
def carried (format : FloatFormat) (n d : ℕ) : ℕ × ℕ :=
  if format.significand n d = 2 ^ format.precision then
    (2 ^ (format.precision - 1), format.placeFor n d + 1)
  else (format.significand n d, format.placeFor n d)

/-- A quotient is rounded to its significand and place, or to infinity if the place is too high. -/
theorem round_eq (format : FloatFormat) (hprecision : 0 < format.precision) (negative : Bool) (n d : ℕ) :
    format.round negative n d =
      if format.highest < (format.carried n d).2 then .infinite negative
      else .finite negative (format.carried n d).1 (format.carried n d).2 := by
  unfold round carried
  simp only [Nat.shiftLeft_eq, Nat.one_mul]
  rw [← significand]
  split
  · next heq =>
    have hhalf : 2 ^ format.precision / 2 = 2 ^ (format.precision - 1) :=
      Nat.pow_div hprecision (by decide)
    rw [heq, hhalf]
  · rfl

/-- A carry does not change the number of units. -/
theorem carried_mul (hprecision : 0 < format.precision) (n d : ℕ) :
    (format.carried n d).1 * 2 ^ (format.carried n d).2 =
      format.significand n d * 2 ^ format.placeFor n d := by
  unfold carried
  split
  · next heq =>
    rw [heq, ← Nat.pow_add, ← Nat.pow_add]
    congr 1
    omega
  · rfl

/-- A carry leaves the significand even. -/
theorem carried_even (hprecision : 2 ≤ format.precision) (h : format.significand n d % 2 = 0) :
    (format.carried n d).1 % 2 = 0 := by
  unfold carried
  split
  · have hwidth : 2 ^ (format.precision - 1) = 2 * 2 ^ (format.precision - 2) := by
      rw [← Nat.pow_succ']
      congr 1
      omega
    dsimp only
    omega
  · exact h

/-- A rounded quotient whose place is not too high is a value of the format. -/
theorem carried_fits (hprecision : 0 < format.precision) (hd : 0 < d)
    (hplace : (format.carried n d).2 ≤ format.highest) :
    format.Fits (format.carried n d).1 (format.carried n d).2 := by
  have hlowest : format.lowest ≤ format.placeFor n d := Nat.le_max_left _ _
  have hle := format.significand_le_width hd n
  unfold carried at hplace ⊢
  split at hplace
  · next heq =>
    have hwidth : 2 ^ (format.precision - 1) < 2 ^ format.precision :=
      Nat.pow_lt_pow_right (by decide) (by omega)
    rw [if_pos heq]
    exact ⟨hwidth, Nat.le_succ_of_le hlowest, hplace, Or.inr (le_refl _)⟩
  · next hne =>
    rw [if_neg hne]
    refine ⟨Nat.lt_of_le_of_ne hle hne, hlowest, hplace, ?_⟩
    rcases Nat.eq_or_lt_of_le hlowest with heq | hlt
    · exact Or.inl heq.symm
    · exact Or.inr (width_le_significand hprecision hd hlt)

/-- The place of a rounded quotient is too high if and only if the quotient reaches half a last place above
the largest value. -/
theorem highest_lt_carried_iff (hprecision : 0 < format.precision)
    (hplaces : format.lowest ≤ format.highest) (hd : 0 < d) :
    format.highest < (format.carried n d).2 ↔ format.overflowUnits ≤ (n / d : ℚ) := by
  have hunits := div_mul_two_pow n d (format.placeFor n d)
  have hwidth : (2 : ℚ) ^ format.precision = 2 ^ (format.precision - 1) * 2 := by
    rw [← pow_succ, Nat.sub_add_cancel hprecision]
  have hone : (1 : ℚ) ≤ 2 ^ (format.precision - 1) := one_le_pow₀ (by norm_num)
  have hscale (a b : ℕ) (hab : a ≤ b) : (2 : ℚ) ^ a ≤ 2 ^ b := pow_le_pow_right₀ (by norm_num) hab
  have hscale' (a b : ℕ) (hab : a < b) : (2 : ℚ) ^ a * 2 ≤ 2 ^ b := by
    rw [← pow_succ]
    exact hscale _ _ hab
  unfold carried overflowUnits
  rw [← hunits]
  split
  · next heq =>
    have hlow := le_div_of_significand_eq hd heq
    have hhigh := format.div_lt_width hd n
    constructor
    · intro hbeyond
      have := hscale _ _ (Nat.lt_succ_iff.mp hbeyond)
      gcongr
    · intro hle
      by_contra hnot
      have hdouble := hscale' (format.placeFor n d) format.highest (by omega)
      refine absurd hle (not_le.mpr ?_)
      calc (n / (d * 2 ^ format.placeFor n d : ℕ) : ℚ) * 2 ^ format.placeFor n d
          < 2 ^ format.precision * 2 ^ format.placeFor n d := by gcongr
        _ = 2 ^ (format.precision - 1) * (2 ^ format.placeFor n d * 2) := by rw [hwidth]; ring
        _ ≤ 2 ^ (format.precision - 1) * 2 ^ format.highest := by gcongr
        _ ≤ (2 ^ format.precision - 1 / 2) * 2 ^ format.highest := by gcongr; linarith
  · next hne =>
    have hhigh := div_lt_of_significand_ne hprecision hd hne
    constructor
    · intro hbeyond
      have hlow := width_le_div hprecision hd (Nat.lt_of_le_of_lt hplaces hbeyond)
      have hdouble := hscale' _ _ hbeyond
      calc (2 ^ format.precision - 1 / 2 : ℚ) * 2 ^ format.highest
          ≤ 2 ^ format.precision * 2 ^ format.highest := by gcongr; linarith
        _ = 2 ^ (format.precision - 1) * (2 ^ format.highest * 2) := by rw [hwidth]; ring
        _ ≤ 2 ^ (format.precision - 1) * 2 ^ format.placeFor n d := by gcongr
        _ ≤ (n / (d * 2 ^ format.placeFor n d : ℕ) : ℚ) * 2 ^ format.placeFor n d := by gcongr
    · intro hle
      by_contra hnot
      have := hscale _ _ (Nat.not_lt.mp hnot)
      refine absurd hle (not_le.mpr ?_)
      calc (n / (d * 2 ^ format.placeFor n d : ℕ) : ℚ) * 2 ^ format.placeFor n d
          < (2 ^ format.precision - 1 / 2) * 2 ^ format.placeFor n d := by gcongr
        _ ≤ (2 ^ format.precision - 1 / 2) * 2 ^ format.highest := by gcongr; linarith

/-- Rounding gives the nearest value, ties to the even significand. -/
theorem nearest_round (hprecision : 2 ≤ format.precision) (hplaces : format.lowest ≤ format.highest)
    (hd : 0 < d) (negative : Bool) :
    format.Nearest negative (withSign negative (n / d / unitsPerOne)) (format.round negative n d) := by
  have hquotient : (0 : ℚ) ≤ n / d := by positivity
  have hunit := unitsPerOne_pos
  have hwidth : 0 < format.precision := by omega
  have hbeyond := @highest_lt_carried_iff format n d hwidth hplaces hd
  rw [round_eq format hwidth]
  split
  · next hplace =>
    refine .infinite ?_
    rw [abs_withSign, abs_of_nonneg (div_nonneg hquotient hunit.le), overflow,
      div_le_div_iff_of_pos_right hunit]
    exact hbeyond.mp hplace
  · next hplace =>
    have hvalue := carried_mul hwidth n d
    have hvalue' : ((format.carried n d).1 * 2 ^ (format.carried n d).2 : ℚ) =
        format.significand n d * 2 ^ format.placeFor n d := by exact_mod_cast hvalue
    have hclosest : format.Closest (n / d) (format.carried n d).1 (format.carried n d).2 := by
      refine ⟨carried_fits hwidth hd (Nat.not_lt.mp hplace), fun m p hfits => ?_,
        fun m p hfits heq hne => ?_⟩
      · rw [hvalue']
        exact (abs_sub_significand_le hwidth hd hfits).1
      · rw [hvalue'] at heq
        rw [hvalue] at hne
        exact carried_even hprecision ((abs_sub_significand_le hwidth hd hfits).2 heq hne)
    refine hclosest.nearest hplaces hquotient ?_ negative
    rw [overflow, div_lt_div_iff_of_pos_right hunit]
    exact not_le.mp (hbeyond.not.mp hplace)

end FloatFormat
end DriverPolicy
