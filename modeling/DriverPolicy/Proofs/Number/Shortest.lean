import DriverPolicy.Number.Shortest
import DriverPolicy.Proofs.Number.Numeral

/-!
# Shortest texts

The numbers that round to a finite value lie between the middles to the two values beside it, the ends
included if the significand is even. The digits that are searched for are those of a number in between, and
eighteen of them always suffice, so digits are found for every value. However they are laid out, the text is
a decimal numeral of the number that they stand for. The text of a value is therefore read back as the value,
and no two values have one text.
-/

namespace DriverPolicy

/-! ### Numbers that round to a value -/

/-- The middle between a value and the one below it, in units. -/
def lowerEnd (m p : ℕ) : ℚ := m * 2 ^ p - if m = 2 ^ 52 ∧ 0 < p then 2 ^ p / 4 else 2 ^ p / 2

/-- The middle between a value and the one above it, in units. -/
def upperEnd (m p : ℕ) : ℚ := m * 2 ^ p + 2 ^ p / 2

/-- The numbers of units that round to a value. -/
structure RoundsTo (m p : ℕ) (u : ℚ) : Prop where
  /-- The lower end is not passed. -/
  low : lowerEnd m p ≤ u
  /-- The upper end is not passed. -/
  high : u ≤ upperEnd m p
  /-- The ends round to an even significand. -/
  strict : m % 2 ≠ 0 → lowerEnd m p < u ∧ u < upperEnd m p

namespace FloatFormat.Fits

variable {m p m' p' : ℕ}

/-- No smaller value is nearer to a number above the lower end. -/
theorem add_le_lowerEnd (h : binary64.Fits m p) (h' : binary64.Fits m' p')
    (hlt : m' * 2 ^ p' < m * 2 ^ p) : (m' * 2 ^ p' + m * 2 ^ p : ℚ) ≤ 2 * lowerEnd m p := by
  have hpower : (0 : ℚ) < 2 ^ p := by positivity
  have hgap : (m' * 2 ^ p' : ℚ) + (if m = 2 ^ 52 ∧ 0 < p then 2 ^ p / 2 else 2 ^ p) ≤ m * 2 ^ p := by
    rcases Nat.lt_or_ge p' p with hplace | hplace
    · -- a value at a lower place is at most the largest one at the place below
      have hwidth : (m' : ℚ) + 1 ≤ 2 ^ 53 := by exact_mod_cast h'.lt_width
      have hfull : 2 ^ 52 ≤ m := h.full.resolve_left (by
        have : binary64.lowest = 0 := rfl
        omega)
      obtain ⟨k, rfl⟩ := Nat.exists_eq_add_of_lt hplace
      have hsmall : (2 : ℚ) ^ p' ≤ 2 ^ (p' + k) :=
        pow_le_pow_right₀ (by norm_num) (Nat.le_add_right _ _)
      have hdouble : (2 : ℚ) ^ (p' + k + 1) = 2 * 2 ^ (p' + k) := by ring
      have hvalue : (m' * 2 ^ p' : ℚ) ≤ (2 ^ 53 - 1) * 2 ^ (p' + k) := by
        have : (m' : ℚ) ≤ 2 ^ 53 - 1 := by linarith
        gcongr
      split
      · next hm =>
        rw [hm.1, hdouble]
        push_cast
        linarith
      · next hm =>
        have hm' : (2 ^ 52 + 1 : ℚ) ≤ m := by
          have hne : m ≠ 2 ^ 52 := fun heq => hm ⟨heq, by omega⟩
          exact_mod_cast Nat.lt_of_le_of_ne hfull hne.symm
        have : (2 ^ 52 + 1 : ℚ) * 2 ^ (p' + k + 1) ≤ m * 2 ^ (p' + k + 1) := by gcongr
        rw [hdouble] at this ⊢
        linarith
    · have hnext : ((m' + 1 : ℕ) * 2 ^ p' : ℚ) ≤ m * 2 ^ p := by exact_mod_cast h'.succ_mul_le h hlt
      have hlarge : (2 : ℚ) ^ p ≤ 2 ^ p' := pow_le_pow_right₀ (by norm_num) hplace
      push_cast at hnext
      split <;> linarith
  rw [lowerEnd]
  by_cases hedge : m = 2 ^ 52 ∧ 0 < p
  · rw [if_pos hedge] at hgap ⊢
    linarith
  · rw [if_neg hedge] at hgap ⊢
    linarith

/-- No greater value is nearer to a number below the upper end. -/
theorem upperEnd_le_add (h : binary64.Fits m p) (h' : binary64.Fits m' p')
    (hlt : m * 2 ^ p < m' * 2 ^ p') : 2 * upperEnd m p ≤ (m' * 2 ^ p' + m * 2 ^ p : ℚ) := by
  have hnext : ((m + 1 : ℕ) * 2 ^ p : ℚ) ≤ m' * 2 ^ p' := by exact_mod_cast h.succ_mul_le h' hlt
  push_cast at hnext
  rw [upperEnd]
  linarith

end FloatFormat.Fits

namespace RoundsTo

variable {m p : ℕ} {u : ℚ}

/-- Whether one number is nearer than another is decided by the middle between them. -/
theorem abs_sub_le_iff_middle {u a b : ℚ} : |u - a| ≤ |u - b| ↔ 0 ≤ (a - b) * (2 * u - (b + a)) := by
  rw [← sq_le_sq, ← sub_nonneg]
  exact iff_of_eq (congrArg (0 ≤ ·) (by ring))

/-- No value is closer to a number that rounds to a value. -/
theorem closest (h : RoundsTo m p u) (hfits : binary64.Fits m p) : binary64.Closest u m p := by
  refine ⟨hfits, fun m' p' hfits' => ?_, fun m' p' hfits' heq hne => ?_⟩
  · rw [abs_sub_le_iff_middle]
    rcases Nat.lt_trichotomy (m' * 2 ^ p') (m * 2 ^ p) with hlt | hsame | hlt
    · have hmiddle := hfits.add_le_lowerEnd hfits' hlt
      have hlt' : (m' * 2 ^ p' : ℚ) < m * 2 ^ p := by exact_mod_cast hlt
      exact mul_nonneg (by linarith) (by linarith [h.low])
    · have hsame' : (m' * 2 ^ p' : ℚ) = m * 2 ^ p := by exact_mod_cast hsame
      rw [hsame', sub_self, zero_mul]
    · have hmiddle := hfits.upperEnd_le_add hfits' hlt
      have hlt' : (m * 2 ^ p : ℚ) < m' * 2 ^ p' := by exact_mod_cast hlt
      exact mul_nonneg_of_nonpos_of_nonpos (by linarith) (by linarith [h.high])
  · -- only at an end are two values equally near, and the ends round to even significands
    by_contra hodd
    obtain ⟨hlow, hhigh⟩ := h.strict hodd
    refine absurd (abs_sub_le_iff_middle.mp heq.ge) (not_le.mpr ?_)
    rcases Nat.lt_or_gt_of_ne hne with hlt | hlt
    · have hmiddle := hfits.add_le_lowerEnd hfits' hlt
      have hlt' : (m' * 2 ^ p' : ℚ) < m * 2 ^ p := by exact_mod_cast hlt
      exact mul_neg_of_neg_of_pos (by linarith) (by linarith)
    · have hmiddle := hfits.upperEnd_le_add hfits' hlt
      have hlt' : (m * 2 ^ p : ℚ) < m' * 2 ^ p' := by exact_mod_cast hlt
      exact mul_neg_of_pos_of_neg (by linarith) (by linarith)

/-- A number that rounds to a value is in the range of finite values. -/
theorem lt_overflowUnits (h : RoundsTo m p u) (hfits : binary64.Fits m p) : u < binary64.overflowUnits := by
  have hwidth : m < 2 ^ 53 := hfits.lt_width
  have hpower : (2 : ℚ) ^ p ≤ 2 ^ binary64.highest := pow_le_pow_right₀ (by norm_num) hfits.le_highest
  have hlimit : binary64.overflowUnits = (2 ^ 53 - 1 / 2) * 2 ^ binary64.highest := rfl
  have hlargest : (0 : ℚ) < 2 ^ binary64.highest := by positivity
  rw [hlimit]
  generalize (2 : ℚ) ^ binary64.highest = largest at hpower hlargest
  have hupper (n : ℕ) (hn : m + n ≤ 2 ^ 53) : upperEnd m p ≤ (2 ^ 53 - n + 1 / 2) * largest := by
    have hroom : (m : ℚ) ≤ 2 ^ 53 - n := by
      have : ((m + n : ℕ) : ℚ) ≤ (2 ^ 53 : ℕ) := Nat.cast_le.mpr hn
      push_cast at this
      linarith
    have hnonneg : (0 : ℚ) ≤ 2 ^ 53 - n := le_trans (Nat.cast_nonneg m) hroom
    calc upperEnd m p = (m + 1 / 2) * 2 ^ p := by rw [upperEnd]; ring
      _ ≤ (2 ^ 53 - n + 1 / 2) * 2 ^ p := by gcongr
      _ ≤ (2 ^ 53 - n + 1 / 2) * largest := by gcongr
  by_cases heven : m % 2 = 0
  · calc u ≤ (2 ^ 53 - (2 : ℕ) + 1 / 2) * largest := h.high.trans (hupper 2 (by omega))
      _ < (2 ^ 53 - 1 / 2) * largest := by gcongr; norm_num
  · calc u < upperEnd m p := (h.strict heven).2
      _ ≤ (2 ^ 53 - (1 : ℕ) + 1 / 2) * largest := hupper 1 hwidth
      _ = (2 ^ 53 - 1 / 2) * largest := by ring

/-- A value is the nearest one to a number that rounds to it. -/
theorem nearest {q : ℚ} (hq : 0 ≤ q) (h : RoundsTo m p (q * unitsPerOne)) (hfits : binary64.Fits m p)
    (negative : Bool) : binary64.Nearest negative (withSign negative q) (.finite negative m p) := by
  have hunit := unitsPerOne_pos
  have hbelow : q * unitsPerOne / unitsPerOne < binary64.overflow := by
    rw [FloatFormat.overflow]
    exact div_lt_div_of_pos_right (h.lt_overflowUnits hfits) hunit
  have := (h.closest hfits).nearest (by decide) (mul_nonneg hq hunit.le) hbelow negative
  rwa [mul_div_cancel_right₀ _ hunit.ne'] at this

end RoundsTo

/-! ### Digits that read back -/

/-- What the test for reading back compares, in quarters of a unit and without negative powers of ten. -/
theorem readsBack_eq (m p d : ℕ) (e : ℤ) : ∃ up down : ℕ, 0 < down ∧ (up / down : ℚ) = 10 ^ e ∧
    readsBack m p d e =
      let value := 4 * d * up * unitsPerOne
      let low := (4 * (m <<< p) - if m = 1 <<< 52 && 0 < p then 1 <<< p else 2 <<< p) * down
      let high := (4 * (m <<< p) + 2 <<< p) * down
      if m % 2 = 0 then low ≤ value && value ≤ high else low < value && value < high := by
  cases e with
  | ofNat k =>
    refine ⟨10 ^ k, 1, Nat.one_pos, ?_, rfl⟩
    simp
  | negSucc k =>
    refine ⟨1, 10 ^ (k + 1), by positivity, ?_, rfl⟩
    rw [zpow_negSucc]
    simp

/-- Digits read back as a value if and only if their number rounds to it. -/
theorem readsBack_iff {m p d : ℕ} {e : ℤ} (hm : 0 < m) :
    readsBack m p d e = true ↔ RoundsTo m p (d * 10 ^ e * unitsPerOne) := by
  obtain ⟨up, down, hdown, hpower, hread⟩ := readsBack_eq m p d e
  have hdown' : (0 : ℚ) < 4 * down := by positivity
  have hvalue : ((4 * d * up * unitsPerOne : ℕ) : ℚ) = d * 10 ^ e * unitsPerOne * (4 * down) := by
    rw [← hpower]
    push_cast
    field_simp
  have hhigh : (((4 * (m <<< p) + 2 <<< p) * down : ℕ) : ℚ) = upperEnd m p * (4 * down) := by
    rw [upperEnd, Nat.shiftLeft_eq, Nat.shiftLeft_eq]
    push_cast
    ring
  have hlow : (((4 * (m <<< p) - if m = 1 <<< 52 && 0 < p then 1 <<< p else 2 <<< p) * down : ℕ) : ℚ) =
      lowerEnd m p * (4 * down) := by
    have hplace : 1 * 2 ^ p ≤ m * 2 ^ p := Nat.mul_le_mul_right _ hm
    rw [lowerEnd, Nat.cast_mul, Nat.cast_sub (by simp only [Nat.shiftLeft_eq]; split <;> omega)]
    by_cases hedge : m = 2 ^ 52 ∧ 0 < p
    · rw [if_pos (by simpa [Nat.one_shiftLeft] using hedge), if_pos hedge]
      simp only [Nat.shiftLeft_eq]
      push_cast
      ring
    · rw [if_neg (by simpa [Nat.one_shiftLeft] using hedge), if_neg hedge]
      simp only [Nat.shiftLeft_eq]
      push_cast
      ring
  have hle {a b : ℕ} {x y : ℚ} (ha : (a : ℚ) = x * (4 * down)) (hb : (b : ℚ) = y * (4 * down)) :
      (a ≤ b ↔ x ≤ y) ∧ (a < b ↔ x < y) := by
    rw [← Nat.cast_le (α := ℚ), ← Nat.cast_lt (α := ℚ), ha, hb]
    exact ⟨mul_le_mul_iff_left₀ hdown', mul_lt_mul_iff_left₀ hdown'⟩
  rw [hread]
  dsimp only
  by_cases heven : m % 2 = 0
  · rw [if_pos heven, Bool.and_eq_true, decide_eq_true_iff, decide_eq_true_iff, (hle hlow hvalue).1,
      (hle hvalue hhigh).1]
    exact ⟨fun h => ⟨h.1, h.2, fun hodd => absurd heven hodd⟩, fun h => ⟨h.low, h.high⟩⟩
  · rw [if_neg heven, Bool.and_eq_true, decide_eq_true_iff, decide_eq_true_iff, (hle hlow hvalue).2,
      (hle hvalue hhigh).2]
    exact ⟨fun h => ⟨h.1.le, h.2.le, fun _ => h⟩, fun h => h.strict heven⟩

/-- The neighbours on a grid, as the quotient by the grid's power of ten has them. -/
theorem neighbour?_eq (m p n : ℕ) {d : ℕ} (hd : 0 < d) (lead : ℤ) (count : ℕ) :
    ∃ n' d' : ℕ, 0 < d' ∧ (n' / d' : ℚ) = n / d / 10 ^ (lead + 1 - count) ∧
      neighbour? m p n d lead count =
        let exponent := lead + 1 - count
        let low := n' / d'
        let lowFits := readsBack m p low exponent
        let highFits := readsBack m p (low + 1) exponent
        if lowFits && highFits then
          let twice := 2 * (n' % d')
          some ⟨if twice < d' || (twice = d' && low % 2 = 0) then low else low + 1, exponent⟩
        else if lowFits then some ⟨low, exponent⟩
        else if highFits then some ⟨low + 1, exponent⟩
        else none := by
  unfold neighbour?
  cases lead + 1 - count with
  | ofNat k =>
    refine ⟨n, d * 10 ^ k, by positivity, ?_, rfl⟩
    rw [Int.ofNat_eq_natCast, zpow_natCast]
    push_cast
    rw [div_div]
  | negSucc k =>
    refine ⟨n * 10 ^ (k + 1), d, hd, ?_, rfl⟩
    rw [zpow_negSucc]
    push_cast
    field_simp

/-- A candidate reads back. -/
theorem readsBack_of_neighbour? {m p n d count : ℕ} (hd : 0 < d) {lead : ℤ} {x : DecimalDigits}
    (h : neighbour? m p n d lead count = some x) : readsBack m p x.digits x.exponent = true := by
  obtain ⟨n', d', -, -, heq⟩ := neighbour?_eq m p n hd lead count
  rw [heq] at h
  dsimp only at h
  split at h
  · next hboth =>
    obtain ⟨hlow, hhigh⟩ := Bool.and_eq_true_iff.mp hboth
    obtain rfl := Option.some.inj h
    dsimp only
    split
    · exact hlow
    · exact hhigh
  · split at h
    · next hlow =>
      obtain rfl := Option.some.inj h
      exact hlow
    · split at h
      · next hhigh =>
        obtain rfl := Option.some.inj h
        exact hhigh
      · contradiction

/-- There is a candidate if the neighbour below reads back. -/
theorem isSome_neighbour? {m p n d count : ℕ} (hd : 0 < d) {lead : ℤ}
    (h : ∀ low : ℕ, (low : ℚ) ≤ n / d / 10 ^ (lead + 1 - count) →
      (n / d / 10 ^ (lead + 1 - count) : ℚ) < low + 1 →
      readsBack m p low (lead + 1 - count) = true) :
    (neighbour? m p n d lead count).isSome := by
  obtain ⟨n', d', hd', hquotient, heq⟩ := neighbour?_eq m p n hd lead count
  have hpos : (0 : ℚ) < d' := Nat.cast_pos.mpr hd'
  have hlow : readsBack m p (n' / d') (lead + 1 - count) = true := by
    refine h _ ?_ ?_
    · rw [← hquotient, le_div_iff₀ hpos]
      exact_mod_cast Nat.div_mul_le_self n' d'
    · rw [← hquotient, div_lt_iff₀ hpos]
      exact_mod_cast Nat.lt_mul_of_div_lt (Nat.lt_succ_self (n' / d')) hd'
  rw [heq]
  dsimp only
  rw [hlow, Bool.true_and, if_pos rfl]
  split <;> rfl

/-- The leading digit of a quotient does not stand above it. -/
theorem zpow_leadingExponent_le {n d : ℕ} (hn : 0 < n) (hd : 0 < d) :
    (10 : ℚ) ^ leadingExponent n d ≤ n / d := by
  have hn' : (0 : ℚ) < n := Nat.cast_pos.mpr hn
  have hd' : (0 : ℚ) < d := Nat.cast_pos.mpr hd
  unfold leadingExponent
  split
  · next hle =>
    have hlength := Nat.length_toDigits_pos (b := 10) (n := n / d)
    obtain ⟨k, hk⟩ : ∃ k, (Nat.toDigits 10 (n / d)).length = k + 1 :=
      ⟨_, (Nat.sub_add_cancel hlength).symm⟩
    have hpow : 10 ^ k ≤ n / d := by
      rcases Nat.eq_zero_or_pos k with rfl | hpos
      · exact Nat.div_pos hle hd
      · by_contra hlt
        have := (Nat.length_toDigits_le_iff (by decide) hpos).mpr (not_le.mp hlt)
        omega
    rw [hk, Nat.cast_succ, add_sub_cancel_right, zpow_natCast, le_div_iff₀ hd']
    exact_mod_cast (Nat.mul_le_mul_right d hpow).trans (Nat.div_mul_le_self n d)
  · next hlt =>
    have hlength := Nat.length_toDigits_pos (b := 10) (n := (d + n - 1) / n - 1)
    have hpow := (Nat.length_toDigits_le_iff (by decide) hlength).mp (le_refl _)
    generalize (Nat.toDigits 10 ((d + n - 1) / n - 1)).length = k at hpow
    have hceil : d ≤ 10 ^ k * n := by
      have hdiv : (d + n - 1) / n < 10 ^ k + 1 := by omega
      have := (Nat.div_lt_iff_lt_mul hn).mp hdiv
      rw [Nat.add_mul, Nat.one_mul] at this
      omega
    rw [zpow_neg, zpow_natCast, inv_le_iff_one_le_mul₀ (by positivity : (0 : ℚ) < 10 ^ k),
      div_mul_eq_mul_div, one_le_div hd', mul_comm]
    exact_mod_cast hceil

/-- Eighteen digits always suffice: the neighbour below is within a quarter of the last place. -/
theorem isSome_neighbour?_eighteen {m p : ℕ} (hm : 0 < m) (hwidth : m < 2 ^ 53) :
    (neighbour? m p (m <<< p) unitsPerOne (leadingExponent (m <<< p) unitsPerOne) 18).isSome := by
  have hunit := unitsPerOne_pos
  have hunits : 0 < unitsPerOne := Nat.cast_pos.mp hunit
  have hpower : (0 : ℚ) < 2 ^ p := by positivity
  have hn : 0 < m <<< p := by
    rw [Nat.shiftLeft_eq]
    exact Nat.mul_pos hm (Nat.two_pow_pos p)
  have hlead := zpow_leadingExponent_le hn hunits
  refine isSome_neighbour? hunits fun low hle hlt => ?_
  generalize leadingExponent (m <<< p) unitsPerOne = lead at hlead hle hlt ⊢
  have hgrid : (0 : ℚ) < 10 ^ (lead + 1 - (18 : ℕ)) := zpow_pos (by norm_num) _
  have hscale : (10 : ℚ) ^ (lead + 1 - (18 : ℕ)) * 10 ^ 17 = 10 ^ lead := by
    rw [← zpow_natCast, ← zpow_add₀ (by norm_num)]
    congr 1
    push_cast
    ring
  rw [cast_shiftLeft] at hlead hle hlt
  rw [le_div_iff₀ hgrid] at hle
  rw [div_lt_iff₀ hgrid] at hlt
  rw [readsBack_iff hm]
  generalize (10 : ℚ) ^ (lead + 1 - (18 : ℕ)) = grid at hgrid hscale hle hlt ⊢
  -- a step of the grid is less than a quarter of the last place
  have hbelow : low * grid * unitsPerOne ≤ m * 2 ^ p := (le_div_iff₀ hunit).mp hle
  have habove : (m * 2 ^ p : ℚ) < (low + 1) * grid * unitsPerOne := (div_lt_iff₀ hunit).mp hlt
  have hstep : grid * unitsPerOne < 2 ^ p / 4 := by
    have hsignificand : (m : ℚ) < 2 ^ 53 := by exact_mod_cast hwidth
    have hvalue : (m * 2 ^ p : ℚ) < 2 ^ 53 * 2 ^ p := by gcongr
    have := (le_div_iff₀ hunit).mp (hscale ▸ hlead)
    linarith
  have hlower : lowerEnd m p ≤ m * 2 ^ p - 2 ^ p / 4 := by
    rw [lowerEnd]
    split <;> linarith
  have hupper : m * 2 ^ p < upperEnd m p := by
    rw [upperEnd]
    linarith
  exact ⟨by linarith, by linarith, fun _ => ⟨by linarith, by linarith⟩⟩

/-- The shortest digits of a value that is not zero read back. -/
theorem readsBack_shortestDigits {m p : ℕ} (hm : 0 < m) (hwidth : m < 2 ^ 53) :
    readsBack m p (shortestDigits m p).digits (shortestDigits m p).exponent = true := by
  have hunits : 0 < unitsPerOne := Nat.cast_pos.mp unitsPerOne_pos
  have hcount : 18 ∈ digitCounts := List.mem_map.mpr ⟨17, List.mem_range.mpr (by decide), rfl⟩
  obtain ⟨x, hx⟩ := Option.isSome_iff_exists.mp (List.findSome?_isSome_iff.mpr
    ⟨18, hcount, isSome_neighbour?_eighteen (p := p) hm hwidth⟩)
  obtain ⟨count, -, hcandidate⟩ := List.exists_of_findSome?_eq_some hx
  have hshortest : shortestDigits m p = x := by rw [shortestDigits, hx, Option.getD_some]
  rw [hshortest]
  exact readsBack_of_neighbour? hunits hcandidate

/-! ### Texts of values -/

namespace WrittenDigits

variable {digits : List Char} {n : ℕ}

/-- A zero in front of digits does not count. -/
theorem cons_zero (h : WrittenDigits digits n) : WrittenDigits ('0' :: digits) n := by
  have hzero : digitValue? '0' = some 0 := by decide
  induction h with
  | @single c v hc =>
    have := WrittenDigits.snoc (.single hzero) hc
    rwa [Nat.mul_zero, Nat.zero_add] at this
  | snoc h hc ih => exact .snoc ih hc

/-- Zeros in front of digits do not count. -/
theorem zeros_append (h : WrittenDigits digits n) (count : ℕ) :
    WrittenDigits (List.replicate count '0' ++ digits) n := by
  induction count with
  | zero => exact h
  | succ count ih => exact ih.cons_zero

/-- Each zero behind digits is a factor of ten. -/
theorem append_zeros (h : WrittenDigits digits n) (count : ℕ) :
    WrittenDigits (digits ++ List.replicate count '0') (n * 10 ^ count) := by
  have hzero : digitValue? '0' = some 0 := by decide
  induction count with
  | zero => simpa using h
  | succ count ih =>
    have := WrittenDigits.snoc ih hzero
    rw [List.replicate_succ', ← List.append_assoc, Nat.pow_succ]
    convert this using 1
    ring

/-- Digits without the zeros behind them write the number without as many factors of ten. -/
theorem of_append_zeros {count : ℕ} (h : WrittenDigits (digits ++ List.replicate count '0') n)
    (hne : digits ≠ []) : ∃ n', WrittenDigits digits n' ∧ n = n' * 10 ^ count := by
  have hdigits := writtenDigits_of_isDigit hne fun c hc => h.isDigit c (List.mem_append_left _ hc)
  exact ⟨_, hdigits, h.digitsValue_eq.symm.trans (hdigits.append_zeros count).digitsValue_eq⟩

end WrittenDigits

/-- A number has at least one significant digit, if only a zero. -/
theorem significantDigits_ne_nil (n : ℕ) : significantDigits n ≠ [] := by
  unfold significantDigits
  dsimp only
  split
  · exact List.cons_ne_nil _ _
  · assumption

/-- The significant digits of a number are its digits without zeros behind them. -/
theorem exists_append_significantDigits (n : ℕ) :
    ∃ count, significantDigits n ++ List.replicate count '0' = Nat.toDigits 10 n := by
  have hsplit := List.takeWhile_append_dropWhile (p := fun c => decide (c = '0'))
    (l := (Nat.toDigits 10 n).reverse)
  have hzeros : ∀ c ∈ (Nat.toDigits 10 n).reverse.takeWhile fun c => decide (c = '0'), c = '0' :=
    fun c hc => by simpa using List.all_eq_true.mp List.all_takeWhile c hc
  unfold significantDigits
  dsimp only
  generalize (Nat.toDigits 10 n).reverse.takeWhile (fun c => decide (c = '0')) = zeros at hsplit hzeros
  generalize (Nat.toDigits 10 n).reverse.dropWhile (fun c => decide (c = '0')) = kept at hsplit ⊢
  rw [List.eq_replicate_of_mem hzeros] at hsplit
  have hdigits : kept.reverse ++ List.replicate zeros.length '0' = Nat.toDigits 10 n := by
    rw [← List.reverse_reverse (Nat.toDigits 10 n), ← hsplit, List.reverse_append, List.reverse_replicate]
  split
  · next hnil =>
    -- nothing but zeros: one of them is kept
    rw [hnil, List.nil_append] at hdigits
    refine ⟨zeros.length - 1, ?_⟩
    have hpos : 0 < zeros.length := by
      refine Nat.pos_of_ne_zero fun hzero => ?_
      rw [hzero] at hdigits
      exact Nat.toDigits_ne_nil hdigits.symm
    rw [← hdigits, List.singleton_append, ← List.replicate_succ, Nat.sub_add_cancel hpos]
  · exact ⟨zeros.length, hdigits⟩

/-- Digits with an exponent at will: the unsigned numerals, by their numbers. -/
inductive UnsignedText : List Char → ℚ → Prop
  | intro {digits exponent : List Char} {q : ℚ} {e : ℤ} (hdigits : PointedDigits digits q)
      (hexponent : Exponent exponent e) : UnsignedText (digits ++ exponent) (q * 10 ^ e)

namespace UnsignedText

/-- A numeral need not have an exponent. -/
theorem of_pointedDigits {text : List Char} {q : ℚ} (h : PointedDigits text q) : UnsignedText text q := by
  have := UnsignedText.intro h .absent
  rwa [List.append_nil, zpow_zero, mul_one] at this

/-- A sign may stand in front. -/
theorem decimalText {text sign : List Char} {q : ℚ} {negative : Bool} (h : UnsignedText text q)
    (hsign : Sign sign negative) : DecimalText (sign ++ text) negative q := by
  cases h with
  | intro hdigits hexponent => exact .intro hsign hdigits hexponent

end UnsignedText

namespace FloatLayout

variable {digits : List Char} {n : ℕ}

/-- Digits are laid out as a numeral of the number that they stand for if their first one stands before the
point. -/
theorem unsignedText_before (h : WrittenDigits digits n) (k : ℕ) :
    UnsignedText (digits.take (k + 1) ++ List.replicate (k + 1 - (digits.take (k + 1)).length) '0' ++ '.' ::
      (if digits.drop (k + 1) = [] then ['0'] else digits.drop (k + 1)))
      (n * 10 ^ ((k : ℤ) + 1 - digits.length)) := by
  by_cases hshort : digits.length ≤ k + 1
  · obtain ⟨zeros, hzeros⟩ := Nat.exists_eq_add_of_le hshort
    rw [List.drop_eq_nil_of_le hshort, List.take_of_length_le hshort, if_pos rfl, hzeros,
      Nat.add_sub_cancel_left]
    have hdigits := h.append_zeros (zeros + 1)
    rw [List.replicate_succ', ← List.append_assoc] at hdigits
    convert UnsignedText.of_pointedDigits (.pointed hdigits) using 1
    have hexponent : (k : ℤ) + 1 - digits.length = zeros := by omega
    rw [hexponent, zpow_natCast, List.length_singleton, Nat.cast_mul, Nat.cast_pow, Nat.cast_ofNat,
      pow_succ, pow_one, ← mul_assoc, mul_div_cancel_right₀ _ (by norm_num)]
  · obtain ⟨behind, hbehind⟩ := Nat.exists_eq_add_of_lt (not_le.mp hshort)
    have hne : digits.drop (k + 1) ≠ [] := by
      rw [Ne, List.drop_eq_nil_iff]
      omega
    have hlength : (digits.take (k + 1)).length = k + 1 := by
      rw [List.length_take]
      omega
    rw [if_neg hne, hlength, Nat.sub_self, List.replicate_zero, List.append_nil]
    have hdigits : WrittenDigits (digits.take (k + 1) ++ digits.drop (k + 1)) n := by
      rwa [List.take_append_drop]
    convert UnsignedText.of_pointedDigits (.pointed hdigits) using 1
    have hexponent : (k : ℤ) + 1 - digits.length = -((digits.drop (k + 1)).length : ℤ) := by
      rw [List.length_drop]
      omega
    rw [hexponent, zpow_neg, zpow_natCast, div_eq_mul_inv]

/-- So they are if all of them stand behind the point. -/
theorem unsignedText_behind (h : WrittenDigits digits n) (k : ℕ) :
    UnsignedText ('0' :: '.' :: (List.replicate k '0' ++ digits))
      (n * 10 ^ (Int.negSucc k + 1 - digits.length)) := by
  have hdigits : WrittenDigits (['0'] ++ (List.replicate k '0' ++ digits)) n := (h.zeros_append k).cons_zero
  have hexponent : Int.negSucc k + 1 - digits.length = -((List.replicate k '0' ++ digits).length : ℤ) := by
    rw [List.length_append, List.length_replicate]
    omega
  rw [hexponent, zpow_neg, zpow_natCast, ← div_eq_mul_inv]
  exact .of_pointedDigits (.pointed hdigits)

/-- The exponent that is written is that of the first digit. -/
theorem exponent_written (width : ℕ) (lead : ℤ) :
    Exponent ('e' :: (if lead < 0 then '-' else '+') ::
      (List.replicate (width - (Nat.toDigits 10 lead.natAbs).length) '0' ++ Nat.toDigits 10 lead.natAbs))
      lead := by
  have hdigits := (writtenDigits_toDigits lead.natAbs).zeros_append
    (width - (Nat.toDigits 10 lead.natAbs).length)
  split
  · next hneg =>
    have := SignedDigits.minus hdigits
    rw [Int.ofNat_natAbs_of_nonpos hneg.le, neg_neg] at this
    exact .written (Or.inl rfl) this
  · next hpos =>
    have := SignedDigits.plus hdigits
    rw [Int.natAbs_of_nonneg (not_lt.mp hpos)] at this
    exact .written (Or.inl rfl) this

/-- Digits are laid out as a numeral of the number that they stand for, their first one at the place of
`lead`. -/
theorem unsignedText_place (layout : FloatLayout) (h : WrittenDigits digits n) (lead : ℤ) :
    UnsignedText (layout.place digits lead) (n * 10 ^ (lead + 1 - digits.length)) := by
  have hscale {q : ℚ} (places : ℕ) (hq : q = n / 10 ^ places) (hplaces : digits.length = places + 1) :
      q * 10 ^ lead = n * 10 ^ (lead + 1 - digits.length) := by
    have hexponent : lead + 1 - (digits.length : ℤ) = lead - places := by omega
    rw [hexponent, hq, zpow_sub₀ (by norm_num), zpow_natCast]
    ring
  unfold place
  split
  · cases lead with
    | ofNat k => exact unsignedText_before h k
    | negSucc k => exact unsignedText_behind h k
  · split
    · next d e rest =>
      rw [← hscale (e :: rest).length rfl rfl]
      exact .intro (@PointedDigits.pointed [d] (e :: rest) n h) (exponent_written _ _)
    · next hnot =>
      obtain ⟨d, rfl⟩ : ∃ d, digits = [d] := by
        match digits, h.ne_nil with
        | [d], _ => exact ⟨d, rfl⟩
        | d :: e :: rest, _ => exact absurd rfl (hnot d e rest)
      have hwhole : (n : ℚ) = n / 10 ^ 0 := by simp
      rw [← hscale 0 hwhole rfl]
      exact .intro (.whole h) (exponent_written _ _)

end FloatLayout

namespace Binary

variable {m p : ℕ}

/-- The text of a value is a numeral of a number that rounds to the value. -/
theorem exists_decimalText (h : binary64.Fits m p) (negative : Bool) : ∃ q,
    DecimalText (finite negative m p).text.toList negative q ∧
      binary64.Nearest negative (withSign negative q) (finite negative m p) := by
  obtain ⟨sign, hsign, htext⟩ : ∃ sign : List Char, Sign sign negative ∧ ∀ body : List Char,
      ((if negative then "-" else "") ++ String.ofList body).toList = sign ++ body := by
    cases negative with
    | true => exact ⟨_, .minus, fun body => by simp⟩
    | false => exact ⟨_, .absent, fun body => by simp⟩
  rw [text, FloatLayout.write]
  dsimp only
  split
  · next hzero =>
    subst hzero
    have hdigits : WrittenDigits ['0'] 0 := .single (by decide)
    refine ⟨0, ?_, ?_⟩
    · rw [htext]
      have := (plainLayout.unsignedText_place hdigits 0).decimalText hsign
      simpa using this
    · have := h.nearest negative
      rwa [toRat_finite, Nat.cast_zero, zero_mul, zero_div] at this
  · next hne =>
    have hm : 0 < m := Nat.pos_of_ne_zero hne
    have hread := readsBack_shortestDigits (p := p) hm h.lt_width
    generalize shortestDigits m p = short at hread ⊢
    obtain ⟨count, hcount⟩ := exists_append_significantDigits short.digits
    have hdigits := writtenDigits_toDigits short.digits
    rw [← hcount] at hdigits ⊢
    obtain ⟨n, hwritten, hn⟩ := hdigits.of_append_zeros (significantDigits_ne_nil short.digits)
    generalize significantDigits short.digits = digits at hwritten ⊢
    refine ⟨short.digits * 10 ^ short.exponent, ?_, ?_⟩
    · have hplace := plainLayout.unsignedText_place hwritten
        (short.exponent + (digits ++ List.replicate count '0').length - 1)
      have hexponent : short.exponent + ((digits ++ List.replicate count '0').length : ℤ) - 1 + 1 -
          digits.length = count + short.exponent := by
        rw [List.length_append, List.length_replicate]
        omega
      rw [hexponent, zpow_add₀ (by norm_num), zpow_natCast, ← mul_assoc] at hplace
      rw [htext, hn]
      push_cast
      exact hplace.decimalText hsign
    · have hnonneg : (0 : ℚ) ≤ short.digits * 10 ^ short.exponent :=
        mul_nonneg (Nat.cast_nonneg _) (zpow_nonneg (by norm_num) _)
      exact ((readsBack_iff hm).mp hread).nearest hnonneg h negative

/-- Whether a number is finite with the significand and the place of a value of 64 bits. -/
def IsCanonical (x : Binary) : Prop := ∃ negative m p, x = finite negative m p ∧ binary64.Fits m p

/-- No two values have one text. -/
theorem text_injective {x y : Binary} (hx : x.IsCanonical) (hy : y.IsCanonical) (htext : x.text = y.text) :
    x = y := by
  obtain ⟨negative, m, p, rfl, h⟩ := hx
  obtain ⟨negative', m', p', rfl, h'⟩ := hy
  obtain ⟨q, hq, hnearest⟩ := exists_decimalText h negative
  obtain ⟨q', hq', hnearest'⟩ := exists_decimalText h' negative'
  rw [← htext] at hq'
  obtain ⟨x, hread, rfl, rfl, -⟩ := Decimal.read_of_text hq
  obtain ⟨x', hread', rfl, rfl, -⟩ := Decimal.read_of_text hq'
  obtain rfl := Option.some.inj (hread.symm.trans hread')
  exact hnearest.unique (by decide) hnearest'

end Binary

end DriverPolicy
