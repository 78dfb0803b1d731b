import DriverPolicy.Proofs.Number.Digits
import DriverPolicy.Proofs.Number.Rounding
import DriverPolicy.Proofs.Text.Trim

/-!
# Decimal numerals and their values

A decimal numeral is a sign at will, digits with at most one point and at least one digit, and an exponent
at will. What is read as one has this form and no other text has it, and the number that is read is the one
that is written. Its floating-point value is the nearest one: a numeral with too many digits before the
point is beyond every finite value, and one with too many zeros behind the point is nearest to zero.
-/

namespace DriverPolicy

/-- A sign at will, and whether it is a minus. -/
inductive Sign : List Char → Bool → Prop
  | absent : Sign [] false
  | plus : Sign ['+'] false
  | minus : Sign ['-'] true

/-- Digits with at most one point among them, in front of them or behind them, and the number that they
write. -/
inductive PointedDigits : List Char → ℚ → Prop
  | whole {digits : List Char} {n : ℕ} (h : WrittenDigits digits n) : PointedDigits digits n
  | pointed {before after : List Char} {n : ℕ} (h : WrittenDigits (before ++ after) n) :
      PointedDigits (before ++ '.' :: after) (n / 10 ^ after.length)

/-- An exponent at will. -/
inductive Exponent : List Char → ℤ → Prop
  | absent : Exponent [] 0
  | written {c : Char} {text : List Char} {e : ℤ} {count : ℕ} (hc : c = 'e' ∨ c = 'E')
      (h : SignedDigits e count text) : Exponent (c :: text) e

/-- The decimal numerals, by their signs and magnitudes. -/
inductive DecimalText : List Char → Bool → ℚ → Prop
  | intro {sign digits exponent : List Char} {negative : Bool} {q : ℚ} {e : ℤ} (hsign : Sign sign negative)
      (hdigits : PointedDigits digits q) (hexponent : Exponent exponent e) :
      DecimalText (sign ++ (digits ++ exponent)) negative (q * 10 ^ e)

/-- The magnitude of a numeral. -/
def Decimal.magnitude (x : Decimal) : ℚ := digitsValue x.digits * 10 ^ (x.exponent - x.shift)

/-- A sign is taken off a text that does not begin with one. -/
theorem Sign.splitSign_eq {sign body : List Char} {negative : Bool} (h : Sign sign negative)
    (hbody : ∀ c ∈ body.head?, c ≠ '+' ∧ c ≠ '-') : splitSign (sign ++ body) = (negative, body) := by
  cases h with
  | plus => rfl
  | minus => rfl
  | absent =>
    rw [List.nil_append]
    unfold splitSign
    split
    · exact absurd rfl (hbody '-' rfl).2
    · exact absurd rfl (hbody '+' rfl).1
    · rfl

/-- What is taken off a text is a sign. -/
theorem Sign.of_splitSign {text body : List Char} {negative : Bool}
    (h : splitSign text = (negative, body)) : ∃ sign, Sign sign negative ∧ text = sign ++ body := by
  unfold splitSign at h
  split at h <;> obtain ⟨rfl, rfl⟩ := Prod.mk.inj h
  · exact ⟨_, .minus, rfl⟩
  · exact ⟨_, .plus, rfl⟩
  · exact ⟨_, .absent, rfl⟩

/-- The letter e, small or capital, and an integer are read as an exponent. -/
theorem readExponent_cons (c : Char) (text : List Char) : readExponent (c :: text) =
    if c = 'e' ∨ c = 'E' then (readInteger text).map fun integer => signedValue integer.1 integer.2
    else none := by
  unfold readExponent readInteger
  by_cases hletter : c = 'e' ∨ c = 'E'
  · by_cases hdigits : (splitSign text).2 ≠ [] ∧ ∀ d ∈ (splitSign text).2, isDigit d
    · simp [hletter, hdigits, signedValue]
    · simp [hletter, if_neg hdigits]
  · simp [hletter]

/-- The exponents are the texts that are read as such. -/
theorem exponent_iff {text : List Char} {e : ℤ} : Exponent text e ↔ readExponent text = some e := by
  constructor
  · intro h
    cases h with
    | absent => rfl
    | written hc h =>
      obtain ⟨negative, digits, hread, -, hvalue⟩ := h.readInteger_eq
      rw [readExponent_cons, if_pos hc, hread, Option.map_some, hvalue]
  · intro h
    cases text with
    | nil =>
      obtain rfl : 0 = e := Option.some.inj h
      exact .absent
    | cons c text =>
      rw [readExponent_cons] at h
      split at h
      · next hc =>
        obtain ⟨integer, hread, rfl⟩ := Option.map_eq_some_iff.mp h
        exact .written hc (.of_readInteger hread)
      · contradiction

/-- An exponent begins with no digit, no sign and no point. -/
theorem Exponent.head? {text : List Char} {e : ℤ} (h : Exponent text e) :
    ∀ c ∈ text.head?, isDigit c = false ∧ c ≠ '.' := by
  cases h with
  | absent => simp
  | written hc h =>
    intro c hhead
    obtain rfl := Option.some.inj hhead
    rcases hc with rfl | rfl <;> decide

/-- Digits come off a text up to the first character that is none. -/
theorem span_isDigit {digits rest : List Char} (hdigits : ∀ c ∈ digits, isDigit c)
    (hrest : ∀ c ∈ rest.head?, isDigit c = false) :
    (digits ++ rest).span isDigit = (digits, rest) := by
  obtain ⟨htake, hdrop⟩ := skip_append hdigits hrest
  rw [List.span_eq_takeWhile_dropWhile, htake, hdrop]

/-- Pointed digits begin with no sign. -/
theorem PointedDigits.head? {digits : List Char} {q : ℚ} (h : PointedDigits digits q) (rest : List Char) :
    ∀ c ∈ (digits ++ rest).head?, c ≠ '+' ∧ c ≠ '-' := by
  have hdigit {c : Char} (hc : isDigit c) : c ≠ '+' ∧ c ≠ '-' :=
    ⟨fun heq => absurd (heq ▸ hc) (by decide), fun heq => absurd (heq ▸ hc) (by decide)⟩
  intro c hc
  cases h with
  | @whole digits n h =>
    obtain ⟨d, tail, rfl⟩ := List.exists_cons_of_ne_nil h.ne_nil
    obtain rfl : d = c := by simpa using hc
    exact hdigit (h.isDigit d List.mem_cons_self)
  | @pointed before after n h =>
    cases before with
    | nil =>
      obtain rfl : '.' = c := by simpa using hc
      decide
    | cons d tail =>
      obtain rfl : d = c := by simpa using hc
      exact hdigit (h.isDigit d List.mem_cons_self)

/-- The characters of a numeral that are no digits. -/
def numeralMarks : List Char := ['+', '-', '.', 'e', 'E']

/-- A numeral consists of digits, signs, a point and the letter of an exponent. -/
theorem DecimalText.chars {text : List Char} {negative : Bool} {q : ℚ} (h : DecimalText text negative q) :
    ∀ c ∈ text, isDigit c ∨ c ∈ numeralMarks := by
  obtain @⟨sign, digits, exponent, _, _, e, hsign, hdigits, hexponent⟩ := h
  intro c hc
  rcases List.mem_append.mp hc with hc | hc
  · cases hsign with
    | absent => exact absurd hc List.not_mem_nil
    | plus => exact Or.inr (List.mem_singleton.mp hc ▸ by decide)
    | minus => exact Or.inr (List.mem_singleton.mp hc ▸ by decide)
  rcases List.mem_append.mp hc with hc | hc
  · cases hdigits with
    | whole h => exact Or.inl (h.isDigit c hc)
    | @pointed before after n h =>
      rcases List.mem_append.mp hc with hc | hc
      · exact Or.inl (h.isDigit c (List.mem_append_left _ hc))
      rcases List.mem_cons.mp hc with rfl | hc
      · exact Or.inr (by decide)
      · exact Or.inl (h.isDigit c (List.mem_append_right _ hc))
  · cases hexponent with
    | absent => exact absurd hc List.not_mem_nil
    | written hletter h =>
      rcases List.mem_cons.mp hc with rfl | hc
      · rcases hletter with rfl | rfl <;> exact Or.inr (by decide)
      · rcases h.chars c hc with hdigit | rfl | rfl
        · exact Or.inl hdigit
        · exact Or.inr (by decide)
        · exact Or.inr (by decide)

/-- A numeral is not empty. -/
theorem DecimalText.ne_nil {text : List Char} {negative : Bool} {q : ℚ} (h : DecimalText text negative q) :
    text ≠ [] := by
  obtain @⟨sign, digits, exponent, _, _, e, hsign, hdigits, hexponent⟩ := h
  cases hdigits with
  | whole h => simp [h.ne_nil]
  | pointed h => simp

namespace Decimal

/-- The number of a numeral with a point. -/
theorem magnitude_eq (negative : Bool) (digits : List Char) (shift : ℕ) (exponent : ℤ) :
    magnitude ⟨negative, digits, shift, exponent⟩ =
      digitsValue digits / 10 ^ shift * 10 ^ exponent := by
  rw [magnitude, zpow_sub₀ (by norm_num), zpow_natCast]
  ring

/-- A decimal numeral is read with its sign, its magnitude and its digits. -/
theorem read_of_text {text : List Char} {negative : Bool} {q : ℚ} (h : DecimalText text negative q) :
    ∃ x, read text = some x ∧ x.negative = negative ∧ x.magnitude = q ∧ ∀ c ∈ x.digits, isDigit c := by
  obtain @⟨sign, digits, exponent, _, q, e, hsign, hdigits, hexponent⟩ := h
  have hbody := hsign.splitSign_eq (hdigits.head? exponent)
  have hread := exponent_iff.mp hexponent
  have hnone : ∀ c ∈ exponent.head?, isDigit c = false := fun c hc => (hexponent.head? c hc).1
  have hpoint : ∀ rest, exponent ≠ '.' :: rest := by
    rintro rest rfl
    exact (hexponent.head? '.' rfl).2 rfl
  unfold read
  rw [hbody]
  dsimp only
  cases hdigits with
  | @whole _ n h =>
    have hne := h.ne_nil
    refine ⟨⟨negative, digits, 0, e⟩, ?_, rfl, ?_, h.isDigit⟩
    · rw [span_isDigit h.isDigit hnone]
      dsimp only
      split
      · next tail => exact absurd rfl (hpoint tail)
      · simp [hread, hne]
    · rw [magnitude_eq, h.digitsValue_eq, pow_zero, div_one]
  | @pointed before after n h =>
    have hne := h.ne_nil
    have hbefore : ∀ c ∈ before, isDigit c := fun c hc => h.isDigit c (List.mem_append_left _ hc)
    have hafter : ∀ c ∈ after, isDigit c := fun c hc => h.isDigit c (List.mem_append_right _ hc)
    have hstop : ∀ c ∈ ('.' :: (after ++ exponent)).head?, isDigit c = false := by
      intro c hc
      obtain rfl := Option.some.inj hc
      decide
    refine ⟨⟨negative, before ++ after, after.length, e⟩, ?_, rfl, ?_, h.isDigit⟩
    · rw [List.append_assoc, List.cons_append, span_isDigit hbefore hstop]
      simp only [span_isDigit hafter hnone, hread]
      simpa using hne
    · rw [magnitude_eq, h.digitsValue_eq]

/-- What is read as a decimal numeral is one. -/
theorem text_of_read {text : List Char} {x : Decimal} (h : read text = some x) :
    DecimalText text x.negative x.magnitude := by
  unfold read at h
  split at h
  next negative body hsplit =>
  obtain ⟨sign, hsign, rfl⟩ := Sign.of_splitSign hsplit
  rw [List.span_eq_takeWhile_dropWhile] at h
  have hbody := List.takeWhile_append_dropWhile (p := isDigit) (l := body)
  have hwhole : ∀ c ∈ body.takeWhile isDigit, isDigit c := List.all_eq_true.mp List.all_takeWhile
  generalize body.takeWhile isDigit = whole at h hbody hwhole
  generalize body.dropWhile isDigit = rest at h hbody
  subst hbody
  dsimp only at h
  split at h
  · next tail =>
    have htail := List.takeWhile_append_dropWhile (p := isDigit) (l := tail)
    have hafter : ∀ c ∈ tail.takeWhile isDigit, isDigit c := List.all_eq_true.mp List.all_takeWhile
    rw [List.span_eq_takeWhile_dropWhile] at h
    generalize tail.takeWhile isDigit = after at h htail hafter
    split at h
    · contradiction
    next hne =>
    obtain ⟨e, hread, rfl⟩ := Option.map_eq_some_iff.mp h
    have hdigits : WrittenDigits (whole ++ after) (digitsValue (whole ++ after)) :=
      writtenDigits_of_isDigit (by simpa using hne) fun c hc =>
        (List.mem_append.mp hc).elim (hwhole c) (hafter c)
    rw [magnitude_eq, ← htail, ← List.cons_append, ← List.append_assoc whole]
    exact .intro hsign (.pointed hdigits) (exponent_iff.mpr hread)
  · split at h
    · contradiction
    next hne =>
    obtain ⟨e, hread, rfl⟩ := Option.map_eq_some_iff.mp h
    have hdigits : WrittenDigits whole (digitsValue whole) :=
      writtenDigits_of_isDigit (by simpa using hne) hwhole
    rw [magnitude_eq, List.append_nil, List.length_nil, pow_zero, div_one]
    exact .intro hsign (.whole hdigits) (exponent_iff.mpr hread)

end Decimal

namespace WrittenDigits

variable {digits : List Char} {n : ℕ}

/-- As many digits as there are places bound a number from above. -/
theorem lt_pow (h : WrittenDigits digits n) : n < 10 ^ digits.length := by
  induction h with
  | single hc =>
    have := digitValue?_lt hc
    simpa using this
  | snoc h hc ih =>
    have := digitValue?_lt hc
    rw [List.length_append, List.length_singleton, Nat.pow_succ]
    omega

/-- The first digit bounds a number from below if it is not zero. -/
theorem pow_le (h : WrittenDigits digits n) (hlead : ∀ c ∈ digits.head?, digitValue? c ≠ some 0) :
    10 ^ (digits.length - 1) ≤ n := by
  induction h with
  | @single c v hc =>
    have hv : v ≠ 0 := fun hzero => hlead c rfl (hzero ▸ hc)
    simpa using Nat.one_le_iff_ne_zero.mpr hv
  | @snoc digits n c v h hc ih =>
    have hlength := List.length_pos_iff.mpr h.ne_nil
    have hlead' : ∀ c ∈ digits.head?, digitValue? c ≠ some 0 := by
      intro d hd
      refine hlead d ?_
      rw [List.head?_append, Option.mem_def.mp hd]
      rfl
    have hpow : 10 ^ digits.length = 10 * 10 ^ (digits.length - 1) := by
      rw [← Nat.pow_succ', Nat.succ_eq_add_one, Nat.sub_add_cancel hlength]
    have := ih hlead'
    rw [List.length_append, List.length_singleton, Nat.add_sub_cancel]
    omega

/-- What is scaled by a power of ten is below the power for all its places. -/
theorem mul_zpow_lt (h : WrittenDigits digits n) (e : ℤ) : (n * 10 ^ e : ℚ) < 10 ^ (digits.length + e) := by
  have hpower : (0 : ℚ) < 10 ^ e := zpow_pos (by norm_num) e
  have hbound : (n : ℚ) < 10 ^ digits.length := by exact_mod_cast h.lt_pow
  rw [zpow_add₀ (by norm_num), zpow_natCast]
  gcongr

/-- It reaches the power for all its places but one if the first digit is not zero. -/
theorem zpow_le_mul (h : WrittenDigits digits n) (hlead : ∀ c ∈ digits.head?, digitValue? c ≠ some 0)
    (e : ℤ) : (10 ^ (digits.length + e - 1) : ℚ) ≤ n * 10 ^ e := by
  have hlength := List.length_pos_iff.mpr h.ne_nil
  have hpower : (0 : ℚ) < 10 ^ e := zpow_pos (by norm_num) e
  have hbound : (10 ^ (digits.length - 1) : ℚ) ≤ n := by exact_mod_cast h.pow_le hlead
  have hplaces : (digits.length + e - 1 : ℤ) = (digits.length - 1 : ℕ) + e := by omega
  rw [hplaces, zpow_add₀ (by norm_num), zpow_natCast]
  gcongr

end WrittenDigits

/-- Zeros in front of digits do not count. -/
theorem digitsValue_dropWhile (digits : List Char) :
    digitsValue (digits.dropWhile fun c => digitValue? c = some 0) = digitsValue digits := by
  induction digits with
  | nil => rfl
  | cons c digits ih =>
    by_cases hc : digitValue? c = some 0
    · rw [List.dropWhile_cons_of_pos (by simpa using hc), ih]
      simp [digitsValue, hc]
    · rw [List.dropWhile_cons_of_neg (by simpa using hc)]

/-- No zero is left in front of digits when zeros are dropped there. -/
theorem head?_dropWhile_zeros (digits : List Char) :
    ∀ c ∈ (digits.dropWhile fun c => digitValue? c = some 0).head?, digitValue? c ≠ some 0 := by
  intro c hc hzero
  have hnot := List.head?_dropWhile_not (fun c => decide (digitValue? c = some 0)) digits
  rw [Option.mem_def.mp hc] at hnot
  simp [hzero] at hnot

/-- A number of more than four hundred digits is rounded to infinity. -/
theorem nearest_infinite {q : ℚ} (hq : 10 ^ 400 ≤ q) (negative : Bool) :
    binary64.Nearest negative (withSign negative q) (.infinite negative) := by
  have hunits : 2 ^ 53 * 2 ^ 2045 ≤ 10 ^ 400 * unitsPerOne := by decide +kernel
  have hunits' : (2 ^ 53 * 2 ^ 2045 : ℚ) ≤ 10 ^ 400 * unitsPerOne := by exact_mod_cast hunits
  have hlimit : binary64.overflow ≤ 10 ^ 400 := by
    rw [FloatFormat.overflow, div_le_iff₀ unitsPerOne_pos]
    refine le_trans ?_ hunits'
    unfold FloatFormat.overflowUnits binary64
    gcongr
    linarith
  refine .infinite ?_
  rw [abs_withSign]
  exact hlimit.trans (hq.trans (le_abs_self q))

/-- A number with four hundred zeros behind its point is rounded to zero. -/
theorem nearest_zero {q : ℚ} (hq : 0 ≤ q) (hsmall : q ≤ 10 ^ (-401 : ℤ)) (negative : Bool) :
    binary64.Nearest negative (withSign negative q) (.finite negative 0 0) := by
  have hunits : 2 * unitsPerOne ≤ 10 ^ 401 := by decide +kernel
  have hunits' : (2 * unitsPerOne : ℚ) ≤ 10 ^ 401 := by exact_mod_cast hunits
  have hunit := unitsPerOne_pos
  have hhalf : 2 * (q * unitsPerOne) ≤ 2 ^ binary64.lowest :=
    calc 2 * (q * unitsPerOne) = q * (2 * unitsPerOne) := by ring
      _ ≤ q * 10 ^ 401 := by gcongr
      _ ≤ 10 ^ (-401 : ℤ) * 10 ^ 401 := by gcongr
      _ = 2 ^ binary64.lowest := by norm_num [binary64]
  have := binary64.nearest_zero (by decide) (by decide) (mul_nonneg hq hunit.le) hhalf negative
  rwa [mul_div_cancel_right₀ _ hunit.ne'] at this

/-- A whole number with zeros behind it is rounded to the nearest value. -/
theorem nearest_round_mul (negative : Bool) (n e : ℕ) :
    binary64.Nearest negative (withSign negative (n * 10 ^ Int.ofNat e))
      (binary64.round negative (n * unitsPerOne * Nat.pow 10 e) 1) := by
  have hunit := unitsPerOne_pos.ne'
  have hround := @FloatFormat.nearest_round binary64 (n * unitsPerOne * Nat.pow 10 e) 1 (by decide)
    (by decide) Nat.one_pos negative
  have hquotient : ((n * unitsPerOne * Nat.pow 10 e : ℕ) / (1 : ℕ) / unitsPerOne : ℚ) =
      n * 10 ^ Int.ofNat e := by
    rw [Int.ofNat_eq_natCast, zpow_natCast, Nat.pow_eq]
    push_cast
    field_simp
  rwa [hquotient] at hround

/-- A number with places behind the point is rounded to the nearest value. -/
theorem nearest_round_div (negative : Bool) (n e : ℕ) :
    binary64.Nearest negative (withSign negative (n * 10 ^ Int.negSucc e))
      (binary64.round negative (n * unitsPerOne) (Nat.pow 10 (e + 1))) := by
  have hunit := unitsPerOne_pos.ne'
  have hround := @FloatFormat.nearest_round binary64 (n * unitsPerOne) (Nat.pow 10 (e + 1)) (by decide)
    (by decide) (Nat.pow_pos (by decide)) negative
  have hquotient : ((n * unitsPerOne : ℕ) / (Nat.pow 10 (e + 1) : ℕ) / unitsPerOne : ℚ) =
      n * 10 ^ Int.negSucc e := by
    rw [zpow_negSucc, Nat.pow_eq]
    push_cast
    field_simp
  rwa [hquotient] at hround

namespace Decimal

/-- The floating-point value of a numeral is nearest to the number that it stands for. -/
theorem nearest_toBinary {x : Decimal} (hdigits : ∀ c ∈ x.digits, isDigit c) :
    binary64.Nearest x.negative (withSign x.negative x.magnitude) x.toBinary := by
  have hvalue := digitsValue_dropWhile x.digits
  have hlead := head?_dropWhile_zeros x.digits
  have hmem : ∀ c ∈ x.digits.dropWhile fun c => digitValue? c = some 0, isDigit c := fun c hc =>
    hdigits c ((List.dropWhile_sublist _).subset hc)
  unfold magnitude toBinary
  rw [← hvalue]
  generalize x.digits.dropWhile (fun c => digitValue? c = some 0) = digits at hlead hmem ⊢
  generalize x.exponent - x.shift = exponent
  dsimp only
  split
  · next hnil =>
    subst hnil
    exact nearest_zero (by simp [digitsValue]) (by simp [digitsValue]) _
  next hne =>
  have hwritten := writtenDigits_of_isDigit hne hmem
  have hlength := List.length_pos_iff.mpr hne
  have hone : (1 : ℚ) ≤ 10 := by norm_num
  split
  · next hlarge =>
    rw [largestMagnitude] at hlarge
    refine nearest_infinite ?_ _
    calc (10 : ℚ) ^ 400 = 10 ^ (400 : ℤ) := (zpow_natCast 10 400).symm
      _ ≤ 10 ^ (digits.length + exponent - 1) := zpow_le_zpow_right₀ hone (by omega)
      _ ≤ digitsValue digits * 10 ^ exponent := hwritten.zpow_le_mul hlead exponent
  split
  · next hsmall =>
    rw [smallestMagnitude] at hsmall
    refine nearest_zero (mul_nonneg (Nat.cast_nonneg _) (zpow_nonneg (by norm_num) _)) ?_ _
    calc digitsValue digits * 10 ^ exponent
        ≤ (10 : ℚ) ^ (digits.length + exponent) := (hwritten.mul_zpow_lt exponent).le
      _ ≤ 10 ^ (-401 : ℤ) := zpow_le_zpow_right₀ hone (by omega)
  cases exponent with
  | ofNat e => exact nearest_round_mul x.negative (digitsValue digits) e
  | negSucc e => exact nearest_round_div x.negative (digitsValue digits) e

/-- A decimal numeral is read as the value of 64 bits that is nearest to it. -/
theorem exists_nearest {text : List Char} {negative : Bool} {q : ℚ} (h : DecimalText text negative q) :
    ∃ x, (read text).map toBinary = some x ∧ binary64.Nearest negative (withSign negative q) x := by
  obtain ⟨x, hread, rfl, rfl, hdigits⟩ := read_of_text h
  exact ⟨x.toBinary, by rw [hread, Option.map_some], nearest_toBinary hdigits⟩

end Decimal

end DriverPolicy
