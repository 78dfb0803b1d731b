import DriverPolicy.Number.Decimal
import Mathlib.Data.List.Induction

/-!
# Runs of digits

Digits of any script write a number place by place. With a sign in front they write an integer, and what
reads as an integer is a sign at will with digits behind it.
-/

namespace DriverPolicy

/-- Digits, of any script, and the number that they write place by place. -/
inductive WrittenDigits : List Char → Nat → Prop
  | single {c : Char} {v : Nat} (hc : digitValue? c = some v) : WrittenDigits [c] v
  | snoc {digits : List Char} {n : Nat} {c : Char} {v : Nat} (h : WrittenDigits digits n)
      (hc : digitValue? c = some v) : WrittenDigits (digits ++ [c]) (10 * n + v)

namespace WrittenDigits

variable {digits : List Char} {n : Nat}

/-- Written digits are digits. -/
theorem isDigit (h : WrittenDigits digits n) : ∀ c ∈ digits, isDigit c := by
  induction h with
  | single hc => simp [DriverPolicy.isDigit, hc]
  | snoc h hc ih =>
    intro d hd
    rcases List.mem_append.mp hd with hfront | hlast
    · exact ih d hfront
    · obtain rfl := List.mem_singleton.mp hlast
      simp [DriverPolicy.isDigit, hc]

/-- A number has at least one digit. -/
theorem ne_nil (h : WrittenDigits digits n) : digits ≠ [] := by
  cases h <;> simp

/-- The digits of a number have its value. -/
theorem digitsValue_eq (h : WrittenDigits digits n) : digitsValue digits = n := by
  induction h with
  | single hc => simp [digitsValue, hc]
  | snoc h hc ih =>
    rw [digitsValue] at ih ⊢
    simp [ih, hc]

end WrittenDigits

/-- Any digits, if there are some, write their value. -/
theorem writtenDigits_of_isDigit {digits : List Char} (hne : digits ≠ [])
    (h : ∀ c ∈ digits, isDigit c) : WrittenDigits digits (digitsValue digits) := by
  induction digits using List.reverseRecOn with
  | nil => exact absurd rfl hne
  | append_singleton digits c ih =>
    obtain ⟨v, hc⟩ := Option.isSome_iff_exists.mp (h c (by simp))
    by_cases hfirst : digits = []
    · have hvalue : digitsValue [c] = v := (WrittenDigits.single hc).digitsValue_eq
      rw [hfirst, List.nil_append, hvalue]
      exact .single hc
    · have hwritten := (ih hfirst fun d hd => h d (List.mem_append_left _ hd)).snoc hc
      rw [hwritten.digitsValue_eq]
      exact hwritten

/-- The decimal digits of a number write it. -/
theorem writtenDigits_toDigits (n : Nat) : WrittenDigits (Nat.toDigits 10 n) n := by
  have hvalue : ∀ d < 10, digitValue? (Nat.digitChar d) = some d := by decide
  induction n using Nat.strongRecOn with
  | ind n ih =>
    by_cases h : n < 10
    · rw [Nat.toDigits_of_lt_base h]
      exact .single (hvalue n h)
    · rw [Nat.toDigits_of_base_le (by decide) (by omega)]
      have hlast : WrittenDigits _ (10 * (n / 10) + n % 10) :=
        (ih (n / 10) (by omega)).snoc (hvalue (n % 10) (by omega))
      rwa [Nat.div_add_mod] at hlast

/-- A text of digits has no sign. -/
theorem splitSign_of_isDigit {digits : List Char} (h : ∀ c ∈ digits, isDigit c) :
    splitSign digits = (false, digits) := by
  unfold splitSign
  split
  · exact absurd (h '-' List.mem_cons_self) (by decide)
  · exact absurd (h '+' List.mem_cons_self) (by decide)
  · rfl

/-- The texts of an integer by the number of their digits: digits, behind a minus if the integer is
negative and a plus at will if it is not. -/
inductive SignedDigits : Int → Nat → List Char → Prop
  | unsigned {digits : List Char} {n : Nat} (h : WrittenDigits digits n) :
      SignedDigits n digits.length digits
  | plus {digits : List Char} {n : Nat} (h : WrittenDigits digits n) :
      SignedDigits n digits.length ('+' :: digits)
  | minus {digits : List Char} {n : Nat} (h : WrittenDigits digits n) :
      SignedDigits (-n) digits.length ('-' :: digits)

namespace SignedDigits

variable {n : Int} {count : Nat} {text : List Char}

/-- They are digits, but for the sign. -/
theorem chars (h : SignedDigits n count text) : ∀ c ∈ text, isDigit c ∨ c = '+' ∨ c = '-' := by
  intro c hc
  cases h with
  | unsigned h => exact Or.inl (h.isDigit c hc)
  | plus h =>
    rcases List.mem_cons.mp hc with rfl | hc
    · exact Or.inr (Or.inl rfl)
    · exact Or.inl (h.isDigit c hc)
  | minus h =>
    rcases List.mem_cons.mp hc with rfl | hc
    · exact Or.inr (Or.inr rfl)
    · exact Or.inl (h.isDigit c hc)

/-- There is at least one. -/
theorem ne_nil (h : SignedDigits n count text) : text ≠ [] := by
  cases h with
  | unsigned h => exact h.ne_nil
  | plus => exact List.cons_ne_nil _ _
  | minus => exact List.cons_ne_nil _ _

/-- They read as their integer. -/
theorem readInteger_eq (h : SignedDigits n count text) : ∃ negative digits,
    readInteger text = some (negative, digits) ∧ digits.length = count ∧
      signedValue negative digits = n := by
  cases h with
  | unsigned h =>
    refine ⟨false, text, ?_, rfl, by simp [signedValue, h.digitsValue_eq]⟩
    simpa [readInteger, splitSign_of_isDigit h.isDigit, h.ne_nil] using h.isDigit
  | @plus digits m h =>
    refine ⟨false, digits, ?_, rfl, by simp [signedValue, h.digitsValue_eq]⟩
    simpa [readInteger, splitSign, h.ne_nil] using h.isDigit
  | @minus digits m h =>
    refine ⟨true, digits, ?_, rfl, by simp [signedValue, h.digitsValue_eq]⟩
    simpa [readInteger, splitSign, h.ne_nil] using h.isDigit

/-- Nothing else reads as an integer. -/
theorem of_readInteger {negative : Bool} {digits : List Char}
    (h : readInteger text = some (negative, digits)) :
    SignedDigits (signedValue negative digits) digits.length text := by
  unfold readInteger at h
  split at h
  next hsign =>
  split at h
  · next hall =>
    obtain ⟨rfl, rfl⟩ := Prod.mk.inj (Option.some.inj h)
    simp only [Bool.and_eq_true, decide_eq_true_eq, List.all_eq_true] at hall
    have hwritten := writtenDigits_of_isDigit hall.1 hall.2
    unfold splitSign at hsign
    split at hsign <;> obtain ⟨rfl, rfl⟩ := Prod.mk.inj hsign
    · exact .minus hwritten
    · exact .plus hwritten
    · exact .unsigned hwritten
  · contradiction

end SignedDigits

/-- The text of an integer is its digits, with a minus in front if it is negative. -/
theorem signedDigits_toString (n : Int) :
    SignedDigits n (Nat.toDigits 10 n.natAbs).length (toString n).toList := by
  cases n with
  | ofNat m =>
    have htext : (toString (Int.ofNat m)).toList = Nat.toDigits 10 m := Nat.toList_repr
    rw [htext]
    exact .unsigned (writtenDigits_toDigits m)
  | negSucc m =>
    have htext : (toString (Int.negSucc m)).toList = '-' :: Nat.toDigits 10 (m + 1) := by
      rw [Int.toString_eq_repr, Int.repr_eq_if, if_neg (by omega)]
      simp [Int.neg_negSucc]
    rw [htext]
    exact .minus (writtenDigits_toDigits (m + 1))

/-- No two integers have one text. -/
theorem toString_int_injective {n n' : Int} (h : toString n = toString n') : n = n' := by
  have hdigits := signedDigits_toString n'
  rw [← h] at hdigits
  obtain ⟨_, _, hread, -, rfl⟩ := (signedDigits_toString n).readInteger_eq
  obtain ⟨_, _, hread', -, rfl⟩ := hdigits.readInteger_eq
  obtain ⟨rfl, rfl⟩ := Prod.mk.inj (Option.some.inj (hread.symm.trans hread'))
  rfl

end DriverPolicy
