import DriverPolicy.Proofs.Attempt
import DriverPolicy.Toml.Document

/-!
# Integers of too many digits

An integer in a document is read up to its last digit and only then converted, which fails if there
are too many. The document is well formed all the same, and its fault is one of its own.
-/

namespace DriverPolicy

namespace Toml

/-- Digits are taken up to the end. -/
theorem takeGroups_ones (count : Nat) : ∃ h,
    takeGroups Char.isDigit (List.replicate count '1') =
      (List.replicate count '1', ⟨[], h⟩) := by
  induction count with
  | zero => exact ⟨Nat.le_refl _, rfl⟩
  | succ count ih =>
    obtain ⟨h, heq⟩ := ih
    refine ⟨Nat.zero_le _, ?_⟩
    rw [List.replicate_succ, takeGroups, heq]
    · rfl
    · rintro c rest ⟨⟩

/-- Digits are the whole part of a number. -/
theorem takeWhole?_ones (count : Nat) : ∃ h,
    takeWhole? (List.replicate (count + 1) '1') =
      some (List.replicate (count + 1) '1', ⟨[], h⟩) := by
  obtain ⟨h, heq⟩ := takeGroups_ones count
  refine ⟨Nat.zero_lt_succ _, ?_⟩
  change takeDigits? Char.isDigit ('1' :: List.replicate count '1') = _
  rw [takeDigits?, heq]
  rfl

variable {count : Nat}

/-- More digits than are converted are no number. -/
theorem readNumber?_ones (h : integerDigitLimit < count) :
    readNumber? (List.replicate count '1') = some (.error (.tooManyDigits count)) := by
  obtain ⟨m, rfl⟩ : ∃ m, count = m + 1 := ⟨count - 1, by omega⟩
  have hbased : readBased? (List.replicate (m + 1) '1') = none := rfl
  obtain ⟨hless, hwhole⟩ : ∃ h, takeWhole? (takeSign (List.replicate (m + 1) '1')).2.1 =
      some (List.replicate (m + 1) '1', ⟨[], h⟩) := takeWhole?_ones m
  have hlength : (List.replicate (m + 1) '1').length = m + 1 := List.length_replicate
  rw [readNumber?, hbased]
  dsimp only
  rw [hwhole]
  dsimp only
  rw [if_pos (by rfl), if_pos (hlength.symm ▸ h), hlength]

/-- More digits than are converted are no value. -/
theorem readValue_ones (h : integerDigitLimit < count) :
    readValue (List.replicate count '1') = .error (.tooManyDigits count) := by
  have hnumber := readNumber?_ones h
  -- with five digits in sight, none of the other kinds of value fits
  obtain ⟨m, rfl⟩ : ∃ m, count = m + 5 :=
    ⟨count - 5, by simp only [integerDigitLimit] at h; omega⟩
  have hstring : readString? (List.replicate (m + 5) '1') = none := rfl
  have hdate : readDate? (List.replicate (m + 5) '1') = none := rfl
  have htime : readTime? (List.replicate (m + 5) '1') = none := rfl
  rw [readValue, hstring, hdate, htime, hnumber]
  all_goals rintro rest ⟨⟩

/-- A line that gives more digits than are converted to a name cannot be read. -/
theorem readLine_ones (h : integerDigitLimit < count) (document : Document) :
    readLine document ("n = ".toList ++ List.replicate count '1') =
      .error (.tooManyDigits count) := by
  have hvalue := readValue_ones h
  obtain ⟨m, rfl⟩ : ∃ m, count = m + 1 := ⟨count - 1, by omega⟩
  change readLine document ('n' :: ' ' :: '=' :: ' ' :: List.replicate (m + 1) '1') = _
  obtain ⟨hless, hkey⟩ :
      ∃ h, readKey ('n' :: ' ' :: '=' :: ' ' :: List.replicate (m + 1) '1') =
        .ok (["n"], ⟨'=' :: ' ' :: List.replicate (m + 1) '1', h⟩) := by
    refine ⟨by simp, ?_⟩
    rw [readKey]
    rfl
  rw [readLine, hkey, ok_bind]
  · exact bind_eq_error_iff.mpr (Or.inl hvalue)
  all_goals rintro rest ⟨⟩

/-- Without carriage returns there are no line ends to join. -/
theorem joinLineEnds_of_not_mem {text : List Char} (h : '\r' ∉ text) :
    joinLineEnds text = text := by
  induction text with
  | nil => rfl
  | cons c rest ih =>
    obtain ⟨hc, hrest⟩ := List.ne_and_not_mem_of_not_mem_cons h
    rw [joinLineEnds, ih hrest]
    rintro rest rfl
    exact absurd rfl hc

/-- A document that gives more digits than are converted to a name cannot be read. -/
theorem parse_ones (h : integerDigitLimit < count) :
    TomlTable.parse ("n = ".toList ++ List.replicate count '1') =
      .error (.tooManyDigits count) := by
  have hline := readLine_ones h .empty
  have hreturn : '\r' ∉ "n = ".toList ++ List.replicate count '1' := by
    simp [List.mem_replicate]
  rw [TomlTable.parse, joinLineEnds_of_not_mem hreturn, readLines]
  exact map_eq_error_iff.mpr (bind_eq_error_iff.mpr (Or.inl hline))

end Toml

end DriverPolicy
