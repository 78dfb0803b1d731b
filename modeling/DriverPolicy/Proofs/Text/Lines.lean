import DriverPolicy.Text.Digit
import DriverPolicy.Text.Letter
import DriverPolicy.Text.Printable
import Mathlib.Data.List.TakeWhile

/-!
# Lines of a text

A text falls into lines at its line breaks. Printable characters, digits and the characters of names are no
line breaks. Whatever characters break lines, an index of a text has a line and a column, and it stands below
another if it has the same column on the next line.
-/

namespace DriverPolicy

/-- The characters at which a line ends. -/
def lineBreaks : List Char :=
  ['\n', '\x0b', '\x0c', '\r', '\x1c', '\x1d', '\x1e', '\u0085', '\u2028', '\u2029']

/-- The changes in a row, as a list, decide whether a character shows as itself. -/
theorem isPrintable_eq (c : Char) : isPrintable c =
    if c.toNat < 127 then decide (32 ≤ c.toNat)
    else printableFlips.toList.foldl (fun shown flip => if flip ≤ c.toNat then !shown else shown) false := by
  unfold isPrintable
  rw [Array.foldl_toList]

/-- A character of a kind that no line break is of ends no line. -/
theorem not_mem_lineBreaks_of_kind {kind : Char → Bool} (hbreaks : lineBreaks.all fun c => !kind c) {c : Char}
    (h : kind c) : c ∉ lineBreaks := by
  intro hmem
  have hnot : (!kind c) = true := List.all_eq_true.mp hbreaks c hmem
  rw [h] at hnot
  contradiction

/-- A text without line breaks can be checked character by character. -/
theorem forall_not_mem_lineBreaks {text : List Char} (h : text.all fun c => decide (c ∉ lineBreaks)) :
    ∀ c ∈ text, c ∉ lineBreaks := by
  simpa only [List.all_eq_true, decide_eq_true_eq] using h

/-- No printable character ends a line. -/
theorem not_mem_lineBreaks_of_isPrintable {c : Char} (h : isPrintable c) : c ∉ lineBreaks := by
  have hbreaks : lineBreaks.all fun c => !isPrintable c := by
    simp only [isPrintable_eq]
    decide +kernel
  exact not_mem_lineBreaks_of_kind hbreaks h

/-- No digit ends a line. -/
theorem not_mem_lineBreaks_of_isDigit {c : Char} (h : isDigit c) : c ∉ lineBreaks :=
  not_mem_lineBreaks_of_kind (by decide) h

/-- No character of a name ends a line. -/
theorem not_mem_lineBreaks_of_isNameChar {c : Char} (h : isNameChar c) : c ∉ lineBreaks :=
  not_mem_lineBreaks_of_kind (by decide) h

/-! ### Lines and columns -/

section

variable (breaks : List Char)

/-- The line of an index of a text: the number of line breaks before it. -/
def lineOf (text : List Char) (index : Nat) : Nat := (text.take index).countP (· ∈ breaks)

/-- The column of an index of a text: the number of characters between the last line break and it. -/
def columnOf (text : List Char) (index : Nat) : Nat :=
  ((text.take index).reverse.takeWhile (· ∉ breaks)).length

/-- Whether one index of a text stands directly below another. -/
structure IsBelow (text : List Char) (upper lower : Nat) : Prop where
  /-- It stands on the next line. -/
  line : lineOf breaks text lower = lineOf breaks text upper + 1
  /-- It stands in the same column. -/
  column : columnOf breaks text lower = columnOf breaks text upper

end

variable {breaks : List Char}

/-- A line break begins the next line. -/
theorem lineOf_append_cons {c : Char} (hc : c ∈ breaks) (front back : List Char) (index : Nat) :
    lineOf breaks (front ++ c :: back) (front.length + (1 + index)) =
      front.countP (· ∈ breaks) + 1 + lineOf breaks back index := by
  rw [lineOf, List.take_length_add_append, Nat.add_comm 1, List.take_succ_cons, List.countP_append,
    List.countP_cons_of_pos (by simpa using hc), lineOf]
  omega

/-- Columns are counted from zero behind a line break. -/
theorem columnOf_append_cons {c : Char} (hc : c ∈ breaks) (front back : List Char) (index : Nat) :
    columnOf breaks (front ++ c :: back) (front.length + (1 + index)) = columnOf breaks back index := by
  have hstop (text rest : List Char) :
      (text ++ c :: rest).takeWhile (· ∉ breaks) = text.takeWhile (· ∉ breaks) := by
    induction text with
    | nil => simp [hc]
    | cons d text ih =>
      rw [List.cons_append, List.takeWhile_cons, List.takeWhile_cons, ih]
  rw [columnOf, List.take_length_add_append, Nat.add_comm 1, List.take_succ_cons, List.reverse_append,
    List.reverse_cons, List.append_assoc, List.singleton_append, hstop, columnOf]

/-- What stands below what does not depend on the lines before. -/
theorem isBelow_append_cons {c : Char} (hc : c ∈ breaks) (front back : List Char) {upper lower : Nat} :
    IsBelow breaks (front ++ c :: back) (front.length + (1 + upper)) (front.length + (1 + lower)) ↔
      IsBelow breaks back upper lower := by
  constructor
  · rintro ⟨hline, hcolumn⟩
    rw [lineOf_append_cons hc, lineOf_append_cons hc] at hline
    rw [columnOf_append_cons hc, columnOf_append_cons hc] at hcolumn
    exact ⟨by omega, hcolumn⟩
  · rintro ⟨hline, hcolumn⟩
    constructor
    · rw [lineOf_append_cons hc, lineOf_append_cons hc, hline]
      omega
    · rw [columnOf_append_cons hc, columnOf_append_cons hc, hcolumn]

/-- On the first line of a text the column is the index. -/
theorem columnOf_eq_self_iff {text : List Char} {index : Nat} (h : index ≤ text.length) :
    columnOf breaks text index = index ↔ ∀ c ∈ text.take index, c ∉ breaks := by
  have hlength : (text.take index).reverse.length = index := by
    rw [List.length_reverse, List.length_take, Nat.min_eq_left h]
  have hprefix := List.takeWhile_prefix (fun c => decide (c ∉ breaks)) (l := (text.take index).reverse)
  have hall : columnOf breaks text index = index ↔
      (text.take index).reverse.takeWhile (· ∉ breaks) = (text.take index).reverse := by
    refine ⟨fun hcolumn => hprefix.eq_of_length (hcolumn.trans hlength.symm), fun hself => ?_⟩
    rw [columnOf, hself, hlength]
  rw [hall, List.takeWhile_eq_self_iff]
  simp only [List.mem_reverse, decide_eq_true_eq]

end DriverPolicy
