import DriverPolicy.Text.Blank
import DriverPolicy.Text.Digit
import DriverPolicy.Text.Letter

/-!
# Trimming blanks off a solid text

A solid text begins and ends with a character that is not blank. Whatever blanks stand around it,
trimming gives it back, and a reader that skips blanks stops at its first character. Blanks,
letters and digits are different characters, which tables of code points settle.
-/

namespace DriverPolicy

/-- A text that begins and ends with a character that is not blank. -/
structure Solid (text : List Char) : Prop where
  first : ∃ c rest, text = c :: rest ∧ isBlank c = false
  last : ∃ front c, text = front ++ [c] ∧ isBlank c = false

/-- Skipping blanks passes over blank text. -/
theorem dropWhile_blank_append {before : List Char} (h : allBlank before) (text : List Char) :
    (before ++ text).dropWhile isBlank = text.dropWhile isBlank :=
  List.dropWhile_append_of_pos (List.all_eq_true.mp h)

/-- Nothing is left of blank text when blanks are skipped. -/
theorem dropWhile_blank_eq_nil {text : List Char} (h : allBlank text) :
    text.dropWhile isBlank = [] := by
  simpa using dropWhile_blank_append h []

/-- The empty text is blank. -/
theorem allBlank_nil : allBlank [] := rfl

/-- Two blank texts in a row are blank. -/
theorem allBlank_append {before after : List Char} :
    allBlank (before ++ after) = (allBlank before && allBlank after) :=
  List.all_append

/-- A text is blank from either end. -/
theorem allBlank_reverse (text : List Char) : allBlank text.reverse = allBlank text := by
  simp [allBlank]

namespace Solid

variable {text : List Char}

/-- One character that is not blank is a solid text. -/
theorem singleton {c : Char} (h : isBlank c = false) : Solid [c] :=
  ⟨⟨c, [], rfl, h⟩, ⟨[], c, rfl, h⟩⟩

/-- A text between two characters that are not blank is solid. -/
theorem between {c d : Char} (hc : isBlank c = false) (hd : isBlank d = false)
    (inside : List Char) : Solid (c :: inside ++ [d]) :=
  ⟨⟨c, inside ++ [d], rfl, hc⟩, ⟨c :: inside, d, rfl, hd⟩⟩

/-- A text that starts solidly and ends solidly is solid, whatever stands between. -/
theorem append {front back : List Char} (hfront : Solid front) (gap : List Char)
    (hback : Solid back) : Solid (front ++ gap ++ back) := by
  obtain ⟨c, rest, rfl, hc⟩ := hfront.first
  obtain ⟨start, d, rfl, hd⟩ := hback.last
  exact ⟨⟨c, rest ++ gap ++ (start ++ [d]), by simp, hc⟩,
    ⟨c :: rest ++ gap ++ start, d, by simp, hd⟩⟩

/-- A text of which no character is blank is solid unless it is empty. -/
theorem of_all (hne : text ≠ []) (h : ∀ c ∈ text, isBlank c = false) : Solid text := by
  constructor
  · obtain ⟨c, rest, rfl⟩ := List.exists_cons_of_ne_nil hne
    exact ⟨c, rest, rfl, h c List.mem_cons_self⟩
  · refine ⟨text.dropLast, text.getLast hne, (List.dropLast_concat_getLast hne).symm, ?_⟩
    exact h _ (List.getLast_mem hne)

/-- A solid text is not blank. -/
theorem not_allBlank (h : Solid text) : allBlank text = false := by
  obtain ⟨c, rest, rfl, hc⟩ := h.first
  simp [allBlank, hc]

/-- A solid text is not empty. -/
theorem ne_nil (h : Solid text) : text ≠ [] := by
  rintro rfl
  exact absurd h.not_allBlank (by decide)

/-- A reader that skips blanks stops at the start of a solid text. -/
theorem dropWhile_blank (h : Solid text) (after : List Char) :
    (text ++ after).dropWhile isBlank = text ++ after := by
  obtain ⟨c, rest, rfl, hc⟩ := h.first
  simp [hc]

/-- The blanks that stand before a solid text end where it starts. -/
theorem takeWhile_blank (h : Solid text) {before : List Char} (hbefore : allBlank before)
    (after : List Char) : (before ++ text ++ after).takeWhile isBlank = before := by
  obtain ⟨c, rest, rfl, hc⟩ := h.first
  rw [List.append_assoc, List.takeWhile_append_of_pos (List.all_eq_true.mp hbefore)]
  simp [hc]

/-- A solid text is solid from the other end. -/
theorem reverse (h : Solid text) : Solid text.reverse := by
  obtain ⟨⟨c, rest, hfirst, hc⟩, ⟨front, d, hlast, hd⟩⟩ := h
  refine ⟨⟨d, front.reverse, ?_, hd⟩, ⟨rest.reverse, c, ?_, hc⟩⟩
  · rw [hlast, List.reverse_append, List.reverse_singleton, List.singleton_append]
  · rw [hfirst, List.reverse_cons]

/-- Trimming takes the blanks around a solid text away and nothing else. -/
theorem trim_eq (h : Solid text) {before after : List Char} (hbefore : allBlank before)
    (hafter : allBlank after) : trim (before ++ text ++ after) = text := by
  have hleft : trimLeft (before ++ text ++ after) = text ++ after := by
    rw [trimLeft, List.append_assoc, dropWhile_blank_append hbefore, h.dropWhile_blank]
  have hright : (text ++ after).reverse.dropWhile isBlank = text.reverse := by
    rw [List.reverse_append, dropWhile_blank_append (by rwa [allBlank_reverse])]
    simpa using h.reverse.dropWhile_blank []
  rw [trim, hleft, trimRight, hright, List.reverse_reverse]

end Solid

/-- Characters of a class are skipped up to the first one that is not of it. -/
theorem skip_append {p : Char → Bool} {front rest : List Char} (hfront : ∀ c ∈ front, p c)
    (hrest : ∀ c ∈ rest.head?, p c = false) :
    (front ++ rest).takeWhile p = front ∧ (front ++ rest).dropWhile p = rest := by
  rw [List.takeWhile_append_of_pos hfront, List.dropWhile_append_of_pos hfront]
  cases rest with
  | nil => simp
  | cons c rest =>
    have hc : p c = false := hrest c rfl
    simp [hc]

/-- What is left when characters are skipped begins with one that is not skipped. -/
theorem eq_false_of_dropWhile_eq_cons {p : Char → Bool} {text rest : List Char} {c : Char}
    (h : text.dropWhile p = c :: rest) : p c = false := by
  have hne : text.dropWhile p ≠ [] := by simp [h]
  simpa [h] using List.head_dropWhile_not p hne

/-- Of a text that is not blank something is left when blanks are skipped. -/
theorem dropWhile_blank_ne_nil {text : List Char} (h : allBlank text = false) :
    text.dropWhile isBlank ≠ [] := by
  intro hnil
  have hall : text.takeWhile isBlank = text := by
    simpa [hnil] using @List.takeWhile_append_dropWhile _ isBlank text
  have : allBlank text = true := hall ▸ List.all_takeWhile
  simp [this] at h

/-- A text that is not blank is the solid text that trimming leaves with blanks around it. -/
theorem exists_eq_trim_append {text : List Char} (h : allBlank text = false) :
    Solid (trim text) ∧ ∃ after, allBlank after ∧
      text = text.takeWhile isBlank ++ trim text ++ after := by
  obtain ⟨c, rest, hleft⟩ := List.exists_cons_of_ne_nil (dropWhile_blank_ne_nil h)
  have hc := eq_false_of_dropWhile_eq_cons hleft
  have hblank : allBlank (trimLeft text).reverse = false := by
    rw [trimLeft, hleft, allBlank_reverse]
    simp [allBlank, hc]
  obtain ⟨d, front, hright⟩ := List.exists_cons_of_ne_nil (dropWhile_blank_ne_nil hblank)
  have hd := eq_false_of_dropWhile_eq_cons hright
  obtain ⟨after, hafter⟩ : ∃ after, after = ((trimLeft text).reverse.takeWhile isBlank).reverse :=
    ⟨_, rfl⟩
  have htrim : trim text = front.reverse ++ [d] := by
    rw [trim, trimRight, hright, List.reverse_cons]
  have hsplit : trimLeft text = trim text ++ after := by
    have := congrArg List.reverse
      (@List.takeWhile_append_dropWhile _ isBlank (trimLeft text).reverse)
    rw [List.reverse_append, List.reverse_reverse] at this
    rw [hafter, trim, trimRight, this]
  have hallAfter : allBlank after := by
    rw [hafter, allBlank_reverse]
    exact List.all_takeWhile
  refine ⟨⟨?_, front.reverse, d, htrim, hd⟩, after, hallAfter, ?_⟩
  · -- the trimmed text is not empty, so it starts where the text without its first blanks does
    rw [trimLeft, hleft] at hsplit
    cases hcases : trim text with
    | nil => simp [hcases] at htrim
    | cons e tail =>
      rw [hcases, List.cons_append] at hsplit
      exact ⟨e, tail, rfl, (List.cons.inj hsplit).1 ▸ hc⟩
  · rw [List.append_assoc, ← hsplit, trimLeft, List.takeWhile_append_dropWhile]

/-- Nothing is left of blank text when it is trimmed. -/
theorem trim_eq_nil {text : List Char} (h : allBlank text) : trim text = [] := by
  rw [trim, trimLeft, dropWhile_blank_eq_nil h]
  rfl

/-- Trimming takes no character away that is not blank. -/
theorem mem_trim_iff {c : Char} (hc : isBlank c = false) {text : List Char} :
    c ∈ trim text ↔ c ∈ text := by
  have hblank {blanks : List Char} (h : allBlank blanks) : c ∉ blanks := fun hmem => by
    simp [List.all_eq_true.mp h c hmem] at hc
  by_cases hall : allBlank text
  · simp [trim_eq_nil hall, hblank hall]
  · obtain ⟨-, after, hafter, htext⟩ := exists_eq_trim_append (Bool.not_eq_true _ ▸ hall)
    have hmem : c ∈ text ↔ c ∈ text.takeWhile isBlank ++ trim text ++ after := by rw [← htext]
    rw [hmem, List.mem_append, List.mem_append, or_iff_left (hblank hafter),
      or_iff_right (hblank List.all_takeWhile)]

/-- What holds of the characters with the code points of blanks holds of every blank. -/
theorem of_isBlank {p : Char → Prop} (h : ∀ code ∈ blankCodes, p (Char.ofNat code)) {c : Char}
    (hc : isBlank c) : p c := by
  simpa using h c.toNat (by simpa [isBlank] using hc)

/-- What holds of the first code points holds of every letter. -/
theorem of_isLetter {p : Char → Prop} (h : ∀ code < 128, isLetter (Char.ofNat code) →
    p (Char.ofNat code)) {c : Char} (hc : isLetter c) : p c := by
  have hlt : c.toNat < 128 := by
    simp only [isLetter, Bool.or_eq_true, Bool.and_eq_true, decide_eq_true_eq, Char.le_def,
      UInt32.le_iff_toNat_le] at hc
    simp only [Char.toNat]
    rcases hc with ⟨-, h⟩ | ⟨-, h⟩
    · exact Nat.lt_of_le_of_lt h (by decide)
    · exact Nat.lt_of_le_of_lt h (by decide)
  simpa using h c.toNat hlt (by simpa using hc)

/-- No name character is blank. -/
theorem isBlank_of_isNameChar {c : Char} (h : isNameChar c) : isBlank c = false := by
  rw [← Bool.not_eq_true]
  intro hblank
  have hnot : isNameChar c = false :=
    of_isBlank (p := fun c => isNameChar c = false) (by decide) hblank
  simp [hnot] at h

/-- No blank is a name character. -/
theorem isNameChar_of_isBlank {c : Char} (h : isBlank c) : isNameChar c = false := by
  rw [← Bool.not_eq_true]
  intro hname
  simp [isBlank_of_isNameChar hname] at h

/-- No digit is blank. -/
theorem isBlank_of_isDigit {c : Char} (h : isDigit c) : isBlank c = false := by
  rw [← Bool.not_eq_true]
  intro hblank
  have hnot : isDigit c = false := of_isBlank (p := fun c => isDigit c = false) (by decide) hblank
  simp [hnot] at h

/-- No letter is a digit. -/
theorem isDigit_of_isLetter {c : Char} (h : isLetter c) : isDigit c = false :=
  of_isLetter (p := fun c => isDigit c = false) (by decide) h

/-- No digit is a letter. -/
theorem isLetter_of_isDigit {c : Char} (h : isDigit c) : isLetter c = false := by
  rw [← Bool.not_eq_true]
  intro hletter
  simp [isDigit_of_isLetter hletter] at h

end DriverPolicy
