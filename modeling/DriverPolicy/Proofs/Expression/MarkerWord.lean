import DriverPolicy.Expression.Literal
import DriverPolicy.Proofs.Text.Trim
import Mathlib.Data.List.Forall2

/-!
# The words of markers

The words of markers are tried in turn, each in any case. No character spells two letters and no two
words begin with the same letter, so a text starts with a spelling of one word at most and the turns do
not matter. In small letters a spelled word is the word itself if it has no i; of an i the dot may be
missing or stand behind the letter as a mark.
-/

namespace DriverPolicy

/-- A word of letters is spelled with letters. -/
theorem isLetter_of_lowerChar {c : Char} (h : isLetter (lowerChar c)) : isLetter c := by
  unfold lowerChar at h
  split at h
  · next hcapital => simp [isLetter, hcapital]
  · exact h

/-- Letters are name characters. -/
theorem isNameChar_of_isLetter {c : Char} (h : isLetter c) : isNameChar c := by
  simp [isNameChar, h]

/-- The word of ints is one of the words of markers. -/
theorem int_mem_markerWords : "int".toList ∈ markerWords := by decide

/-- So is the word of longs. -/
theorem long_mem_markerWords : "long".toList ∈ markerWords := by decide

/-- The words of markers consist of letters. -/
theorem isLetter_of_mem_markerWords : ∀ word ∈ markerWords, ∀ c ∈ word, isLetter c := by
  have hall : markerWords.all fun word => word.all isLetter := by decide
  simpa only [List.all_eq_true] using hall

/-- The words of markers differ in their first letters. -/
theorem head?_ne_of_mem_markerWords : ∀ word ∈ markerWords, ∀ other ∈ markerWords,
    other ≠ word → other.head? ≠ word.head? := by decide

/-- A word is taken off the start of a text just if the text starts with a spelling of it. -/
theorem takeWord_eq_some_iff {word text taken rest : List Char} :
    takeWord word text = some (taken, rest) ↔
      List.Forall₂ (fun letter c => matchesMarkerLetter letter c) word taken ∧
        taken ++ rest = text := by
  induction word generalizing text taken with
  | nil =>
    rw [takeWord, List.forall₂_nil_left_iff, Option.some.injEq, Prod.mk.injEq]
    constructor
    · rintro ⟨rfl, rfl⟩
      exact ⟨rfl, rfl⟩
    · rintro ⟨rfl, rfl⟩
      exact ⟨rfl, rfl⟩
  | cons letter word ih =>
    cases text with
    | nil =>
      simp only [takeWord, reduceCtorEq, List.append_eq_nil_iff, false_iff, not_and]
      rintro h rfl
      simp at h
    | cons c text =>
      rw [takeWord, List.forall₂_cons_left_iff]
      split
      · next hletter =>
        constructor
        · intro h
          obtain ⟨⟨others, left⟩, hothers, heq⟩ := Option.map_eq_some_iff.mp h
          obtain ⟨rfl, rfl⟩ := Prod.mk.inj heq
          obtain ⟨hspelled, rfl⟩ := ih.mp hothers
          exact ⟨⟨c, others, hletter, hspelled, rfl⟩, rfl⟩
        · rintro ⟨⟨d, others, -, hspelled, rfl⟩, htext⟩
          rw [List.cons_append, List.cons.injEq] at htext
          obtain ⟨rfl, htext⟩ := htext
          rw [ih.mpr ⟨hspelled, htext⟩]
          rfl
      · next hletter =>
        simp only [reduceCtorEq, false_iff, not_and]
        rintro ⟨d, others, hd, -, rfl⟩ htext
        obtain ⟨rfl, -⟩ := List.cons.inj htext
        exact hletter hd

/-- No spelling of a letter is blank. -/
theorem isBlank_of_matchesMarkerLetter {letter c : Char} (hletter : isLetter letter)
    (h : matchesMarkerLetter letter c) : isBlank c = false := by
  simp only [matchesMarkerLetter, Bool.or_eq_true, Bool.and_eq_true, decide_eq_true_eq] at h
  rcases h with rfl | ⟨-, hdotted | hdotless⟩
  · exact isBlank_of_isNameChar (isNameChar_of_isLetter (isLetter_of_lowerChar hletter))
  · simp [isBlank, hdotted, blankCodes]
  · simp [isBlank, hdotless, blankCodes]

/-- A spelled word is solid. -/
theorem solid_of_spelled {word spelled : List Char} (hword : word ∈ markerWords)
    (h : List.Forall₂ (fun letter c => matchesMarkerLetter letter c) word spelled) :
    Solid spelled := by
  have hletters := isLetter_of_mem_markerWords word hword
  refine .of_all ?_ ?_
  · rintro rfl
    rw [List.forall₂_nil_right_iff] at h
    simp [h, markerWords] at hword
  · clear hword
    induction h with
    | nil => simp
    | cons hmatches _ ih =>
      simp only [List.mem_cons, forall_eq_or_imp] at hletters ⊢
      exact ⟨isBlank_of_matchesMarkerLetter hletters.1 hmatches, ih hletters.2⟩

/-- No character spells two letters. -/
theorem matchesMarkerLetter_unique {letter other c : Char} (hletter : isLetter letter)
    (hother : isLetter other) (h : matchesMarkerLetter letter c) (h' : matchesMarkerLetter other c) :
    letter = other := by
  have hplain {letter : Char} (hletter : isLetter letter) (hlower : lowerChar c = letter) :
      c.toNat ≠ 0x130 ∧ c.toNat ≠ 0x131 :=
    of_isLetter (p := fun c => c.toNat ≠ 0x130 ∧ c.toNat ≠ 0x131) (by decide)
      (isLetter_of_lowerChar (hlower ▸ hletter))
  simp only [matchesMarkerLetter, Bool.or_eq_true, Bool.and_eq_true, decide_eq_true_eq] at h h'
  rcases h with hlower | ⟨rfl, hdotted⟩
  · rcases h' with hlower' | ⟨rfl, hdotted⟩
    · exact hlower.symm.trans hlower'
    · exact absurd hdotted (not_or.mpr (hplain hletter hlower))
  · rcases h' with hlower | ⟨rfl, -⟩
    · exact absurd hdotted (not_or.mpr (hplain hother hlower))
    · rfl

/-- A word is known by any character that spells its first letter. -/
theorem word_unique {letter letter' c : Char} {word other : List Char}
    (hword : letter :: word ∈ markerWords) (hother : letter' :: other ∈ markerWords)
    (h : matchesMarkerLetter letter c) (h' : matchesMarkerLetter letter' c) :
    letter' :: other = letter :: word := by
  by_contra hne
  have hletter := matchesMarkerLetter_unique
    (isLetter_of_mem_markerWords _ hword letter List.mem_cons_self)
    (isLetter_of_mem_markerWords _ hother letter' List.mem_cons_self) h h'
  exact head?_ne_of_mem_markerWords _ hword _ hother hne (by rw [hletter]; rfl)

/-- No text starts with spellings of two words. -/
theorem spelled_word_unique {word other spelled spelled' rest rest' : List Char}
    (hword : word ∈ markerWords) (hother : other ∈ markerWords)
    (h : List.Forall₂ (fun letter c => matchesMarkerLetter letter c) word spelled)
    (h' : List.Forall₂ (fun letter c => matchesMarkerLetter letter c) other spelled')
    (htext : spelled ++ rest = spelled' ++ rest') : other = word := by
  cases h with
  | nil => simp [markerWords] at hword
  | cons hfirst _ =>
    cases h' with
    | nil => simp [markerWords] at hother
    | cons hfirst' _ =>
      obtain ⟨rfl, -⟩ := List.cons.inj htext
      exact word_unique hword hother hfirst hfirst'

/-- A marker is taken off the start of a text, with its word in small letters. -/
theorem takeMarker?_spelled {word before spelled after : List Char} (hword : word ∈ markerWords)
    (hbefore : allBlank before)
    (hspelled : List.Forall₂ (fun letter c => matchesMarkerLetter letter c) word spelled)
    (hafter : allBlank after) (body : List Char) :
    takeMarker? ('(' :: (before ++ (spelled ++ (after ++ ')' :: body)))) =
      some (spelled.flatMap lowerMarkerChar, body) := by
  have hinside : (before ++ (spelled ++ (after ++ ')' :: body))).dropWhile isBlank =
      spelled ++ (after ++ ')' :: body) := by
    rw [dropWhile_blank_append hbefore, (solid_of_spelled hword hspelled).dropWhile_blank]
  have hclose : (after ++ ')' :: body).dropWhile isBlank = ')' :: body := by
    rw [dropWhile_blank_append hafter]
    exact List.dropWhile_cons_of_neg (by decide)
  obtain ⟨front, back, hsplit, hfresh⟩ := List.eq_append_cons_of_mem hword
  simp only [takeMarker?, hinside]
  -- the words are tried in order, and none that stands before this one can be taken off
  refine List.findSome?_eq_some_iff.mpr ⟨front, word, back, hsplit, ?_, fun other hmem => ?_⟩
  · simp only [takeWord_eq_some_iff.mpr ⟨hspelled, rfl⟩, hclose]
  · have hother : other ∈ markerWords := hsplit ▸ List.mem_append_left _ hmem
    have hnone : takeWord other (spelled ++ (after ++ ')' :: body)) = none := by
      refine Option.eq_none_iff_forall_ne_some.mpr fun taken htaken => ?_
      obtain ⟨hspelled', htext⟩ := takeWord_eq_some_iff.mp htaken
      exact hfresh (spelled_word_unique hword hother hspelled hspelled' htext.symm ▸ hmem)
    simp only [hnone]

/-- The small form of a character that spells a letter as its small or capital form is the letter. -/
theorem lowerMarkerChar_eq {letter c : Char} (hletter : isLetter letter) (h : lowerChar c = letter) :
    lowerMarkerChar c = [letter] := by
  have hc : c.toNat ≠ 0x130 :=
    of_isLetter (p := fun c => c.toNat ≠ 0x130) (by decide) (isLetter_of_lowerChar (h ▸ hletter))
  rw [lowerMarkerChar, if_neg hc, h]

/-- In small letters a spelled word without an i is the word. -/
theorem flatMap_lowerMarkerChar_spelled {word spelled : List Char}
    (h : List.Forall₂ (fun letter c => matchesMarkerLetter letter c) word spelled)
    (hletters : ∀ c ∈ word, isLetter c) (hdot : 'i' ∉ word) : spelled.flatMap lowerMarkerChar = word := by
  induction h with
  | nil => rfl
  | @cons letter c word spelled hmatches _ ih =>
    rw [List.forall_mem_cons] at hletters
    rw [List.mem_cons, not_or] at hdot
    have hlower : lowerChar c = letter := by simpa [matchesMarkerLetter, Ne.symm hdot.1] using hmatches
    rw [List.flatMap_cons, lowerMarkerChar_eq hletters.1 hlower, ih hletters.2 hdot.2]
    rfl

/-- The first character of the small form of a character is a letter that the character spells. -/
theorem matchesMarkerLetter_of_lowerMarkerChar {letter c : Char} {others : List Char}
    (h : lowerMarkerChar c = letter :: others) : matchesMarkerLetter letter c := by
  unfold lowerMarkerChar at h
  split at h
  · next hdotted =>
    obtain ⟨rfl, -⟩ := List.cons.inj h
    simp [matchesMarkerLetter, hdotted]
  · obtain ⟨hlower, -⟩ := List.cons.inj h
    simp [matchesMarkerLetter, hlower]

/-- In small letters a spelled word is no other word. -/
theorem flatMap_lowerMarkerChar_ne {word other spelled : List Char} (hword : word ∈ markerWords)
    (hother : other ∈ markerWords) (hne : other ≠ word)
    (h : List.Forall₂ (fun letter c => matchesMarkerLetter letter c) word spelled) :
    spelled.flatMap lowerMarkerChar ≠ other := by
  intro heq
  cases h with
  | nil => simp [markerWords] at hword
  | @cons letter c word spelled hfirst _ =>
    cases hlower : lowerMarkerChar c with
    | nil =>
      unfold lowerMarkerChar at hlower
      split at hlower <;> contradiction
    | cons letter' others =>
      rw [List.flatMap_cons, hlower, List.cons_append] at heq
      rw [← heq] at hother hne
      exact hne (word_unique hword hother hfirst (matchesMarkerLetter_of_lowerMarkerChar hlower))

end DriverPolicy
