import DriverPolicy.Proofs.Expression.MarkerWord
import DriverPolicy.Proofs.Expression.Scan
import DriverPolicy.Proofs.Number.Digits

/-!
# Written literals

A string is written between two quotes of one kind, an integer as a decimal numeral, with the
marker of its kind in front where the kind is long and at will where it is int. The letters of a
marker may be capital or small, and blanks may stand inside its brackets and behind it. Every
literal that is written so is read back, is not taken for a nested call, and leaves the scan of
the arguments around it as it found it.
-/

namespace DriverPolicy

/-- The decimal numerals of an integer: digits, no more of them than are converted, behind a
minus if the integer is negative and a plus at will if it is not. -/
inductive Numeral : Int → List Char → Prop
  | unsigned {digits : List Char} {n : Nat} (h : WrittenDigits digits n)
      (hlength : digits.length ≤ integerDigitLimit) : Numeral n digits
  | plus {digits : List Char} {n : Nat} (h : WrittenDigits digits n)
      (hlength : digits.length ≤ integerDigitLimit) : Numeral n ('+' :: digits)
  | minus {digits : List Char} {n : Nat} (h : WrittenDigits digits n)
      (hlength : digits.length ≤ integerDigitLimit) : Numeral (-n) ('-' :: digits)

namespace Numeral

variable {n : Int} {text : List Char}

/-- A numeral is digits with a sign at will, and they are not too many. -/
theorem exists_signedDigits (h : Numeral n text) :
    ∃ count, count ≤ integerDigitLimit ∧ SignedDigits n count text := by
  cases h with
  | unsigned h hlength => exact ⟨_, hlength, .unsigned h⟩
  | plus h hlength => exact ⟨_, hlength, .plus h⟩
  | minus h hlength => exact ⟨_, hlength, .minus h⟩

/-- Digits with a sign at will are a numeral if they are not too many. -/
theorem of_signedDigits {count : Nat} (h : SignedDigits n count text) (hcount : count ≤ integerDigitLimit) :
    Numeral n text := by
  cases h with
  | unsigned h => exact .unsigned h hcount
  | plus h => exact .plus h hcount
  | minus h => exact .minus h hcount

/-- A numeral consists of digits and a sign. -/
theorem chars (h : Numeral n text) : ∀ c ∈ text, isDigit c ∨ c = '+' ∨ c = '-' := by
  obtain ⟨count, -, hsigned⟩ := h.exists_signedDigits
  exact hsigned.chars

/-- A numeral is not empty. -/
theorem ne_nil (h : Numeral n text) : text ≠ [] := by
  obtain ⟨count, -, hsigned⟩ := h.exists_signedDigits
  exact hsigned.ne_nil

/-- A property of digits and signs holds of every character of a numeral. -/
theorem forall_chars {p : Char → Prop} (hdigit : ∀ c, isDigit c → p c) (hplus : p '+')
    (hminus : p '-') (h : Numeral n text) : ∀ c ∈ text, p c := by
  intro c hc
  rcases h.chars c hc with hd | rfl | rfl
  · exact hdigit c hd
  · exact hplus
  · exact hminus

/-- A numeral is solid. -/
theorem solid (h : Numeral n text) : Solid text :=
  .of_all h.ne_nil (h.forall_chars (fun _ => isBlank_of_isDigit) (by decide) (by decide))

/-- A numeral means nothing to the scan. -/
theorem isOrdinary (h : Numeral n text) : ∀ c ∈ text, isOrdinary c :=
  h.forall_chars (fun _ => isOrdinary_of_isDigit) (by decide) (by decide)

/-- A character that is no digit and no sign is not in a numeral. -/
theorem not_mem (h : Numeral n text) {c : Char} (hc : DriverPolicy.isDigit c = false)
    (hplus : c ≠ '+') (hminus : c ≠ '-') : c ∉ text := by
  intro hmem
  rcases h.chars c hmem with hd | rfl | rfl
  · simp [hc] at hd
  · exact hplus rfl
  · exact hminus rfl

end Numeral

/-- The usual decimal text of an integer of 64 bits is a numeral of it. -/
theorem numeral_toString {n : Int} (hlow : longRange.1 ≤ n) (hhigh : n ≤ longRange.2) :
    Numeral n (toString n).toList := by
  simp only [longRange] at hlow hhigh
  have hdigits : n.natAbs < 10 ^ 19 := by omega
  exact .of_signedDigits (signedDigits_toString n)
    (Nat.le_trans ((Nat.length_toDigits_le_iff (by decide) (by decide)).mpr hdigits) (by decide))

/-- A marker: a word in capital or small letters between brackets, with blanks around it. -/
inductive Marker (word : List Char) : List Char → Prop
  | intro {before spelled after : List Char} (hbefore : allBlank before)
      (hspelled : spelled.map lowerChar = word) (hafter : allBlank after) :
      Marker word ('(' :: (before ++ (spelled ++ after)) ++ [')'])

/-- A word in capital or small letters is a spelling of it. -/
theorem spelled_of_map_lowerChar {word spelled : List Char} (h : spelled.map lowerChar = word) :
    List.Forall₂ (fun letter c => matchesMarkerLetter letter c) word spelled := by
  rw [← h, List.forall₂_map_left_iff]
  exact List.forall₂_same.mpr fun c _ => by simp [matchesMarkerLetter]

/-- The small form of a spelled word is the word: no other character has a small Latin letter. -/
theorem flatMap_lowerMarkerChar {word spelled : List Char} (h : spelled.map lowerChar = word)
    (hletters : ∀ c ∈ word, isLetter c) : spelled.flatMap lowerMarkerChar = word := by
  induction spelled generalizing word with
  | nil => simpa using h
  | cons c spelled ih =>
    subst h
    simp only [List.map_cons, List.mem_cons, forall_eq_or_imp] at hletters
    simp [lowerMarkerChar_eq hletters.1 rfl, ih rfl hletters.2]

/-- A marker's word is spelled with letters, which are name characters. -/
theorem isLetter_of_spelled {word spelled : List Char} (h : spelled.map lowerChar = word)
    (hword : word ∈ markerWords) : ∀ c ∈ spelled, isLetter c := fun _ hc =>
  isLetter_of_lowerChar (isLetter_of_mem_markerWords word hword _ (h ▸ List.mem_map_of_mem hc))

namespace Marker

variable {word text : List Char}

/-- A marker is solid. -/
theorem solid (h : Marker word text) : Solid text := by
  cases h
  exact .between (by decide) (by decide) _

/-- A marker leaves the scan as it found it. -/
theorem level (h : Marker word text) (hword : word ∈ markerWords) (depth : Nat) :
    Fragment.Level depth text := by
  obtain ⟨hbefore, hspelled, hafter⟩ := h
  refine .bracketed (.append ?_ (.append ?_ ?_))
  · exact .of_allBlank hbefore
  · exact .of_all fun c hc => isOrdinary_of_isNameChar
      (isNameChar_of_isLetter (isLetter_of_spelled hspelled hword c hc))
  · exact .of_allBlank hafter

/-- What holds of brackets, blanks and letters holds of every character of a marker. -/
theorem forall_chars {p : Char → Prop} (hopen : p '(') (hclose : p ')')
    (hblank : ∀ c, isBlank c → p c) (hletter : ∀ c, isLetter c → p c) (h : Marker word text)
    (hword : word ∈ markerWords) : ∀ c ∈ text, p c := by
  obtain ⟨hbefore, hspelled, hafter⟩ := h
  intro c hc
  simp only [List.mem_append, List.mem_cons, List.not_mem_nil, or_false] at hc
  rcases hc with (rfl | hc | hc | hc) | rfl
  · exact hopen
  · exact hblank c (List.all_eq_true.mp hbefore c hc)
  · exact hletter c (isLetter_of_spelled hspelled hword c hc)
  · exact hblank c (List.all_eq_true.mp hafter c hc)
  · exact hclose

/-- A marker is taken off the start of a text, in small letters. -/
theorem takeMarker?_eq (h : Marker word text) (hword : word ∈ markerWords) (body : List Char) :
    takeMarker? (text ++ body) = some (word, body) := by
  obtain ⟨hbefore, hspelled, hafter⟩ := h
  have htake := takeMarker?_spelled hword hbefore (spelled_of_map_lowerChar hspelled) hafter body
  rw [flatMap_lowerMarkerChar hspelled (isLetter_of_mem_markerWords word hword)] at htake
  simpa using htake

/-- A marker and blanks in front of a numeral are split off it. -/
theorem splitMarker_eq (h : Marker word text) (hword : word ∈ markerWords) {gap body : List Char}
    (hgap : allBlank gap) (hbody : Solid body) :
    splitMarker (text ++ (gap ++ body)) = (some word, body) := by
  have htrim : trim (gap ++ body) = body := by
    simpa using hbody.trim_eq hgap allBlank_nil
  simp only [splitMarker, h.takeMarker?_eq hword, htrim]

end Marker

/-- A text without a bracket has no marker. -/
theorem splitMarker_of_not_mem {text : List Char} (h : '(' ∉ text) :
    splitMarker text = (none, text) := by
  have hnone : takeMarker? text = none := by
    unfold takeMarker?
    split
    · exact absurd List.mem_cons_self h
    · rfl
  rw [splitMarker, hnone]

/-- A text without a bracket and without letters is not taken for a nested call. -/
theorem isCallFragment_of_not_mem {text : List Char} (h : '(' ∉ text)
    (hletter : ∀ c ∈ text, isLetter c = false) : isCallFragment text = false := by
  cases text with
  | nil => rfl
  | cons c rest => simp [isCallFragment, h, isBareName, hletter c List.mem_cons_self]

/-- A text that begins with a bracket or a quote is not taken for a nested call. -/
theorem isCallFragment_cons {c : Char} (hc : c = '(' ∨ isQuote c) (rest : List Char) :
    isCallFragment (c :: rest) = false := by
  have hletter : isLetter c = false := by
    rcases hc with rfl | hquote
    · decide
    · simp only [isQuote, Bool.or_eq_true, decide_eq_true_eq] at hquote
      rcases hquote with rfl | rfl <;> decide
  have hfirst : (decide (c = '(') || isQuote c) = true := by simpa using hc
  simp [isCallFragment, isBareName, hletter, hfirst]

/-- Ordinary characters with a bracket behind them are taken for a nested call. -/
theorem isCallFragment_append {front rest : List Char} (hne : front ≠ [])
    (h : ∀ c ∈ front, isOrdinary c) (hrest : '(' ∈ rest) : isCallFragment (front ++ rest) := by
  obtain ⟨c, tail, rfl⟩ := List.exists_cons_of_ne_nil hne
  have hordinary := h c List.mem_cons_self
  simp only [isOrdinary, Bool.and_eq_true, Bool.not_eq_true', decide_eq_true_eq] at hordinary
  simp [isCallFragment, hordinary.1.1.1, hordinary.1.1.2, hrest]

namespace Numeral

variable {n : Int} {text : List Char}

/-- A numeral has no bracket. -/
theorem bracket_not_mem (h : Numeral n text) : '(' ∉ text :=
  h.not_mem (by decide) (by decide) (by decide)

/-- A numeral has no marker. -/
theorem splitMarker_eq (h : Numeral n text) : splitMarker text = (none, text) :=
  splitMarker_of_not_mem h.bracket_not_mem

/-- A numeral is not taken for a nested call: it has no bracket and starts with no letter. -/
theorem isCallFragment_eq (h : Numeral n text) : isCallFragment text = false := by
  refine isCallFragment_of_not_mem h.bracket_not_mem ?_
  refine h.forall_chars (fun c hc => ?_) (by decide) (by decide)
  exact isLetter_of_isDigit hc

/-- A numeral has no quotes. -/
theorem any_isQuote (h : Numeral n text) : text.any isQuote = false := by
  simpa using fun c hc => isQuote_of_isOrdinary (h.isOrdinary c hc)

/-- A numeral behind a marker has no quotes. -/
theorem any_isQuote_marked {word marker gap : List Char} (hmarker : Marker word marker)
    (hword : word ∈ markerWords) (hgap : allBlank gap) (h : Numeral n text) :
    (marker ++ (gap ++ text)).any isQuote = false := by
  have hletter (c : Char) (hc : isLetter c) : isQuote c = false :=
    isQuote_of_isOrdinary (isOrdinary_of_isNameChar (isNameChar_of_isLetter hc))
  have hfront : marker.any isQuote = false := by
    simpa using hmarker.forall_chars (by decide) (by decide) (fun _ => isQuote_of_isBlank) hletter
      hword
  have hmiddle : gap.any isQuote = false := by
    simpa using fun c hc => isQuote_of_isBlank (List.all_eq_true.mp hgap c hc)
  simp only [List.any_append, hfront, hmiddle, h.any_isQuote, Bool.or_false]

end Numeral

namespace Literal

/-- The texts that write a literal: a string between two quotes, an int as a numeral with or
without its marker, a long as a numeral behind its marker. -/
inductive WrittenAs : Literal → List Char → Prop
  | string {content : List Char} {quote : Char} (hquote : isQuote quote) :
      WrittenAs (.string (String.ofList content)) (quote :: content ++ [quote])
  | int {n : Int} {text : List Char} (h : Numeral n text) : WrittenAs (.int n) text
  | markedInt {n : Int} {marker gap text : List Char} (hmarker : Marker "int".toList marker)
      (hgap : allBlank gap) (h : Numeral n text) :
      WrittenAs (.int n) (marker ++ (gap ++ text))
  | long {n : Int} {marker gap text : List Char} (hmarker : Marker "long".toList marker)
      (hgap : allBlank gap) (h : Numeral n text) :
      WrittenAs (.long n) (marker ++ (gap ++ text))

/-- The literals that such texts write: strings without quotes, and integers in the range of
their kind. -/
def IsPlain : Literal → Prop
  | string s => ∀ c ∈ s.toList, isQuote c = false
  | int n => intRange.1 ≤ n ∧ n ≤ intRange.2
  | long n => longRange.1 ≤ n ∧ n ≤ longRange.2
  | float _ | double _ => False

instance : (value : Literal) → Decidable value.IsPlain
  | string s => decidable_of_iff (s.toList.all fun c => !isQuote c) (by simp [IsPlain])
  | int n => inferInstanceAs (Decidable (intRange.1 ≤ n ∧ n ≤ intRange.2))
  | long n => inferInstanceAs (Decidable (longRange.1 ≤ n ∧ n ≤ longRange.2))
  | float _ | double _ => isFalse id

/-- A numeral within the range of a kind is read as its integer. -/
theorem readIntegerIn_eq {range : Int × Int} {n : Int} {text : List Char} (h : Numeral n text)
    (hrange : range.1 ≤ n ∧ n ≤ range.2) (kind : ArgumentKind) (source : List Char)
    (position : Int) : readIntegerIn range kind text source position = .ok n := by
  obtain ⟨count, hlimit, hsigned⟩ := h.exists_signedDigits
  obtain ⟨negative, digits, hread, hlength, rfl⟩ := hsigned.readInteger_eq
  simp [readIntegerIn, hread, hlength, Nat.not_lt.mpr hlimit, hrange]

namespace WrittenAs

variable {value : Literal} {text : List Char}

/-- A written literal is solid. -/
theorem solid (h : WrittenAs value text) : Solid text := by
  cases h with
  | string hquote => exact .between (isBlank_of_isQuote hquote) (isBlank_of_isQuote hquote) _
  | int h => exact h.solid
  | @markedInt n marker gap text hmarker hgap h =>
    simpa using hmarker.solid.append gap h.solid
  | @long n marker gap text hmarker hgap h =>
    simpa using hmarker.solid.append gap h.solid

/-- A written literal leaves the scan as it found it. -/
theorem level (h : WrittenAs value text) (hplain : value.IsPlain) (depth : Nat) :
    Fragment.Level depth text := by
  have hmarked {word marker gap text : List Char} {n : Int} (hmarker : Marker word marker)
      (hword : word ∈ markerWords) (hgap : allBlank gap) (h : Numeral n text) :
      Fragment.Level depth (marker ++ (gap ++ text)) :=
    (hmarker.level hword depth).append (.append (.of_allBlank hgap) (.of_all h.isOrdinary))
  cases h with
  | @string content quote hquote =>
    refine .quotation hquote fun hmem => ?_
    have hnot : isQuote quote = false := hplain quote (by simpa using hmem)
    simp [hnot] at hquote
  | int h => exact .of_all h.isOrdinary
  | markedInt hmarker hgap h => exact hmarked hmarker int_mem_markerWords hgap h
  | long hmarker hgap h => exact hmarked hmarker long_mem_markerWords hgap h

/-- A written literal is not taken for a nested call. -/
theorem isCallFragment_eq (h : WrittenAs value text) : isCallFragment text = false := by
  cases h with
  | string hquote => exact isCallFragment_cons (Or.inr hquote) _
  | int h => exact h.isCallFragment_eq
  | markedInt hmarker => cases hmarker; exact isCallFragment_cons (Or.inl rfl) _
  | long hmarker => cases hmarker; exact isCallFragment_cons (Or.inl rfl) _

/-- A written literal is read back. -/
theorem read_eq (h : WrittenAs value text) (hplain : value.IsPlain) (source : List Char)
    (position : Int) : Literal.read text source position = .ok value := by
  cases h with
  | @string content quote hquote =>
    have hcontent : content.filter (fun c => !isQuote c) = content :=
      List.filter_eq_self.mpr fun c hc => by simp [hplain c (by simpa using hc)]
    simp [Literal.read, hquote, hcontent]
  | int h =>
    have hpoint : '.' ∉ text := h.not_mem (by decide) (by decide) (by decide)
    simp [Literal.read, h.any_isQuote, h.splitMarker_eq, hpoint, readIntegerIn_eq h hplain]
  | @markedInt n marker gap numeral hmarker hgap h =>
    have hquote := h.any_isQuote_marked hmarker int_mem_markerWords hgap
    simp [Literal.read, hquote, hmarker.splitMarker_eq int_mem_markerWords hgap h.solid,
      readIntegerIn_eq h hplain]
  | @long n marker gap numeral hmarker hgap h =>
    have hquote := h.any_isQuote_marked hmarker long_mem_markerWords hgap
    simp [Literal.read, hquote, hmarker.splitMarker_eq long_mem_markerWords hgap h.solid,
      readIntegerIn_eq h hplain]

end WrittenAs

end Literal

end DriverPolicy
