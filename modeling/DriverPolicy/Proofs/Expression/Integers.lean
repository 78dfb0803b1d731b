import DriverPolicy.Proofs.Expression.Marker
import DriverPolicy.Proofs.Expression.Outcome

/-!
# The integers among literals

A literal without quotes is an integer if its marker is that of longs or of ints, in any case, or if it
has neither a marker nor a point. What stands behind the marker decides all else. A sign at will and
digits, each of any script, write an integer; more digits than are converted stop the reading, and an
integer out of range is a fault, as is any other text.
-/

namespace DriverPolicy

/-- A marker with a given word, in any case. -/
inductive MarkerOf (word : List Char) : List Char → Prop
  | intro {before spelled after : List Char} (hbefore : allBlank before)
      (hspelled : List.Forall₂ (fun letter c => matchesMarkerLetter letter c) word spelled)
      (hafter : allBlank after) : MarkerOf word ('(' :: (before ++ (spelled ++ (after ++ [')']))))

/-- The kinds of integers. -/
inductive IntegerKind where
  | long
  | int
deriving DecidableEq, Repr

namespace IntegerKind

/-- The word of a kind's marker. -/
def word : IntegerKind → List Char
  | long => "long".toList
  | int => "int".toList

/-- The least and the greatest integer of a kind. -/
def range : IntegerKind → Int × Int
  | long => longRange
  | int => intRange

/-- A kind of integers as a kind of arguments. -/
def argumentKind : IntegerKind → ArgumentKind
  | long => .long
  | int => .int

/-- An integer of a kind as a literal. -/
def literal : IntegerKind → Int → Literal
  | long => .long
  | int => .int

/-- The word of a kind's marker is one of the words of markers. -/
theorem word_mem_markerWords : ∀ kind : IntegerKind, kind.word ∈ markerWords
  | long => long_mem_markerWords
  | int => int_mem_markerWords

end IntegerKind

/-- An argument that is an integer of a kind if its body is one: the body is what stands behind a marker
of the kind, without blanks around it; or the argument is its own body, has no point, starts with no
marker, and the kind is int. -/
inductive IntegerForm (text : List Char) : IntegerKind → List Char → Prop
  | marked {kind : IntegerKind} {marker rest : List Char} (hmarker : MarkerOf kind.word marker)
      (htext : marker ++ rest = text) : IntegerForm text kind (trim rest)
  | unmarked (hnone : ∀ marker rest, IsMarker marker → marker ++ rest ≠ text) (hpoint : '.' ∉ text) :
      IntegerForm text .int text

/-- A marker is split off with its word in small letters, which is no other of the words; a word without an
i has no other small form. -/
theorem MarkerOf.splitMarker_eq {word marker : List Char} (hword : word ∈ markerWords)
    (h : MarkerOf word marker) (rest : List Char) :
    ∃ small, splitMarker (marker ++ rest) = (some small, trim rest) ∧
      (∀ other ∈ markerWords, other ≠ word → small ≠ other) ∧ ('i' ∉ word → small = word) := by
  obtain ⟨hbefore, hspelled, hafter⟩ := h
  have htake := takeMarker?_spelled hword hbefore hspelled hafter rest
  refine ⟨_, ?_, fun other hother hne => flatMap_lowerMarkerChar_ne hword hother hne hspelled,
    flatMap_lowerMarkerChar_spelled hspelled (isLetter_of_mem_markerWords _ hword)⟩
  simp [splitMarker, htake]

/-- Nothing is split off an argument that starts with no marker. -/
theorem splitMarker_of_unmarked {text : List Char}
    (hnone : ∀ marker rest, IsMarker marker → marker ++ rest ≠ text) :
    splitMarker text = (none, text) := by
  have htake : takeMarker? text = none := Option.eq_none_iff_forall_ne_some.mpr
    fun (_, rest) htake => by
      obtain ⟨marker, hmarker, htext⟩ := exists_of_takeMarker? htake
      exact hnone marker rest hmarker htext
  rw [splitMarker, htake]

namespace IntegerForm

variable {kind : IntegerKind} {text body : List Char}

/-- The body is what is left when a marker is split off, and the marker is that of longs if and only if
the kind is long. It is that of no other kind of numbers, and without one there is no point. -/
theorem splitMarker_eq (h : IntegerForm text kind body) : (splitMarker text).2 = body ∧
    ((splitMarker text).1 = some "long".toList ↔ kind = .long) ∧
    (splitMarker text).1 ≠ some "double".toList ∧
    ¬((splitMarker text).1 = some "float".toList ∨
      (splitMarker text).1 = none ∧ (splitMarker text).2.contains '.') := by
  cases h with
  | @marked kind marker rest hmarker htext =>
    obtain ⟨word, hsplit, hother, hsmall⟩ := hmarker.splitMarker_eq kind.word_mem_markerWords rest
    have hlong (hkind : kind = .long) : word = "long".toList := by
      subst hkind
      exact hsmall (by decide)
    have hword {other : List Char} (hmem : other ∈ markerWords) (hne : other ≠ kind.word) :
        some word ≠ some other := fun heq => hother other hmem hne (Option.some.inj heq)
    rw [← htext, hsplit]
    refine ⟨rfl, ⟨fun heq => ?_, fun hkind => congrArg some (hlong hkind)⟩, ?_, ?_⟩
    · cases kind with
      | long => rfl
      | int => exact absurd heq (hword long_mem_markerWords (by decide))
    · exact hword (by decide) (by cases kind <;> decide)
    · rintro (heq | ⟨heq, -⟩)
      · exact hword (by decide) (by cases kind <;> decide) heq
      · contradiction
  | unmarked hnone hpoint =>
    simp [splitMarker_of_unmarked hnone, hpoint]

/-- An argument is an integer of one kind and with one body at most. -/
theorem unique {kind' : IntegerKind} {body' : List Char} (h : IntegerForm text kind body)
    (h' : IntegerForm text kind' body') : kind' = kind ∧ body' = body := by
  obtain ⟨hbody, hlong, -⟩ := h.splitMarker_eq
  obtain ⟨hbody', hlong', -⟩ := h'.splitMarker_eq
  have hkinds : kind' = .long ↔ kind = .long := hlong'.symm.trans hlong
  refine ⟨?_, hbody'.symm.trans hbody⟩
  cases kind with
  | long => exact hkinds.mpr rfl
  | int =>
    cases kind' with
    | long => exact absurd (hkinds.mp rfl) (by decide)
    | int => rfl

/-- An integer argument is read by its kind and its body. -/
theorem read_eq (h : IntegerForm text kind body) (hunquoted : text.any isQuote = false)
    (source : List Char) (position : Int) : Literal.read text source position =
      (Literal.readIntegerIn kind.range kind.argumentKind body source position).map kind.literal := by
  obtain ⟨hbody, hlong, hdouble, hfloat⟩ := h.splitMarker_eq
  rw [Literal.read_eq_ite, hunquoted, if_neg Bool.false_ne_true, if_neg hdouble, if_neg hfloat, hbody]
  cases kind with
  | long => rw [if_pos (hlong.mpr rfl)]; rfl
  | int => rw [if_neg fun hmarker => nomatch hlong.mp hmarker]; rfl

end IntegerForm

namespace Literal

/-- What reading a body as an integer of a kind comes to. -/
inductive ComesToInteger (kind : IntegerKind) (body source : List Char) (position : Int) :
    Except ReadingFault Literal → Prop
  | value {n : Int} {count : Nat} (h : SignedDigits n count body) (hcount : count ≤ integerDigitLimit)
      (hrange : kind.range.1 ≤ n ∧ n ≤ kind.range.2) :
      ComesToInteger kind body source position (.ok (kind.literal n))
  | overlong {n : Int} {count : Nat} (h : SignedDigits n count body)
      (hcount : integerDigitLimit < count) :
      ComesToInteger kind body source position (.error (.tooManyDigits count))
  | outside {n : Int} {count : Nat} (h : SignedDigits n count body) (hcount : count ≤ integerDigitLimit)
      (hrange : ¬(kind.range.1 ≤ n ∧ n ≤ kind.range.2)) :
      ComesToInteger kind body source position (badNumber body kind.argumentKind source position)
  | noInteger (h : ∀ n count, ¬SignedDigits n count body) :
      ComesToInteger kind body source position (badNumber body kind.argumentKind source position)

variable {kind : IntegerKind} {text body source : List Char} {position : Int}

/-- A body is read as nothing else than what it comes to. -/
theorem ComesToInteger.readIntegerIn_eq {outcome : Except ReadingFault Literal}
    (h : ComesToInteger kind body source position outcome) :
    (readIntegerIn kind.range kind.argumentKind body source position).map kind.literal = outcome := by
  have hread {n : Int} {count : Nat} (h : SignedDigits n count body) :
      readIntegerIn kind.range kind.argumentKind body source position =
        if integerDigitLimit < count then .error (.tooManyDigits count)
        else if kind.range.1 ≤ n ∧ n ≤ kind.range.2 then .ok n
        else badNumber body kind.argumentKind source position := by
    obtain ⟨negative, digits, hdigits, rfl, rfl⟩ := h.readInteger_eq
    simp [readIntegerIn, hdigits]
  cases h with
  | value h hcount hrange => rw [hread h, if_neg (Nat.not_lt.mpr hcount), if_pos hrange]; rfl
  | overlong h hcount => rw [hread h, if_pos hcount]; rfl
  | outside h hcount hrange => rw [hread h, if_neg (Nat.not_lt.mpr hcount), if_neg hrange]; rfl
  | noInteger h =>
    have hnone : readInteger body = none := Option.eq_none_iff_forall_ne_some.mpr
      fun _ hdigits => h _ _ (.of_readInteger hdigits)
    simp only [readIntegerIn, hnone]
    rfl

/-- A body comes to something, whatever it is. -/
theorem exists_comesToInteger (kind : IntegerKind) (body source : List Char) (position : Int) :
    ∃ outcome, ComesToInteger kind body source position outcome := by
  by_cases hdigits : ∃ n count, SignedDigits n count body
  · obtain ⟨n, count, h⟩ := hdigits
    by_cases hcount : integerDigitLimit < count
    · exact ⟨_, .overlong h hcount⟩
    by_cases hrange : kind.range.1 ≤ n ∧ n ≤ kind.range.2
    · exact ⟨_, .value h (Nat.not_lt.mp hcount) hrange⟩
    · exact ⟨_, .outside h (Nat.not_lt.mp hcount) hrange⟩
  · exact ⟨_, .noInteger fun n count h => hdigits ⟨n, count, h⟩⟩

/-- An argument without quotes that has the form of an integer has it for one kind and one body, and is
read as what the body comes to as an integer of the kind, and as nothing else. -/
theorem read_eq_iff_comesToInteger (hunquoted : text.any isQuote = false)
    (hform : IntegerForm text kind body) (source : List Char) (position : Int) :
    (∀ outcome, read text source position = outcome ↔
      ComesToInteger kind body source position outcome) ∧
    ∀ kind' body', IntegerForm text kind' body' → kind' = kind ∧ body' = body := by
  refine ⟨fun outcome => ?_, fun kind' body' => hform.unique⟩
  rw [hform.read_eq hunquoted]
  obtain ⟨actual, hactual⟩ := exists_comesToInteger kind body source position
  constructor
  · rintro rfl
    rw [hactual.readIntegerIn_eq]
    exact hactual
  · exact ComesToInteger.readIntegerIn_eq

/-- A capital i with its dot spells the marker of ints, and digits of two scripts write one integer. -/
theorem read_dotted_int :
    "(\u0130NT) -\u0661\uff12".toList.any isQuote = false ∧
    IntegerForm "(\u0130NT) -\u0661\uff12".toList .int "-\u0661\uff12".toList ∧
    read "(\u0130NT) -\u0661\uff12".toList [] 0 = .ok (.int (-12)) := by
  have hunquoted : "(\u0130NT) -\u0661\uff12".toList.any isQuote = false := by decide
  have hmarker : MarkerOf IntegerKind.int.word "(\u0130NT)".toList :=
    .intro allBlank_nil (.cons rfl (.cons rfl (.cons rfl .nil))) allBlank_nil
  have htrim : trim " -\u0661\uff12".toList = "-\u0661\uff12".toList := by decide
  have hform : IntegerForm "(\u0130NT) -\u0661\uff12".toList .int "-\u0661\uff12".toList := by
    rw [← htrim]
    exact .marked hmarker rfl
  have hone : WrittenDigits ['\u0661'] 1 := .single rfl
  have htwelve : WrittenDigits (['\u0661'] ++ ['\uff12']) (10 * 1 + 2) := hone.snoc rfl
  have hbody : SignedDigits (-12) 2 "-\u0661\uff12".toList := .minus htwelve
  exact ⟨hunquoted, hform, ((read_eq_iff_comesToInteger hunquoted hform [] 0).1 _).mpr
    (.value hbody (by decide) (by decide))⟩

end Literal

end DriverPolicy
