import DriverPolicy.Proofs.Expression.Integers
import DriverPolicy.Proofs.Number.Numeral
import DriverPolicy.Proofs.Number.Single

/-!
# The numbers with a point among literals

An argument without quotes that is no nested call is a double or a float if its marker says so, and a float
too if it has a point and no marker. What stands behind the marker must be a decimal numeral; its number is
rounded to 64 bits. A double is accepted if this value is finite, a float if it is within the range of 32
bits, to which it is rounded again. All else is a fault that names the body and the kind.
-/

namespace DriverPolicy

/-- The kinds of numbers with a point. -/
inductive RealKind where
  | double
  | float
deriving DecidableEq, Repr

namespace RealKind

/-- The word of a kind's marker. -/
def word : RealKind → List Char
  | double => "double".toList
  | float => "float".toList

/-- A kind of numbers with a point as a kind of arguments. -/
def argumentKind : RealKind → ArgumentKind
  | double => .double
  | float => .float

/-- Whether a kind accepts a value of 64 bits: it is finite, and a float is within the range of 32 bits. -/
def Accepts : RealKind → Binary → Prop
  | double, x => x.isFinite
  | float, x => x.isFinite ∧ |x.toRat| ≤ largestSingle

/-- The word of a kind's marker is one of the words of markers. -/
theorem word_mem_markerWords : ∀ kind : RealKind, kind.word ∈ markerWords
  | double => by decide
  | float => by decide

/-- The word of a kind's marker has no i. -/
theorem not_mem_word : ∀ kind : RealKind, 'i' ∉ kind.word
  | double => by decide
  | float => by decide

end RealKind

/-- An argument that is a number of a kind if its body is one: the body is what stands behind a marker of
the kind, without blanks around it; or the argument is its own body, has a point, starts with no marker,
and the kind is float. -/
inductive RealForm (text : List Char) : RealKind → List Char → Prop
  | marked {kind : RealKind} {marker rest : List Char} (hmarker : MarkerOf kind.word marker)
      (htext : marker ++ rest = text) : RealForm text kind (trim rest)
  | unmarked (hnone : ∀ marker rest, IsMarker marker → marker ++ rest ≠ text) (hpoint : '.' ∈ text) :
      RealForm text .float text

/-- Reading a body as a number of a kind. -/
def Literal.readReal (kind : RealKind) (body source : List Char) (position : Int) :
    Except ReadingFault Literal :=
  match kind with
  | .double => (readDouble body source position).map .double
  | .float => (readFloat body source position).map .float

namespace RealForm

variable {kind : RealKind} {text body : List Char}

/-- The body is what is left when a marker is split off, and the marker is that of doubles if and only if
the kind is double; a float has its own marker, or none and a point. -/
theorem splitMarker_eq (h : RealForm text kind body) : (splitMarker text).2 = body ∧
    ((splitMarker text).1 = some "double".toList ↔ kind = .double) ∧
    (kind = .float → (splitMarker text).1 = some "float".toList ∨
      (splitMarker text).1 = none ∧ (splitMarker text).2.contains '.') := by
  cases h with
  | @marked kind marker rest hmarker htext =>
    obtain ⟨small, hsplit, -, hword⟩ := hmarker.splitMarker_eq kind.word_mem_markerWords rest
    obtain rfl := hword kind.not_mem_word
    rw [← htext, hsplit]
    refine ⟨rfl, ?_, ?_⟩
    · change some kind.word = some "double".toList ↔ kind = .double
      cases kind <;> decide
    · rintro rfl
      exact Or.inl rfl
  | unmarked hnone hpoint => simp [splitMarker_of_unmarked hnone, hpoint]

/-- An argument is a number of one kind and with one body at most. -/
theorem unique {kind' : RealKind} {body' : List Char} (h : RealForm text kind body)
    (h' : RealForm text kind' body') : kind' = kind ∧ body' = body := by
  obtain ⟨hbody, hdouble, -⟩ := h.splitMarker_eq
  obtain ⟨hbody', hdouble', -⟩ := h'.splitMarker_eq
  have hkinds : kind' = .double ↔ kind = .double := hdouble'.symm.trans hdouble
  refine ⟨?_, hbody'.symm.trans hbody⟩
  cases kind with
  | double => exact hkinds.mpr rfl
  | float =>
    cases kind' with
    | double => exact absurd (hkinds.mp rfl) (by decide)
    | float => rfl

/-- A number with a point is read by its kind and its body. -/
theorem read_eq (h : RealForm text kind body)
    (hunquoted : text.any isQuote = false) (source : List Char) (position : Int) :
    Literal.read text source position = Literal.readReal kind body source position := by
  obtain ⟨hbody, hdouble, hfloat⟩ := h.splitMarker_eq
  rw [Literal.read_eq_ite, hunquoted, if_neg Bool.false_ne_true, hbody]
  cases kind with
  | double => rw [if_pos (hdouble.mpr rfl)]; rfl
  | float =>
    have hnot : (splitMarker text).1 ≠ some "double".toList := fun hmarker => nomatch hdouble.mp hmarker
    have hpoint := hfloat rfl
    rw [hbody] at hpoint
    rw [if_neg hnot, if_pos hpoint]
    rfl

end RealForm

namespace Literal

/-- What reading a body as a number of a kind comes to. -/
inductive ComesToReal (body source : List Char) (position : Int) :
    RealKind → Except ReadingFault Argument → Prop
  | double {negative : Bool} {q : ℚ} {x : Binary} (htext : DecimalText body negative q)
      (hnearest : binary64.Nearest negative (withSign negative q) x) (hrange : RealKind.double.Accepts x) :
      ComesToReal body source position .double (.ok (.literal (.double x)))
  | float {negative : Bool} {q : ℚ} {x y : Binary} (htext : DecimalText body negative q)
      (hnearest : binary64.Nearest negative (withSign negative q) x) (hrange : RealKind.float.Accepts x)
      (hsingle : NearestSingle negative x.toRat y) :
      ComesToReal body source position .float (.ok (.literal (.float y)))
  | outside {kind : RealKind} {negative : Bool} {q : ℚ} {x : Binary} (htext : DecimalText body negative q)
      (hnearest : binary64.Nearest negative (withSign negative q) x) (hrange : ¬kind.Accepts x) :
      ComesToReal body source position kind (badNumber body kind.argumentKind source position)
  | noNumeral {kind : RealKind} (h : ∀ negative q, ¬DecimalText body negative q) :
      ComesToReal body source position kind (badNumber body kind.argumentKind source position)

variable {kind : RealKind} {text body source : List Char} {position : Int}

/-- A value within the range of floats is rounded to the nearest value of 32 bits, with its sign. -/
theorem nearestSingle_of_accepts {negative : Bool} {q : ℚ} {x : Binary}
    (hnearest : binary64.Nearest negative q x) (h : RealKind.float.Accepts x) :
    NearestSingle negative x.toRat x.toSingle := by
  cases hnearest with
  | finite => exact Binary.nearestSingle_toSingle (Binary.fitsSingle_iff.mpr h)
  | infinite => exact absurd h.1 Bool.false_ne_true

/-- A numeral is read as its nearest value of 64 bits. -/
theorem map_toBinary_eq {negative : Bool} {q : ℚ} {x : Binary} (htext : DecimalText body negative q)
    (hnearest : binary64.Nearest negative (withSign negative q) x) :
    (Decimal.read body).map Decimal.toBinary = some x := by
  obtain ⟨y, hread, hy⟩ := Decimal.exists_nearest htext
  rw [hread, hnearest.unique (by decide) hy]

/-- A body is read as nothing else than what it comes to. -/
theorem ComesToReal.readReal_eq {outcome : Except ReadingFault Argument}
    (h : ComesToReal body source position kind outcome) :
    (readReal kind body source position).map .literal = outcome := by
  cases h with
  | @double negative q x htext hnearest hrange =>
    have hfinite : x.isFinite := hrange
    simp only [readReal, readDouble, map_toBinary_eq htext hnearest, hfinite]
    rfl
  | @float negative q x y htext hnearest hrange hsingle =>
    have hfits := Binary.fitsSingle_iff.mpr hrange
    obtain rfl := hsingle.unique (nearestSingle_of_accepts hnearest hrange)
    simp only [readReal, readFloat, map_toBinary_eq htext hnearest, hfits]
    rfl
  | @outside kind negative q x htext hnearest hrange =>
    cases kind with
    | double =>
      have hinfinite : ¬x.isFinite := hrange
      simp only [readReal, readDouble, map_toBinary_eq htext hnearest, hinfinite]
      rfl
    | float =>
      have hfits : ¬x.fitsSingle := Binary.fitsSingle_iff.not.mpr hrange
      simp only [readReal, readFloat, map_toBinary_eq htext hnearest, hfits]
      rfl
  | noNumeral h =>
    have hnone : Decimal.read body = none := Option.eq_none_iff_forall_ne_some.mpr
      fun x hread => h _ _ (Decimal.text_of_read hread)
    cases kind with
    | double => simp only [readReal, readDouble, hnone]; rfl
    | float => simp only [readReal, readFloat, hnone]; rfl

/-- A body comes to something, whatever it is. -/
theorem exists_comesToReal (kind : RealKind) (body source : List Char) (position : Int) :
    ∃ outcome, ComesToReal body source position kind outcome := by
  by_cases htext : ∃ negative q, DecimalText body negative q
  · obtain ⟨negative, q, htext⟩ := htext
    obtain ⟨x, -, hnearest⟩ := Decimal.exists_nearest htext
    by_cases hrange : kind.Accepts x
    · cases kind with
      | double => exact ⟨_, .double htext hnearest hrange⟩
      | float => exact ⟨_, .float htext hnearest hrange (nearestSingle_of_accepts hnearest hrange)⟩
    · exact ⟨_, .outside htext hnearest hrange⟩
  · exact ⟨_, .noNumeral fun negative q h => htext ⟨negative, q, h⟩⟩

/-- An argument that is no nested call, has no quotes and has the form of a number with a point has it for
one kind and one body, and is read as what the body comes to as a number of the kind, and as nothing else. -/
theorem readWith_eq_iff_comesToReal (hcall : isCallFragment text = false)
    (hunquoted : text.any isQuote = false) (hform : RealForm text kind body)
    (readCall : List Char → Int → Except ReadingFault Call) (source : List Char) (position : Int) :
    (∀ outcome, Argument.readWith readCall text source position = outcome ↔
      ComesToReal body source position kind outcome) ∧
    ∀ kind' body', RealForm text kind' body' → kind' = kind ∧ body' = body := by
  refine ⟨fun outcome => ?_, fun kind' body' => hform.unique⟩
  rw [Argument.readWith, hcall, if_neg Bool.false_ne_true, hform.read_eq hunquoted]
  obtain ⟨actual, hactual⟩ := exists_comesToReal kind body source position
  constructor
  · rintro rfl
    rw [hactual.readReal_eq]
    exact hactual
  · exact ComesToReal.readReal_eq

/-- The float of an integer that needs a bit more than there are in 32 bits is the even one beside it. -/
theorem readWith_marked_float :
    isCallFragment "(FLOAT) 16777217".toList = false ∧ "(FLOAT) 16777217".toList.any isQuote = false ∧
    RealForm "(FLOAT) 16777217".toList .float "16777217".toList ∧
    Argument.readWith (Call.meaning []) "(FLOAT) 16777217".toList [] 0 =
      .ok (.literal (.float (.finite false (2 ^ 52) 1046))) := by
  have hcall : isCallFragment "(FLOAT) 16777217".toList = false := by decide
  have hunquoted : "(FLOAT) 16777217".toList.any isQuote = false := by decide
  have hmarker : MarkerOf RealKind.float.word "(FLOAT)".toList :=
    .intro allBlank_nil (.cons rfl (.cons rfl (.cons rfl (.cons rfl (.cons rfl .nil))))) allBlank_nil
  have htrim : trim " 16777217".toList = "16777217".toList := by decide
  have hform : RealForm "(FLOAT) 16777217".toList .float "16777217".toList := by
    rw [← htrim]
    exact .marked hmarker rfl
  have htext := @Decimal.text_of_read "16777217".toList ⟨false, "16777217".toList, 0, 0⟩ rfl
  have hdigits : ∀ c ∈ "16777217".toList, isDigit c := List.all_eq_true.mp (by decide)
  have hnearest := @Decimal.nearest_toBinary ⟨false, "16777217".toList, 0, 0⟩ hdigits
  have hvalue : Decimal.toBinary ⟨false, "16777217".toList, 0, 0⟩ = .finite false 4503599895805952 1046 := by
    decide +kernel
  rw [hvalue] at hnearest
  have hrange : RealKind.float.Accepts (.finite false 4503599895805952 1046) :=
    Binary.fitsSingle_iff.mp (by decide +kernel)
  have hsingle : (Binary.finite false 4503599895805952 1046).toSingle = .finite false (2 ^ 52) 1046 := by
    decide +kernel
  refine ⟨hcall, hunquoted, hform,
    ((readWith_eq_iff_comesToReal hcall hunquoted hform (Call.meaning []) [] 0).1 _).mpr ?_⟩
  rw [← hsingle]
  exact .float htext hnearest hrange (nearestSingle_of_accepts hnearest hrange)

end Literal

end DriverPolicy
