import DriverPolicy.Proofs.Expression.Descent
import DriverPolicy.Proofs.Expression.Pieces
import DriverPolicy.Proofs.Expression.Spelling
import DriverPolicy.Proofs.Number.Single

/-!
# What reading an expression comes to

Reading an expression gives a tree or names a fault of the text: of its shape, or of a number in
it. There is one exception. An integer numeral with more digits than are converted is not weighed
against the range of its kind, and the refusal to convert it is the outcome of the whole reading,
if everything before it could be read.

The trees are sound: no call is without a name, and every number with a point is finite, because
rounding to 32 bits stays within the range that was checked.
-/

namespace DriverPolicy

/-- Whether a fault is one of the text: of its shape, or of a number in it. -/
def ReadingFault.IsOfText : ReadingFault → Prop
  | .expression ⟨.malformed _, _, _⟩ => True
  | .expression ⟨.number .., _, _⟩ => True
  | _ => False

/-- Where there is no outer shape of a call the text is at fault. -/
theorem Head.isOfText_of_read {text source : List Char} {offset : Int} {fault : ReadingFault}
    (h : read text source offset = .error fault) : fault.IsOfText := by
  rcases read_cases text source offset with ⟨head, hread, -⟩ | ⟨-, hread⟩ | ⟨-, hread⟩
  · exact absurd (hread.symm.trans h) (by simp)
  · exact Except.error.inj (hread.symm.trans h) ▸ trivial
  · exact Except.error.inj (hread.symm.trans h) ▸ trivial

/-- An outer shape has a name. -/
theorem Head.name_ne_nil {text source : List Char} {offset : Int} {head : Head}
    (h : read text source offset = .ok head) : head.name ≠ [] := by
  cases read_eq_ok_iff.mp h with
  | bare _ hname => exact hname.nonempty
  | bracketed _ hname => exact hname.nonempty

/-- Where arguments cannot be split the text is at fault. -/
theorem Fragment.isOfText_of_split {arguments source : List Char} {offset : Int}
    {fault : ReadingFault} (h : split arguments source offset = .error fault) : fault.IsOfText := by
  by_cases hblank : allBlank arguments
  · rw [split, if_pos hblank] at h
    contradiction
  · have houtcome := cutOutcome_split source offset hblank
    rw [h] at houtcome
    obtain ⟨what, position, -, rfl⟩ := houtcome
    trivial

namespace Literal

/-- Whether a literal is a value of its kind: numbers with a point are finite, and integers in
the range of their kind. -/
def IsSound : Literal → Prop
  | string _ => True
  | float x | double x => x.isFinite
  | long n => longRange.1 ≤ n ∧ n ≤ longRange.2
  | int n => intRange.1 ≤ n ∧ n ≤ intRange.2

/-- An argument is an integer with too many digits: it has no quotes and no marker of a number
with a point, and its body is a sign at will and `count` digits, more than are converted. -/
structure Overlong (text : List Char) (count : Nat) : Prop where
  unquoted : text.any isQuote = false
  not_double : (splitMarker text).1 ≠ some "double".toList
  not_float : (splitMarker text).1 ≠ some "float".toList
  digits : ∃ negative digits,
    readInteger (splitMarker text).2 = some (negative, digits) ∧ digits.length = count
  limit : integerDigitLimit < count

variable {text source : List Char} {position : Int}

/-- An integer numeral has no point. -/
theorem not_mem_of_readInteger {body digits : List Char} {negative : Bool}
    (h : readInteger body = some (negative, digits)) : body.contains '.' = false := by
  refine Bool.eq_false_iff.mpr fun hmem => ?_
  rcases (SignedDigits.of_readInteger h).chars '.' (List.contains_iff_mem.mp hmem) with hc | hc | hc <;>
    exact absurd hc (by decide)

/-- Reading a literal by cases of its quotes and its marker. -/
theorem read_eq_ite (text source : List Char) (position : Int) : read text source position =
    if text.any isQuote then .ok (.string (String.ofList (text.filter fun c => !isQuote c)))
    else if (splitMarker text).1 = some "double".toList then
      (readDouble (splitMarker text).2 source position).map double
    else if (splitMarker text).1 = some "float".toList ∨
        (splitMarker text).1 = none ∧ (splitMarker text).2.contains '.' then
      (readFloat (splitMarker text).2 source position).map float
    else if (splitMarker text).1 = some "long".toList then
      (readIntegerIn longRange .long (splitMarker text).2 source position).map long
    else (readIntegerIn intRange .int (splitMarker text).2 source position).map int := by
  unfold read
  simp only [Bool.or_eq_true, Bool.and_eq_true, decide_eq_true_eq]
  rfl

/-- An integer with too many digits is not converted. -/
theorem Overlong.read_eq {count : Nat} (h : Overlong text count) (source : List Char)
    (position : Int) : read text source position = .error (.tooManyDigits count) := by
  obtain ⟨hunquoted, hdouble, hfloat, ⟨negative, digits, hdigits, rfl⟩, hlimit⟩ := h
  have hpoint := not_mem_of_readInteger hdigits
  have hrefused (range : Int × Int) (kind : ArgumentKind) :
      readIntegerIn range kind (splitMarker text).2 source position =
        .error (.tooManyDigits digits.length) := by
    simp only [readIntegerIn, hdigits, hlimit, ↓reduceIte]
  have hwithout : ¬((splitMarker text).1 = some "float".toList ∨
      (splitMarker text).1 = none ∧ (splitMarker text).2.contains '.') := by
    rintro (hmarker | ⟨-, hmem⟩)
    · exact hfloat hmarker
    · rw [hpoint] at hmem
      contradiction
  rw [read_eq_ite, if_neg (Bool.not_eq_true _ ▸ hunquoted), if_neg hdouble, if_neg hwithout]
  simp only [hrefused]
  split <;> rfl

/-- Digits alone are an integer with too many digits if there are more than are converted. -/
theorem Overlong.of_digits (h : ∀ c ∈ text, isDigit c)
    (hlimit : integerDigitLimit < text.length) : Overlong text text.length := by
  have hbracket : '(' ∉ text := fun hmem => absurd (h '(' hmem) (by decide)
  have hne : text ≠ [] := by
    rintro rfl
    simp at hlimit
  have hmarker := splitMarker_of_not_mem hbracket
  have hunquoted : text.any isQuote = false := by
    simpa using fun c hc => isQuote_of_isOrdinary (isOrdinary_of_isDigit (h c hc))
  have hdigits : readInteger text = some (false, text) := by
    simpa [readInteger, splitSign_of_isDigit h, hne] using h
  exact ⟨hunquoted, by simp [hmarker], by simp [hmarker], ⟨false, text, by rw [hmarker, hdigits],
    rfl⟩, hlimit⟩

/-- What reading a number of 64 bits comes to. -/
theorem readDouble_cases (body source : List Char) (position : Int) :
    (∃ x, readDouble body source position = .ok x ∧ x.isFinite) ∨
      readDouble body source position = badNumber body .double source position := by
  unfold readDouble
  split
  · split
    · next hfinite => exact Or.inl ⟨_, rfl, hfinite⟩
    · exact Or.inr rfl
  · exact Or.inr rfl

/-- What reading a number of 32 bits comes to. -/
theorem readFloat_cases (body source : List Char) (position : Int) :
    (∃ x, readFloat body source position = .ok x ∧ x.isFinite) ∨
      readFloat body source position = badNumber body .float source position := by
  unfold readFloat
  split
  · split
    · next hfits => exact Or.inl ⟨_, rfl, Binary.isFinite_toSingle hfits⟩
    · exact Or.inr rfl
  · exact Or.inr rfl

/-- What reading an integer comes to. -/
theorem readIntegerIn_cases (range : Int × Int) (kind : ArgumentKind) (body source : List Char)
    (position : Int) :
    (∃ n, readIntegerIn range kind body source position = .ok n ∧ range.1 ≤ n ∧ n ≤ range.2) ∨
      readIntegerIn range kind body source position = badNumber body kind source position ∨
      ∃ negative digits, readInteger body = some (negative, digits) ∧
        integerDigitLimit < digits.length ∧
        readIntegerIn range kind body source position = .error (.tooManyDigits digits.length) := by
  unfold readIntegerIn
  split
  · exact Or.inr (Or.inl rfl)
  · next negative digits hdigits =>
    split
    · next hlimit => exact Or.inr (Or.inr ⟨negative, digits, hdigits, hlimit, rfl⟩)
    · dsimp only
      split
      · next hrange => exact Or.inl ⟨_, rfl, by simpa using hrange⟩
      · exact Or.inr (Or.inl rfl)

/-- What a literal comes to that is read as an integer. -/
theorem read_cases_of_integer {range : Int × Int} {kind : ArgumentKind} {ofInt : Int → Literal}
    (hunquoted : text.any isQuote = false) (hdouble : (splitMarker text).1 ≠ some "double".toList)
    (hfloat : (splitMarker text).1 ≠ some "float".toList)
    (hsound : ∀ n, range.1 ≤ n ∧ n ≤ range.2 → (ofInt n).IsSound)
    (hread : read text source position =
      (readIntegerIn range kind (splitMarker text).2 source position).map ofInt) :
    (∃ value, read text source position = .ok value ∧ value.IsSound) ∨
      (∃ kind, read text source position = badNumber (splitMarker text).2 kind source position) ∨
      ∃ count, Overlong text count := by
  rcases readIntegerIn_cases range kind (splitMarker text).2 source position with
    ⟨n, hn, hrange⟩ | hn | ⟨negative, digits, hdigits, hlimit, -⟩
  · exact Or.inl ⟨ofInt n, by rw [hread, hn]; rfl, hsound n hrange⟩
  · exact Or.inr (Or.inl ⟨kind, by rw [hread, hn]; rfl⟩)
  · exact Or.inr (Or.inr ⟨digits.length, hunquoted, hdouble, hfloat,
      ⟨negative, digits, hdigits, rfl⟩, hlimit⟩)

/-- Reading a literal gives a sound value or faults what stands behind its marker, unless it is an
integer with too many digits. -/
theorem read_cases (text source : List Char) (position : Int) :
    (∃ value, read text source position = .ok value ∧ value.IsSound) ∨
      (∃ kind, read text source position = badNumber (splitMarker text).2 kind source position) ∨
      ∃ count, Overlong text count := by
  have hread := read_eq_ite text source position
  by_cases hquoted : text.any isQuote
  · exact Or.inl ⟨_, by rw [hread, if_pos hquoted], by trivial⟩
  rw [if_neg hquoted] at hread
  have hunquoted : text.any isQuote = false := Bool.not_eq_true _ ▸ hquoted
  by_cases hdouble : (splitMarker text).1 = some "double".toList
  · rw [if_pos hdouble] at hread
    rcases readDouble_cases (splitMarker text).2 source position with ⟨x, hx, hfinite⟩ | hx
    · exact Or.inl ⟨.double x, by rw [hread, hx]; rfl, hfinite⟩
    · exact Or.inr (Or.inl ⟨.double, by rw [hread, hx]; rfl⟩)
  rw [if_neg hdouble] at hread
  by_cases hfloat : (splitMarker text).1 = some "float".toList ∨
      (splitMarker text).1 = none ∧ (splitMarker text).2.contains '.'
  · rw [if_pos hfloat] at hread
    rcases readFloat_cases (splitMarker text).2 source position with ⟨x, hx, hfinite⟩ | hx
    · exact Or.inl ⟨.float x, by rw [hread, hx]; rfl, hfinite⟩
    · exact Or.inr (Or.inl ⟨.float, by rw [hread, hx]; rfl⟩)
  rw [if_neg hfloat] at hread
  have hnot_float : (splitMarker text).1 ≠ some "float".toList := fun h => hfloat (Or.inl h)
  by_cases hlong : (splitMarker text).1 = some "long".toList
  · rw [if_pos hlong] at hread
    have hsound (n : Int) (h : longRange.1 ≤ n ∧ n ≤ longRange.2) : (long n).IsSound := h
    exact read_cases_of_integer hunquoted hdouble hnot_float hsound hread
  · rw [if_neg hlong] at hread
    have hsound (n : Int) (h : intRange.1 ≤ n ∧ n ≤ intRange.2) : (int n).IsSound := h
    exact read_cases_of_integer hunquoted hdouble hnot_float hsound hread

end Literal

mutual

/-- Whether an argument is sound: its literals are, and no call in it is without a name. -/
def Argument.IsSound : Argument → Prop
  | .literal value => value.IsSound
  | .call name arguments => name ≠ "" ∧ Argument.AllSound arguments

/-- Whether all arguments are sound. -/
def Argument.AllSound : List Argument → Prop
  | [] => True
  | argument :: rest => argument.IsSound ∧ Argument.AllSound rest

end

/-- All arguments are sound if each of them is. -/
theorem Argument.allSound_of_forall {arguments : List Argument}
    (h : ∀ argument ∈ arguments, argument.IsSound) : Argument.AllSound arguments := by
  induction arguments with
  | nil => exact trivial
  | cons argument rest ih =>
    exact ⟨h argument List.mem_cons_self, ih fun a ha => h a (List.mem_cons_of_mem _ ha)⟩

namespace Call

/-- Whether a call tree is sound. -/
def IsSound (call : Call) : Prop := call.toArgument.IsSound

/-- Reading the call that `text` shows comes to one of its arguments: everything before that
argument can be read. -/
structure Reaches (source text : List Char) (offset : Int) (fragment : Fragment) : Prop where
  intro ::
  arguments : ∃ head before after read, Head.read text source offset = .ok head ∧
    Fragment.split head.arguments source head.offset = .ok (before ++ fragment :: after) ∧
    before.mapM (Argument.meaning source) = .ok read

/-- Reading the call that `text` shows comes to an integer with `count` digits, more than are
converted: as an argument of the call, or inside a nested call. -/
inductive Overlong (source : List Char) (count : Nat) : List Char → Int → Prop
  | literal {text : List Char} {offset : Int} {fragment : Fragment}
      (hreach : Reaches source text offset fragment)
      (hliteral : isCallFragment fragment.text = false)
      (h : Literal.Overlong fragment.text count) : Overlong source count text offset
  | nested {text : List Char} {offset : Int} {fragment : Fragment}
      (hreach : Reaches source text offset fragment) (hcall : isCallFragment fragment.text)
      (h : Overlong source count fragment.text fragment.position) :
      Overlong source count text offset

variable {source text : List Char} {offset : Int}

/-- The first argument that cannot be read is the fault of the call. -/
theorem Reaches.meaning_eq {fragment : Fragment} {fault : ReadingFault}
    (hreach : Reaches source text offset fragment)
    (h : Argument.meaning source fragment = .error fault) :
    meaning source text offset = .error fault := by
  obtain ⟨head, before, after, read, hhead, hsplit, hbefore⟩ := hreach
  rw [Call.meaning_eq, hhead, ok_bind, hsplit, ok_bind, mapM_append_cons_error hbefore h,
    error_bind]

/-- Reading stops at an integer with too many digits. -/
theorem Overlong.meaning_eq {count : Nat} (h : Overlong source count text offset) :
    meaning source text offset = .error (.tooManyDigits count) := by
  induction h with
  | literal hreach hliteral h =>
    refine hreach.meaning_eq ?_
    rw [Argument.meaning, Argument.readWith, hliteral, if_neg Bool.false_ne_true, h.read_eq]
    rfl
  | nested hreach hcall h ih =>
    refine hreach.meaning_eq ?_
    rw [Argument.meaning, Argument.readWith, if_pos hcall, ih]
    rfl

/-- What reading an argument comes to, if that is known of the call which it may be. -/
theorem argument_cases {fragment : Fragment}
    (ih : (∃ call, meaning source fragment.text fragment.position = .ok call ∧ call.IsSound) ∨
      (∃ fault, meaning source fragment.text fragment.position = .error fault ∧
        fault.IsOfText) ∨
      ∃ count, Overlong source count fragment.text fragment.position) :
    (∃ argument, Argument.meaning source fragment = .ok argument ∧ argument.IsSound) ∨
      (∃ fault, Argument.meaning source fragment = .error fault ∧ fault.IsOfText) ∨
      ∃ count, Argument.meaning source fragment = .error (.tooManyDigits count) ∧
        ∀ {text : List Char} {offset : Int}, Reaches source text offset fragment →
          Overlong source count text offset := by
  rw [Argument.meaning, Argument.readWith]
  by_cases hcall : isCallFragment fragment.text
  · rw [if_pos hcall]
    rcases ih with ⟨call, hread, hsound⟩ | ⟨fault, hread, hfault⟩ | ⟨count, h⟩
    · exact Or.inl ⟨call.toArgument, by rw [hread]; rfl, hsound⟩
    · exact Or.inr (Or.inl ⟨fault, by rw [hread]; rfl, hfault⟩)
    · exact Or.inr (Or.inr ⟨count, by rw [h.meaning_eq]; rfl, fun hreach => .nested hreach hcall h⟩)
  · have hliteral : isCallFragment fragment.text = false := Bool.not_eq_true _ ▸ hcall
    rw [if_neg hcall]
    rcases Literal.read_cases fragment.text source fragment.position with
      ⟨value, hread, hsound⟩ | ⟨kind, hread⟩ | ⟨count, h⟩
    · exact Or.inl ⟨.literal value, by rw [hread]; rfl, hsound⟩
    · exact Or.inr (Or.inl ⟨_, by rw [hread]; rfl, by trivial⟩)
    · exact Or.inr (Or.inr ⟨count, by rw [h.read_eq]; rfl,
        fun hreach => .literal hreach hliteral h⟩)

/-- Reading gives a sound tree or faults the text, unless it comes to an integer with too many
digits. -/
theorem meaning_cases (source text : List Char) (offset : Int) :
    (∃ call, meaning source text offset = .ok call ∧ call.IsSound) ∨
      (∃ fault, meaning source text offset = .error fault ∧ fault.IsOfText) ∨
      ∃ count, Overlong source count text offset := by
  induction hn : text.length using Nat.strongRecOn generalizing text offset with
  | ind n ih =>
    cases hhead : Head.read text source offset with
    | error fault =>
      refine Or.inr (Or.inl ⟨fault, ?_, Head.isOfText_of_read hhead⟩)
      rw [Call.meaning_eq, hhead, error_bind]
    | ok head =>
      cases hsplit : Fragment.split head.arguments source head.offset with
      | error fault =>
        refine Or.inr (Or.inl ⟨fault, ?_, Fragment.isOfText_of_split hsplit⟩)
        rw [Call.meaning_eq, hhead, ok_bind, hsplit, error_bind]
      | ok fragments =>
        -- arguments are shorter than the call, so what they come to is known
        have hargument (fragment : Fragment) (hmem : fragment ∈ fragments) :=
          argument_cases (ih _ (hn ▸ Fragment.length_lt_of_mem_split hhead hsplit hmem)
            fragment.text fragment.position rfl)
        rcases mapM_cases (Argument.meaning source) fragments with
          ⟨arguments, hall, hmem⟩ | ⟨before, fragment, after, read, fault, rfl, hbefore, hfault, -⟩
        · refine Or.inl ⟨⟨String.ofList head.name, arguments⟩, ?_, ?_, ?_⟩
          · rw [Call.meaning_eq, hhead, ok_bind, hsplit, ok_bind, hall]
            rfl
          · simpa [toArgument] using Head.name_ne_nil hhead
          · refine Argument.allSound_of_forall fun argument ha => ?_
            obtain ⟨fragment, hfragment, hread⟩ := hmem argument ha
            rcases hargument fragment hfragment with ⟨value, hvalue, hsound⟩ |
              ⟨fault, hfault, -⟩ | ⟨count, hcount, -⟩
            · obtain rfl := Except.ok.inj (hvalue.symm.trans hread)
              exact hsound
            · simp [hfault] at hread
            · simp [hcount] at hread
        · have hreach : Reaches source text offset fragment :=
            ⟨head, before, after, read, hhead, hsplit, hbefore⟩
          rcases hargument fragment (by simp) with ⟨argument, hread, -⟩ | ⟨fault, hread, hoftext⟩ |
            ⟨count, -, h⟩
          · simp [hfault] at hread
          · exact Or.inr (Or.inl ⟨fault, hreach.meaning_eq hread, hoftext⟩)
          · exact Or.inr (Or.inr ⟨count, h hreach⟩)

/-- Every tree that is read is sound. -/
theorem isSound_of_parse {expression : String} {call : Call} (h : parse expression = .ok call) :
    call.IsSound := by
  rw [parse, read_eq_meaning] at h
  rcases meaning_cases expression.toList expression.toList 0 with
    ⟨read, hread, hsound⟩ | ⟨fault, hread, -⟩ | ⟨count, hlong⟩
  · obtain rfl := Except.ok.inj (hread.symm.trans h)
    exact hsound
  · simp [hread] at h
  · simp [hlong.meaning_eq] at h

/-- A call comes to an integer with too many digits if that is its only argument. -/
theorem Overlong.of_digits {name digits : List Char} (hname : IsName name)
    (hall : ∀ c ∈ digits, isDigit c) (hlimit : integerDigitLimit < digits.length)
    (source : List Char) (offset : Int) :
    Overlong source digits.length (name ++ '(' :: (digits ++ [')'])) offset := by
  have hne : digits ≠ [] := by
    rintro rfl
    simp at hlimit
  have hsolid : Solid digits := .of_all hne fun c hc => isBlank_of_isDigit (hall c hc)
  have hlevel : Fragment.Level 0 digits := .of_all fun c hc => isOrdinary_of_isDigit (hall c hc)
  have hhead := Head.read_bracketed allBlank_nil hname allBlank_nil allBlank_nil digits source
    offset
  rw [List.nil_append, List.nil_append] at hhead
  have hsplit := Fragment.split_solid hlevel hsolid source
  have hreach : Reaches source _ offset ⟨digits, _⟩ := ⟨_, [], [], [], hhead, hsplit _, rfl⟩
  have hbracket : '(' ∉ digits := fun hmem => absurd (hall '(' hmem) (by decide)
  have hliteral : isCallFragment digits = false :=
    isCallFragment_of_not_mem hbracket fun c hc => isLetter_of_isDigit (hall c hc)
  exact .literal hreach hliteral (.of_digits hall hlimit)

/-- An outcome of reading that is a tree or a fault of the text. -/
def IsAnswer : Except ReadingFault Call → Prop
  | .ok call => call.IsSound
  | .error fault => fault.IsOfText

/-- Reading an expression gives a sound tree or faults the text if and only if it comes to no
integer with too many digits; if it does, the refusal to convert that integer is the outcome. -/
theorem isAnswer_parse_iff (expression : String) :
    (IsAnswer (parse expression) ↔
      ¬∃ count, Overlong expression.toList count expression.toList 0) ∧
    ∀ count, parse expression = .error (.tooManyDigits count) ↔
      Overlong expression.toList count expression.toList 0 := by
  rw [parse, read_eq_meaning]
  rcases meaning_cases expression.toList expression.toList 0 with
    ⟨call, hread, hsound⟩ | ⟨fault, hread, hfault⟩ | ⟨count, h⟩
  · have hnone (count : Nat) : ¬Overlong expression.toList count expression.toList 0 := by
      intro h
      simp [h.meaning_eq] at hread
    rw [hread]
    exact ⟨⟨fun _ ⟨count, h⟩ => hnone count h, fun _ => hsound⟩,
      fun count => ⟨fun h => by simp at h, fun h => absurd h (hnone count)⟩⟩
  · have hnone (count : Nat) : ¬Overlong expression.toList count expression.toList 0 := by
      intro h
      rw [h.meaning_eq] at hread
      obtain rfl := Except.error.inj hread
      exact hfault
    rw [hread]
    refine ⟨⟨fun _ ⟨count, h⟩ => hnone count h, fun _ => hfault⟩,
      fun count => ⟨fun h => ?_, fun h => absurd h (hnone count)⟩⟩
    obtain rfl := Except.error.inj h
    exact hfault.elim
  · rw [h.meaning_eq]
    refine ⟨⟨fun hanswer => hanswer.elim, fun hnone => absurd ⟨count, h⟩ hnone⟩,
      fun count' => ⟨fun heq => ?_, fun h' => ?_⟩⟩
    · obtain rfl : count = count' := by simpa using heq
      exact h
    · rw [← h.meaning_eq, h'.meaning_eq]

/-- An int of 4301 digits is not refused as a number out of range: no fault of the text is
named. -/
theorem parse_overlong_int :
    ¬IsAnswer (parse ("A(" ++ String.ofList (List.replicate 4301 '1') ++ ")")) := by
  obtain ⟨digits, hdigits⟩ : ∃ digits, digits = List.replicate 4301 '1' := ⟨_, rfl⟩
  have hall : ∀ c ∈ digits, isDigit c := by
    intro c hc
    rw [hdigits] at hc
    obtain rfl := List.eq_of_mem_replicate hc
    decide
  have hlimit : integerDigitLimit < digits.length := by
    rw [hdigits, List.length_replicate]
    decide
  have htext : ("A(" ++ String.ofList digits ++ ")").toList =
      ['A'] ++ '(' :: (digits ++ [')']) := by simp
  have hname : IsName ['A'] := .of_isBareName rfl
  rw [← hdigits, parse, read_eq_meaning, htext,
    (Overlong.of_digits hname hall hlimit _ 0).meaning_eq]
  exact id

end Call

end DriverPolicy
