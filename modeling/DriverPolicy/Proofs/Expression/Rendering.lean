import DriverPolicy.Proofs.Expression.Descent
import DriverPolicy.Proofs.Expression.Shape
import DriverPolicy.Proofs.Expression.Spelling

/-!
# Written call trees read back

A call tree is written as text with much freedom: blanks anywhere between its parts, strings in
either kind of quotes and with anything else inside them, numerals with and without markers,
calls without arguments with and without brackets. Whatever the choices, the text reads as the
tree.

The parent's scan leaves every written argument whole, because its quotations are closed and its
brackets paired; the argument is then read on its own. Both facts go by induction over the way
the tree is written.
-/

namespace DriverPolicy

mutual

/-- The texts that write an argument, without blanks around it. -/
inductive Argument.WrittenAs : Argument → List Char → Prop
  | literal {value : Literal} {text : List Char} (h : value.WrittenAs text) :
      Argument.WrittenAs (.literal value) text
  | call {name : String} {arguments : List Argument} {gap inside : List Char}
      (hgap : allBlank gap) (h : Argument.AllWrittenAs arguments inside) :
      Argument.WrittenAs (.call name arguments)
        (name.toList ++ (gap ++ '(' :: (inside ++ [')'])))
  | bare {name : String} (h : isBareName name.toList) :
      Argument.WrittenAs (.call name []) name.toList

/-- The texts that write the arguments of a call between its brackets. -/
inductive Argument.AllWrittenAs : List Argument → List Char → Prop
  | blank {blanks : List Char} (h : allBlank blanks) : Argument.AllWrittenAs [] blanks
  | last {argument : Argument} {before text after : List Char} (hbefore : allBlank before)
      (h : argument.WrittenAs text) (hafter : allBlank after) :
      Argument.AllWrittenAs [argument] (before ++ text ++ after)
  | more {argument next : Argument} {rest : List Argument} {before text after tail : List Char}
      (hbefore : allBlank before) (h : argument.WrittenAs text) (hafter : allBlank after)
      (htail : Argument.AllWrittenAs (next :: rest) tail) :
      Argument.AllWrittenAs (argument :: next :: rest) (before ++ text ++ after ++ ',' :: tail)

end

/-- The texts that write a whole expression: a call with blanks around it, which may always be a
bare name if it has no arguments. -/
inductive Call.WrittenAs : Call → List Char → Prop
  | argument {call : Call} {before text after : List Char} (hbefore : allBlank before)
      (h : call.toArgument.WrittenAs text) (hafter : allBlank after) :
      Call.WrittenAs call (before ++ text ++ after)
  | bare {name : String} {before after : List Char} (hbefore : allBlank before)
      (hafter : allBlank after) : Call.WrittenAs ⟨name, []⟩ (before ++ name.toList ++ after)

mutual

/-- The arguments that such texts write: names of letters and points, and plain literals. -/
def Argument.IsPlain : Argument → Prop
  | .literal value => value.IsPlain
  | .call name arguments => IsName name.toList ∧ Argument.AllPlain arguments

/-- Whether all arguments are plain. -/
def Argument.AllPlain : List Argument → Prop
  | [] => True
  | argument :: rest => argument.IsPlain ∧ Argument.AllPlain rest

end

/-- The call trees that such texts write. -/
def Call.IsPlain (call : Call) : Prop := call.toArgument.IsPlain

mutual

/-- Whether an argument is plain can be computed. -/
def Argument.decidableIsPlain : (argument : Argument) → Decidable argument.IsPlain
  | .literal value => inferInstanceAs (Decidable value.IsPlain)
  | .call name arguments =>
    have := Argument.decidableAllPlain arguments
    inferInstanceAs (Decidable (IsName name.toList ∧ Argument.AllPlain arguments))

/-- Whether all arguments are plain can be computed. -/
def Argument.decidableAllPlain : (arguments : List Argument) →
    Decidable (Argument.AllPlain arguments)
  | [] => isTrue trivial
  | argument :: rest =>
    have := argument.decidableIsPlain
    have := Argument.decidableAllPlain rest
    inferInstanceAs (Decidable (argument.IsPlain ∧ Argument.AllPlain rest))

end

instance (call : Call) : Decidable call.IsPlain := call.toArgument.decidableIsPlain

/-- A name leaves the scan as it found it. -/
theorem IsName.level {name : List Char} (h : IsName name) (depth : Nat) :
    Fragment.Level depth name :=
  .of_all fun c hc => isOrdinary_of_isNameChar (h.chars c hc)

mutual

/-- A written argument leaves the scan as it found it. -/
theorem Argument.WrittenAs.level {argument : Argument} {text : List Char}
    (h : argument.WrittenAs text) (hplain : argument.IsPlain) (depth : Nat) :
    Fragment.Level depth text := by
  cases h with
  | literal h => exact h.level hplain depth
  | call hgap h =>
    obtain ⟨hname, harguments⟩ := hplain
    have hbrackets := (h.level harguments depth).bracketed
    exact (hname.level depth).append ((Fragment.Level.of_allBlank hgap).append hbrackets)
  | bare h => exact (IsName.of_isBareName h).level depth

/-- Written arguments leave the scan as they found it inside brackets. -/
theorem Argument.AllWrittenAs.level {arguments : List Argument} {text : List Char}
    (h : Argument.AllWrittenAs arguments text) (hplain : Argument.AllPlain arguments)
    (depth : Nat) : Fragment.Level (depth + 1) text := by
  cases h with
  | blank h => exact Fragment.Level.of_allBlank h
  | last hbefore h hafter => exact (h.level hplain.1 _).pad hbefore hafter
  | more hbefore h hafter htail =>
    have hfirst := (h.level hplain.1 (depth + 1)).pad hbefore hafter
    have hrest := Fragment.Level.comma.append (htail.level hplain.2 depth)
    exact hfirst.append hrest

end

/-- A written argument is solid. -/
theorem Argument.WrittenAs.solid {argument : Argument} {text : List Char}
    (h : argument.WrittenAs text) (hplain : argument.IsPlain) : Solid text := by
  cases h with
  | literal h => exact h.solid
  | @call name arguments gap inside hgap h =>
    have hclose : Solid [')'] := .singleton (by decide)
    simpa using hplain.1.solid.append (gap ++ '(' :: inside) hclose
  | bare h => exact (IsName.of_isBareName h).solid

/-- Written arguments are not blank, if there are any. -/
theorem Argument.AllWrittenAs.not_allBlank {arguments : List Argument} {text : List Char}
    (h : Argument.AllWrittenAs arguments text) (hplain : Argument.AllPlain arguments)
    (hne : arguments ≠ []) : allBlank text = false := by
  cases h with
  | blank => exact absurd rfl hne
  | last hbefore h hafter => simp [allBlank_append, (h.solid hplain.1).not_allBlank]
  | more hbefore h hafter htail => simp [allBlank_append, (h.solid hplain.1).not_allBlank]

/-- A name with a bracket behind it is a nested call. -/
theorem IsName.isCallFragment_append {name rest : List Char} (h : IsName name)
    (hrest : '(' ∈ rest) : isCallFragment (name ++ rest) :=
  DriverPolicy.isCallFragment_append h.nonempty
    (fun c hc => isOrdinary_of_isNameChar (h.chars c hc)) hrest

namespace Call

variable {before name gap after : List Char}

/-- The meaning of a call that is written with brackets, from the meanings of its arguments. -/
theorem meaning_bracketed (hbefore : allBlank before) (hname : IsName name) (hgap : allBlank gap)
    (hafter : allBlank after) {inside source : List Char} {arguments : List Argument}
    (hinside : ∀ offset, ∃ fragments, Fragment.split inside source offset = .ok fragments ∧
      fragments.mapM (Argument.meaning source) = .ok arguments) (offset : Int) :
    meaning source (before ++ (name ++ (gap ++ '(' :: (inside ++ ')' :: after)))) offset =
      .ok ⟨String.ofList name, arguments⟩ := by
  obtain ⟨fragments, hsplit, hmeaning⟩ := hinside (offset +
    (before.length + name.length + gap.length) + 1)
  rw [meaning_eq, Head.read_bracketed hbefore hname hgap hafter, ok_bind, hsplit, ok_bind,
    hmeaning, ok_bind, pure_eq_ok]

/-- The meaning of a call that is written as a bare name. -/
theorem meaning_bare (hbefore : allBlank before) (hname : IsName name) (hafter : allBlank after)
    (source : List Char) (offset : Int) :
    meaning source (before ++ (name ++ after)) offset = .ok ⟨String.ofList name, []⟩ := by
  rw [meaning_eq, Head.read_bare hbefore hname hafter, ok_bind]
  rfl

end Call

/-- The text between the brackets of a written call gives its arguments, if the scan cuts it into
pieces that mean them. -/
theorem Argument.AllWrittenAs.split_of_cut {arguments : List Argument} {text : List Char}
    (h : Argument.AllWrittenAs arguments text) (hplain : Argument.AllPlain arguments)
    {source : List Char} (hcut : arguments ≠ [] → ∀ (against : List Char) (start : Int),
      ∃ fragments, Fragment.cut against 0 start [] (shield none text) = .ok fragments ∧
        fragments.mapM (Argument.meaning source) = .ok arguments) (offset : Int) :
    ∃ fragments, Fragment.split text source offset = .ok fragments ∧
      fragments.mapM (Argument.meaning source) = .ok arguments := by
  cases arguments with
  | nil =>
    cases h with
    | blank h => exact ⟨[], by rw [Fragment.split, if_pos h], rfl⟩
  | cons argument rest =>
    have hblank := h.not_allBlank hplain (List.cons_ne_nil _ _)
    rw [Fragment.split, if_neg (by simp [hblank])]
    exact hcut (List.cons_ne_nil _ _) _ offset

mutual

/-- A written argument means what it writes. -/
theorem Argument.WrittenAs.meaning_eq {argument : Argument} {text : List Char}
    (h : argument.WrittenAs text) (hplain : argument.IsPlain) (source : List Char)
    (position : Int) : Argument.meaning source ⟨text, position⟩ = .ok argument := by
  rw [Argument.meaning, Argument.readWith]
  cases h with
  | literal h =>
    rw [h.isCallFragment_eq, if_neg Bool.false_ne_true, h.read_eq hplain]
    rfl
  | @call name arguments gap inside hgap h =>
    obtain ⟨hname, harguments⟩ := hplain
    have hcall := Call.meaning_bracketed allBlank_nil hname hgap
      allBlank_nil
      (h.split_of_cut harguments fun hne => h.cut_eq harguments hne source) position
    rw [if_pos (hname.isCallFragment_append (by simp))]
    rw [List.nil_append] at hcall
    rw [hcall, String.ofList_toList]
    rfl
  | @bare name h =>
    have hcall := Call.meaning_bare allBlank_nil (IsName.of_isBareName h)
      allBlank_nil source position
    rw [List.nil_append, List.append_nil, String.ofList_toList] at hcall
    rw [if_pos (by simp [isCallFragment, h]), hcall]
    rfl

/-- Written arguments are cut into pieces that mean what they write. -/
theorem Argument.AllWrittenAs.cut_eq {arguments : List Argument} {text : List Char}
    (h : Argument.AllWrittenAs arguments text) (hplain : Argument.AllPlain arguments)
    (hne : arguments ≠ []) (source against : List Char) (start : Int) :
    ∃ fragments, Fragment.cut against 0 start [] (shield none text) = .ok fragments ∧
      fragments.mapM (Argument.meaning source) = .ok arguments := by
  cases h with
  | blank => exact absurd rfl hne
  | @last argument before text after hbefore h hafter =>
    have hlevel := (h.level hplain.1 0).pad hbefore hafter
    refine ⟨[⟨text, start + before.length⟩], ?_, ?_⟩
    · rw [hlevel.cut_last, Fragment.close_solid (h.solid hplain.1) hbefore hafter]
      rfl
    · simp [h.meaning_eq hplain.1 source]
  | @more argument next rest before text after tail hbefore h hafter htail =>
    -- the scan passes over the first argument to the comma behind it and starts afresh
    have hlevel := (h.level hplain.1 0).pad hbefore hafter
    obtain ⟨fragments, hcut, hmeaning⟩ := htail.cut_eq hplain.2 (List.cons_ne_nil _ _) source
      against (start + (before ++ text ++ after).length + 1)
    refine ⟨⟨text, start + before.length⟩ :: fragments, ?_, ?_⟩
    · rw [hlevel.cut_comma, Fragment.close_solid (h.solid hplain.1) hbefore hafter, ok_bind, hcut]
      rfl
    · simp [h.meaning_eq hplain.1 source, hmeaning]

end

/-- A literal in its plainest text: a string between double quotes, a long behind its marker, an int
alone; numbers with a point behind their markers. -/
def Literal.written : Literal → List Char
  | string s => '"' :: s.toList ++ ['"']
  | float x => "(float)".toList ++ x.text.toList
  | double x => "(double)".toList ++ x.text.toList
  | long n => "(long)".toList ++ (toString n).toList
  | int n => (toString n).toList

mutual

/-- An argument in its plainest text: a call as its name with its arguments between brackets. -/
def Argument.written : Argument → List Char
  | .literal value => value.written
  | .call name arguments => name.toList ++ '(' :: (Argument.allWritten arguments ++ [')'])

/-- Arguments in their plainest text, with commas between them. -/
def Argument.allWritten : List Argument → List Char
  | [] => []
  | [argument] => argument.written
  | argument :: next :: rest => argument.written ++ ',' :: Argument.allWritten (next :: rest)

end

/-- A call tree in its plainest text. -/
def Call.written (call : Call) : String := String.ofList call.toArgument.written

/-- The plainest text of a plain literal writes it. -/
theorem Literal.writtenAs_written {value : Literal} (h : value.IsPlain) :
    value.WrittenAs value.written := by
  cases value with
  | string s =>
    have hwritten : Literal.WrittenAs (.string (String.ofList s.toList))
        ('"' :: s.toList ++ ['"']) := .string (by decide)
    rwa [String.ofList_toList] at hwritten
  | int n =>
    simp only [Literal.IsPlain, intRange] at h
    exact .int (numeral_toString (by simp only [longRange]; omega) (by simp only [longRange]; omega))
  | long n =>
    have hmarker : Marker "long".toList ('(' :: ([] ++ ("long".toList ++ [])) ++ [')']) :=
      .intro rfl (by decide) rfl
    exact .long hmarker allBlank_nil (numeral_toString h.1 h.2)
  | float m => exact h.elim
  | double m => exact h.elim

mutual

/-- The plainest text of a plain argument writes it. -/
theorem Argument.writtenAs_written {argument : Argument} (h : argument.IsPlain) :
    argument.WrittenAs argument.written := by
  cases argument with
  | literal value =>
    rw [Argument.IsPlain] at h
    rw [Argument.written]
    exact .literal (Literal.writtenAs_written h)
  | call name arguments =>
    rw [Argument.IsPlain] at h
    rw [Argument.written]
    exact .call allBlank_nil (Argument.allWrittenAs_allWritten h.2)

/-- So does that of plain arguments. -/
theorem Argument.allWrittenAs_allWritten {arguments : List Argument} (h : Argument.AllPlain arguments) :
    Argument.AllWrittenAs arguments (Argument.allWritten arguments) := by
  cases arguments with
  | nil =>
    rw [Argument.allWritten]
    exact .blank rfl
  | cons argument rest =>
    rw [Argument.AllPlain] at h
    have hfirst := Argument.writtenAs_written h.1
    cases rest with
    | nil =>
      have hlast := Argument.AllWrittenAs.last allBlank_nil hfirst allBlank_nil
      rwa [List.nil_append, List.append_nil] at hlast
    | cons next rest =>
      have hmore := Argument.AllWrittenAs.more allBlank_nil hfirst allBlank_nil
        (Argument.allWrittenAs_allWritten h.2)
      rwa [List.nil_append, List.append_nil] at hmore

end

namespace Call

/-- A written call tree has itself for its meaning, whatever blanks stand around it. -/
theorem WrittenAs.meaning_eq {call : Call} {text : List Char} (h : call.WrittenAs text)
    (hplain : call.IsPlain) (source : List Char) (offset : Int) :
    meaning source text offset = .ok call := by
  obtain ⟨name, arguments⟩ := call
  obtain ⟨hname, harguments⟩ := hplain
  cases h with
  | bare hbefore hafter =>
    rw [List.append_assoc, meaning_bare hbefore hname hafter, String.ofList_toList]
  | argument hbefore h hafter =>
    cases h with
    | bare => rw [List.append_assoc, meaning_bare hbefore hname hafter, String.ofList_toList]
    | call hgap h =>
      have hcall := meaning_bracketed hbefore hname hgap hafter
        (h.split_of_cut harguments fun hne => h.cut_eq harguments hne source) offset
      rw [String.ofList_toList] at hcall
      simpa using hcall

/-- The plainest text of a plain call tree writes it. -/
theorem writtenAs_written {call : Call} (hplain : call.IsPlain) : call.WrittenAs call.written.toList := by
  have hwritten := WrittenAs.argument allBlank_nil (Argument.writtenAs_written hplain) allBlank_nil
  rwa [List.nil_append, List.append_nil, ← String.toList_ofList (l := call.toArgument.written)] at hwritten

/-- Every plain call tree can be written, and each text that writes it reads as the tree. -/
theorem parse_of_writtenAs {call : Call} (hplain : call.IsPlain) :
    (∃ text : String, call.WrittenAs text.toList) ∧
      ∀ text : String, call.WrittenAs text.toList → parse text = .ok call := by
  constructor
  · exact ⟨call.written, writtenAs_written hplain⟩
  · intro text h
    rw [parse, read_eq_meaning]
    exact h.meaning_eq hplain _ 0

/-- A tree with nested calls, a string that hides brackets and a comma, and the least long is
read back from a text with blanks of several kinds in it. -/
theorem parse_writtenAs_nested :
    IsPlain ⟨".a", [.call ".b" [], .literal (.string "x(,\n "), .call "B" [.literal (.int 7)],
      .literal (.long (-9223372036854775808))]⟩ ∧
    parse ".a ( .b\u2003( ) , \"x(,\n \",B(\t( iNt )+07 ),(LONG)\u00a0-9223372036854775808)" =
      .ok ⟨".a", [.call ".b" [], .literal (.string "x(,\n "), .call "B" [.literal (.int 7)],
        .literal (.long (-9223372036854775808))]⟩ := by
  have hplain : IsPlain ⟨".a", [.call ".b" [], .literal (.string "x(,\n "),
      .call "B" [.literal (.int 7)], .literal (.long (-9223372036854775808))]⟩ := by decide
  have hspace : allBlank [' '] := by decide
  have hint : Marker "int".toList "( iNt )".toList := @Marker.intro _ [' '] "iNt".toList [' ']
    hspace rfl hspace
  have hlong : Marker "long".toList "(LONG)".toList := @Marker.intro _ [] "LONG".toList []
    allBlank_nil rfl allBlank_nil
  have hseven : Numeral 7 "+07".toList :=
    @Numeral.plus _ (10 * 0 + 7) (.snoc (.single rfl) rfl) (by decide)
  have hleast : Numeral (-9223372036854775808) "-9223372036854775808".toList :=
    numeral_toString (by decide) (by decide)
  have hb : (Argument.call ".b" []).WrittenAs ".b\u2003( )".toList :=
    @Argument.WrittenAs.call ".b" [] ['\u2003'] [' '] (by decide) (.blank hspace)
  have hB : (Argument.call "B" [.literal (.int 7)]).WrittenAs "B(\t( iNt )+07 )".toList :=
    @Argument.WrittenAs.call "B" _ [] _ allBlank_nil
      (@Argument.AllWrittenAs.last _ ['\t'] _ [' '] (by decide)
        (.literal (.markedInt hint allBlank_nil hseven)) hspace)
  have hstring : (Argument.literal (.string "x(,\n ")).WrittenAs "\"x(,\n \"".toList :=
    .literal (@Literal.WrittenAs.string "x(,\n ".toList '"' (by decide))
  have harguments := @Argument.AllWrittenAs.more _ _ _ [' '] _ [' '] _ hspace hb hspace
    (@Argument.AllWrittenAs.more _ _ _ [' '] _ [] _ hspace hstring allBlank_nil
      (@Argument.AllWrittenAs.more _ _ _ [] _ [] _ allBlank_nil hB allBlank_nil
        (@Argument.AllWrittenAs.last _ [] _ [] allBlank_nil
          (.literal (@Literal.WrittenAs.long _ _ ['\u00a0'] _ hlong (by decide) hleast)) allBlank_nil)))
  have hcall := @Argument.WrittenAs.call ".a" _ [' '] _ hspace harguments
  have hwritten := @WrittenAs.argument ⟨".a", _⟩ [] _ [] allBlank_nil hcall allBlank_nil
  refine ⟨hplain, (parse_of_writtenAs hplain).2 _ ?_⟩
  simpa using hwritten

end Call

end DriverPolicy
