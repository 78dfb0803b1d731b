import DriverPolicy.Proofs.Expression.Position
import DriverPolicy.Proofs.Resolution.Shared
import DriverPolicy.Proofs.Text.Lines

/-!
# Carets below faults

The report of a fault shows the expression behind a margin of two blanks and a caret in a line of its own,
behind the same margin and as many blanks as there are characters before the fault. A fault is always at a
character of the expression. The caret stands below it as long as the expression stands on one line; a line
break before the fault moves the character to another column, and one behind it moves the caret down.
-/

namespace DriverPolicy

namespace ExpressionFault

/-- The line of the caret: a margin, as many blanks as there are characters before the fault, the caret. -/
def caretLine (position : Nat) : List Char := ' ' :: ' ' :: (List.replicate position ' ' ++ ['^'])

/-- What a report shows below the message: the expression behind a margin, and the caret. -/
def display (source : List Char) (position : Nat) : List Char :=
  (' ' :: ' ' :: source) ++ '\n' :: caretLine position

/-- Where the display shows a character of the expression. -/
def shownAt (position : Nat) : Nat := 2 + position

/-- Where the display of an expression of some length shows the caret. -/
def caretAt (length position : Nat) : Nat := (2 + length) + (1 + (2 + position))

section

variable {breaks source : List Char} {position : Nat}

/-- Only blanks stand before the caret. -/
theorem take_caretLine (position : Nat) :
    (caretLine position).take (2 + position) = List.replicate (2 + position) ' ' := by
  rw [caretLine, ← List.cons_append, ← List.cons_append, ← List.replicate_succ, ← List.replicate_succ,
    Nat.add_comm 2]
  exact List.take_left' List.length_replicate

/-- The margin and the expression up to a character stand before it. -/
theorem take_display (h : position < source.length) :
    (display source position).take (shownAt position) = ' ' :: ' ' :: source.take position := by
  rw [display, shownAt, Nat.add_comm 2, List.cons_append, List.cons_append, List.take_succ_cons,
    List.take_succ_cons, List.take_append_of_le_length h.le]

/-- The character stands there. -/
theorem getElem?_display (h : position < source.length) :
    (display source position)[shownAt position]? = source[position]? := by
  rw [display, shownAt, Nat.add_comm 2, List.cons_append, List.cons_append, List.getElem?_cons_succ,
    List.getElem?_cons_succ, List.getElem?_append_left h]

/-- A margin breaks no line. -/
theorem countP_margin (hblank : ' ' ∉ breaks) (text : List Char) :
    (' ' :: ' ' :: text).countP (· ∈ breaks) = text.countP (· ∈ breaks) := by
  simp [hblank]

/-- The caret stands below all lines of the expression, behind its margin. -/
theorem caret_position (hfeed : '\n' ∈ breaks) (hblank : ' ' ∉ breaks) (source : List Char) (position : Nat) :
    lineOf breaks (display source position) (caretAt source.length position) =
        source.countP (· ∈ breaks) + 1 ∧
      columnOf breaks (display source position) (caretAt source.length position) = 2 + position := by
  have hlength : (' ' :: ' ' :: source).length = 2 + source.length := by
    rw [List.length_cons, List.length_cons, Nat.add_comm 2]
  have hcaret : lineOf breaks (caretLine position) (2 + position) = 0 := by
    simp [lineOf, take_caretLine, List.countP_replicate, hblank]
  rw [caretAt, ← hlength, display, lineOf_append_cons hfeed, columnOf_append_cons hfeed, countP_margin hblank,
    hcaret]
  refine ⟨rfl, (columnOf_eq_self_iff (by simp [caretLine]; omega)).mpr fun c hc => ?_⟩
  rw [take_caretLine] at hc
  exact List.eq_of_mem_replicate hc ▸ hblank

/-- A character stands in the line that the line breaks before it begin; if there is none, its column is that
of the caret. -/
theorem shown_position (hblank : ' ' ∉ breaks) (h : position < source.length) :
    lineOf breaks (display source position) (shownAt position) =
        (source.take position).countP (· ∈ breaks) ∧
      (columnOf breaks (display source position) (shownAt position) = 2 + position ↔
        ∀ c ∈ source.take position, c ∉ breaks) := by
  refine ⟨by rw [lineOf, take_display h, countP_margin hblank], ?_⟩
  have hwithin : shownAt position ≤ (display source position).length := by
    simp [shownAt, display]
    omega
  have hcolumn := @columnOf_eq_self_iff breaks _ _ hwithin
  rw [take_display h, List.forall_mem_cons, List.forall_mem_cons] at hcolumn
  exact hcolumn.trans ⟨fun hall => hall.2.2, fun hall => ⟨hblank, hblank, hall⟩⟩

/-- The caret stands directly below a character if and only if the expression has no line break. -/
theorem isBelow_display_iff (hfeed : '\n' ∈ breaks) (hblank : ' ' ∉ breaks) (h : position < source.length) :
    IsBelow breaks (display source position) (shownAt position) (caretAt source.length position) ↔
      ∀ d ∈ source, d ∉ breaks := by
  obtain ⟨hline, hcolumn⟩ := caret_position hfeed hblank source position
  obtain ⟨hshownLine, hshownColumn⟩ := shown_position hblank h
  have hcount : source.countP (· ∈ breaks) =
      (source.take position).countP (· ∈ breaks) + (source.drop position).countP (· ∈ breaks) := by
    rw [← List.countP_append, List.take_append_drop]
  have hbehind : (source.drop position).countP (· ∈ breaks) = 0 ↔
      ∀ d ∈ source.drop position, d ∉ breaks := by
    simp only [List.countP_eq_zero, decide_eq_true_eq]
  have hall : (∀ d ∈ source, d ∉ breaks) ↔
      (∀ d ∈ source.take position, d ∉ breaks) ∧ ∀ d ∈ source.drop position, d ∉ breaks := by
    rw [← List.forall_mem_append, List.take_append_drop]
  rw [hall, ← hshownColumn, ← hbehind]
  constructor
  · rintro ⟨hnext, hsame⟩
    exact ⟨hsame ▸ hcolumn, by omega⟩
  · rintro ⟨hsame, hnone⟩
    exact ⟨by omega, hcolumn.trans hsame.symm⟩

end

/-- A report shows the message and, below it, the expression and the caret. -/
theorem toList_report {fault : ExpressionFault} (h : fault.source ≠ "") : fault.report.toList =
    fault.message.toList ++ '\n' :: display fault.source.toList fault.position.toNat := by
  rw [report, if_neg h, display, caretLine]
  simp [String.toList_append]

end ExpressionFault

namespace Call

/-- The fault of a blank expression is at its first character. -/
theorem fault_of_allBlank {source : List Char} (hblank : allBlank source) {fault : ExpressionFault}
    (h : read source = .error (.expression fault)) :
    fault = ⟨.malformed .emptyExpression, String.ofList source, 0⟩ := by
  have hsource : Head.sourceOr source source = source := by
    rw [Head.sourceOr, ite_self]
  have hhead : Head.read source source 0 = malformed .emptyExpression source 0 := by
    simp [Head.read, hblank, hsource]
  have hread : read source = malformed .emptyExpression source 0 := by
    rw [read, OpenCall.enter, hhead]
    rfl
  exact (ReadingFault.expression.inj (Except.error.inj (hread.symm.trans h))).symm

/-- A fault of an expression that is not empty names the whole expression and one of its characters. -/
theorem exists_character_of_read {source : List Char} (hne : source ≠ []) {fault : ExpressionFault}
    (h : read source = .error (.expression fault)) :
    fault.source = String.ofList source ∧ ∃ i : Nat, fault.position = i ∧ i < source.length := by
  cases hblank : allBlank source with
  | true =>
    obtain rfl := fault_of_allBlank hblank h
    exact ⟨rfl, 0, rfl, List.length_pos_iff.mpr hne⟩
  | false =>
    have hlocated : Located source fault := by
      cases faultsAt_of_read h with
      | opening hopens henter =>
        rcases bind_eq_error_iff.mp henter with hread | ⟨head, hhead, hrest⟩
        · exact located_of_read hblank hopens hread
        · rcases bind_eq_error_iff.mp hrest with hsplit | ⟨fragments, -, hopened⟩
          · exact located_of_split hopens hhead hsplit
          · contradiction
      | literal hsplits hcall hread => exact located_of_literal hsplits hcall hread
    obtain ⟨i, hi⟩ := Int.eq_ofNat_of_zero_le hlocated.nonneg
    have hlt := hlocated.lt_length
    exact ⟨hlocated.source_eq, i, hi, by omega⟩

/-- So does a fault of a text that should be a bare name. -/
theorem exists_character_of_readBareName {source : List Char} (hne : source ≠ []) {fault : ExpressionFault}
    (h : readBareName source = .error (.expression fault)) :
    fault.source = String.ofList source ∧ ∃ i : Nat, fault.position = i ∧ i < source.length := by
  rw [readBareName_eq_ite] at h
  split at h
  · contradiction
  split at h
  · next hbracket =>
    obtain rfl := ReadingFault.expression.inj (Except.error.inj h)
    refine ⟨rfl, (source.takeWhile fun c => decide (c ≠ '(')).length, rfl, ?_⟩
    have hbefore := List.takeWhile_prefix (fun c => decide (c ≠ '(')) (l := source)
    refine Nat.lt_of_le_of_ne hbefore.length_le fun hlength => ?_
    have hall := List.takeWhile_eq_self_iff.mp (hbefore.eq_of_length hlength)
    exact absurd (hall '(' hbracket) (by decide)
  · obtain rfl := ReadingFault.expression.inj (Except.error.inj h)
    exact ⟨rfl, 0, rfl, List.length_pos_iff.mpr hne⟩

/-- The report of a fault shows the message, the expression behind a margin, and a caret in a line of its
own. The fault is at a character of the expression, and the caret stands directly below it, on the next line
and in the same column, if and only if the expression has no line break, whatever characters break lines. -/
theorem caret_below_iff {breaks : List Char} (hfeed : '\n' ∈ breaks) (hblank : ' ' ∉ breaks)
    {expression : String} (hne : expression ≠ "") {fault : ExpressionFault}
    (h : parse expression = .error (.expression fault) ∨
      readBareName expression.toList = .error (.expression fault)) :
    fault.source = expression ∧ ∃ i : Nat, fault.position = i ∧ i < expression.toList.length ∧
      fault.report = fault.message ++ "\n  " ++ expression ++ "\n  " ++
        String.ofList (List.replicate i ' ' ++ ['^']) ∧
      fault.report.toList[fault.message.toList.length + 3 + i]? = expression.toList[i]? ∧
      (IsBelow breaks fault.report.toList (fault.message.toList.length + 3 + i)
        (fault.report.toList.length - 1) ↔ ∀ d ∈ expression.toList, d ∉ breaks) := by
  have hchars : expression.toList ≠ [] := fun hnil => hne (String.toList_eq_nil_iff.mp hnil)
  obtain ⟨hsource, i, hposition, hi⟩ := h.elim (exists_character_of_read hchars)
    (exists_character_of_readBareName hchars)
  rw [String.ofList_toList] at hsource
  have hnonempty : fault.source ≠ "" := hsource ▸ hne
  have hreport := ExpressionFault.toList_report hnonempty
  rw [hsource, hposition, Int.toNat_natCast] at hreport
  have hshown : fault.message.toList.length + 3 + i =
      fault.message.toList.length + (1 + ExpressionFault.shownAt i) := by
    rw [ExpressionFault.shownAt]
    omega
  have hcaret : fault.report.toList.length - 1 =
      fault.message.toList.length + (1 + ExpressionFault.caretAt expression.toList.length i) := by
    rw [hreport]
    simp [ExpressionFault.caretAt, ExpressionFault.display, ExpressionFault.caretLine]
    omega
  refine ⟨hsource, i, hposition, hi, ?_, ?_, ?_⟩
  · rw [ExpressionFault.report, if_neg hnonempty, hsource, hposition]
    rfl
  · rw [hshown, hreport, List.getElem?_append_right (Nat.le_add_right _ _), Nat.add_sub_cancel_left,
      Nat.add_comm 1, List.getElem?_cons_succ, ExpressionFault.getElem?_display hi]
  · rw [hcaret, hshown, hreport, isBelow_append_cons hfeed,
      ExpressionFault.isBelow_display_iff hfeed hblank hi]

/-- On one line the caret stands below the comma that comes too early. -/
theorem caret_below_comma :
    parse "A(1,,2)" = .error (.expression ⟨.malformed .emptyArgument, "A(1,,2)", 4⟩) ∧
      IsBelow lineBreaks "Empty argument\n  A(1,,2)\n      ^".toList 21 31 := by
  have hparse : parse "A(1,,2)" = .error (.expression ⟨.malformed .emptyArgument, "A(1,,2)", 4⟩) :=
    Option.some.inj ((readWithin_length _).symm.trans rfl)
  have hsingle : ∀ d ∈ "A(1,,2)".toList, d ∉ lineBreaks := forall_not_mem_lineBreaks (by decide)
  obtain ⟨-, i, hposition, -, -, -, hbelow⟩ :=
    @caret_below_iff lineBreaks (by decide) (by decide) _ (by decide) _ (Or.inl hparse)
  obtain rfl : 4 = i := Int.ofNat.inj hposition
  exact ⟨hparse, hbelow.mpr hsingle⟩

/-- With a line break before a number that is none, the caret stands five columns to the right of it. -/
theorem caret_not_below_number :
    parse "A(\n1x)" = .error (.expression ⟨.number "1x" "int", "A(\n1x)", 3⟩) ∧
      ExpressionFault.report ⟨.number "1x" "int", "A(\n1x)", 3⟩ =
        "Invalid int literal: '1x'\n  A(\n1x)\n     ^" ∧
      "Invalid int literal: '1x'\n  A(\n1x)\n     ^".toList[31]? = some '1' ∧
      columnOf lineBreaks "Invalid int literal: '1x'\n  A(\n1x)\n     ^".toList 31 = 0 ∧
      "Invalid int literal: '1x'\n  A(\n1x)\n     ^".toList[40]? = some '^' ∧
      columnOf lineBreaks "Invalid int literal: '1x'\n  A(\n1x)\n     ^".toList 40 = 5 ∧
      ¬IsBelow lineBreaks "Invalid int literal: '1x'\n  A(\n1x)\n     ^".toList 31 40 := by
  have hparse : parse "A(\n1x)" = .error (.expression ⟨.number "1x" "int", "A(\n1x)", 3⟩) :=
    Option.some.inj ((readWithin_length _).symm.trans rfl)
  refine ⟨hparse, by decide, by decide, by decide, by decide, by decide, fun hbelow => ?_⟩
  exact absurd hbelow.column (by decide)

end Call

end DriverPolicy
