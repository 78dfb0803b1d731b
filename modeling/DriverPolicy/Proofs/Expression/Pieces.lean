import DriverPolicy.Proofs.Expression.Scan
import DriverPolicy.Proofs.Expression.Shape

/-!
# Pieces and where they stand

The text between the brackets of a call is cut at the unquoted commas outside all brackets. Each
piece is an argument with blanks around it, and the position of the argument is counted from where
the whole text stands. Where the text cannot be cut, the position that is reported is that of a
closing bracket, of a blank piece, or of the end of the text.

A text that stands somewhere in an expression therefore has its arguments at the positions that
they carry.
-/

namespace DriverPolicy

/-- A text stands in another one at a position: so many characters come before it. -/
def StandsAt (source text : List Char) (position : Int) : Prop :=
  ∃ before after, before ++ text ++ after = source ∧ (before.length : Int) = position

namespace StandsAt

variable {source text : List Char} {position : Int}

/-- A text stands in itself at the beginning. -/
theorem refl (text : List Char) : StandsAt text text 0 := ⟨[], [], by simp, rfl⟩

/-- The first part of a text stands where the text does. -/
theorem left {after : List Char} (h : StandsAt source (text ++ after) position) :
    StandsAt source text position := by
  obtain ⟨front, back, rfl, rfl⟩ := h
  exact ⟨front, after ++ back, by simp, rfl⟩

/-- The last part of a text stands as far behind it as what comes before is long. -/
theorem right {before : List Char} (h : StandsAt source (before ++ text) position) :
    StandsAt source text (position + before.length) := by
  obtain ⟨front, back, rfl, rfl⟩ := h
  exact ⟨front ++ before, back, by simp, by simp⟩

/-- No part of a text stands before its beginning or reaches beyond its end. -/
theorem bounds (h : StandsAt source text position) :
    0 ≤ position ∧ position + text.length ≤ source.length := by
  obtain ⟨before, after, rfl, rfl⟩ := h
  simp only [List.length_append]
  omega

/-- Faults in a part of an expression are reported against the expression. -/
theorem sourceOr_eq (h : StandsAt source text position) : Head.sourceOr source text = source := by
  unfold Head.sourceOr
  split
  · next hsource =>
    obtain ⟨before, after, rfl, -⟩ := h
    simp only [List.append_eq_nil_iff] at hsource
    rw [hsource.1.1, hsource.1.2, hsource.2, List.append_nil]
    rfl
  · rfl

end StandsAt

namespace Head.Shows

variable {source text : List Char} {offset : Int} {head : Head}

/-- Arguments that are not blank stand where the shape says, and the closing bracket behind them. -/
theorem standsAt_closed (h : Head.Shows text offset head) (hstands : StandsAt source text offset)
    (hblank : ¬allBlank head.arguments) :
    StandsAt source (head.arguments ++ [')']) head.offset := by
  cases h with
  | bare => exact absurd allBlank_nil hblank
  | @bracketed before name gap inside after hbefore hname hgap hafter htext =>
    have hparts : before ++ name ++ gap ++ ['('] ++ (inside ++ [')']) ++ after = text := by
      simpa using htext
    have hposition : offset + ((before ++ name ++ gap ++ ['(']).length : Int) =
        offset + (before.length + name.length + gap.length) + 1 := by
      simp only [List.length_append, List.length_singleton]
      omega
    rw [← hparts] at hstands
    exact hposition ▸ hstands.left.right

end Head.Shows

namespace Fragment

/-- An argument is what a raw piece holds between the blanks at its ends. -/
structure TrimmedFrom (raw : List Char) (start : Int) (fragment : Fragment) : Prop where
  solid : Solid fragment.text
  placed : ∃ before after, allBlank before ∧ allBlank after ∧
    before ++ fragment.text ++ after = raw ∧ start + before.length = fragment.position

/-- Closing a piece comes to the argument that it holds, unless the piece is blank. -/
theorem close_cases (source raw : List Char) (start : Int) :
    (∃ fragment, close source raw start = .ok fragment ∧ TrimmedFrom raw start fragment) ∨
      allBlank raw ∧ close source raw start = malformed .emptyArgument source start := by
  by_cases hblank : allBlank raw
  · exact Or.inr ⟨hblank, by simp [close, ofRaw?, hblank]⟩
  · obtain ⟨hsolid, after, hafter, hraw⟩ := exists_eq_trim_append (Bool.not_eq_true _ ▸ hblank)
    refine Or.inl ⟨⟨trim raw, start + (raw.takeWhile isBlank).length⟩, ?_, hsolid, ?_⟩
    · simp [close, ofRaw?, hblank]
    · exact ⟨raw.takeWhile isBlank, after, List.all_takeWhile, hafter, hraw.symm, rfl⟩

/-- Marked characters, of which the first stands at a position, fall into pieces at unquoted commas,
and each piece holds an argument. -/
inductive Cuts : Int → List (Char × Bool) → List Fragment → Prop
  | last {start : Int} {piece : List (Char × Bool)} {fragment : Fragment}
      (h : TrimmedFrom (piece.map Prod.fst) start fragment) : Cuts start piece [fragment]
  | more {start : Int} {piece rest : List (Char × Bool)} {fragment : Fragment}
      {fragments : List Fragment} (h : TrimmedFrom (piece.map Prod.fst) start fragment)
      (hrest : Cuts (start + piece.length + 1) rest fragments) :
      Cuts start (piece ++ (',', false) :: rest) (fragment :: fragments)

/-- The argument of a piece stands where its position says. -/
theorem TrimmedFrom.standsAt {source raw : List Char} {start : Int} {fragment : Fragment}
    (h : TrimmedFrom raw start fragment) (hstands : StandsAt source raw start) :
    StandsAt source fragment.text fragment.position := by
  obtain ⟨before, after, -, -, rfl, hposition⟩ := h.placed
  exact hposition ▸ hstands.left.right

/-- So do the arguments of all pieces. -/
theorem Cuts.standsAt {source : List Char} {start : Int} {marked : List (Char × Bool)}
    {fragments : List Fragment} (h : Cuts start marked fragments)
    (hstands : StandsAt source (marked.map Prod.fst) start) :
    ∀ fragment ∈ fragments, StandsAt source fragment.text fragment.position := by
  induction h with
  | last htrimmed =>
    intro fragment hmem
    obtain rfl := List.mem_singleton.mp hmem
    exact htrimmed.standsAt hstands
  | @more start piece rest first fragments htrimmed hrest ih =>
    rw [List.map_append, List.map_cons] at hstands
    intro fragment hmem
    rcases List.mem_cons.mp hmem with rfl | hmem
    · exact htrimmed.standsAt hstands.left
    · rw [List.append_cons] at hstands
      have hposition : start + ((piece.map Prod.fst ++ [',']).length : Int) =
          start + piece.length + 1 := by
        simp only [List.length_append, List.length_map, List.length_singleton]
        omega
      exact ih (hposition ▸ hstands.right) fragment hmem

/-- No argument of a piece is empty or has blanks at its ends. -/
theorem Cuts.solid {start : Int} {marked : List (Char × Bool)} {fragments : List Fragment}
    (h : Cuts start marked fragments) : ∀ fragment ∈ fragments, Solid fragment.text := by
  induction h with
  | last htrimmed =>
    intro fragment hmem
    exact List.mem_singleton.mp hmem ▸ htrimmed.solid
  | more htrimmed hrest ih =>
    intro fragment hmem
    rcases List.mem_cons.mp hmem with rfl | hmem
    · exact htrimmed.solid
    · exact ih fragment hmem

/-- What keeps marked characters from being cut, and where: an unquoted closing bracket; the end,
because of a bracket that is open there; or a blank piece, which begins where the characters do or
behind an unquoted comma, and ends before one or where the characters do. -/
inductive Breaks (offset : Int) (marked : List (Char × Bool)) : Malformation → Int → Prop
  | unbalancedClose {before after : List (Char × Bool)}
      (h : before ++ (')', false) :: after = marked) :
      Breaks offset marked .unbalancedClose (offset + before.length)
  | unclosedOpen : Breaks offset marked .unclosedOpen (offset + marked.length)
  | emptyArgument {before piece after : List (Char × Bool)} (h : before ++ piece ++ after = marked)
      (hbefore : ∀ m ∈ before.getLast?, m = (',', false)) (hblank : allBlank (piece.map Prod.fst))
      (hafter : ∀ m ∈ after.head?, m = (',', false)) :
      Breaks offset marked .emptyArgument (offset + before.length)

/-- The position that is reported lies among the characters, or at their end. -/
theorem Breaks.exists_append {offset position : Int} {marked : List (Char × Bool)}
    {what : Malformation} (h : Breaks offset marked what position) :
    ∃ front back, front ++ back = marked ∧ offset + front.length = position := by
  cases h with
  | unbalancedClose h => exact ⟨_, _, h, rfl⟩
  | unclosedOpen => exact ⟨_, [], List.append_nil _, rfl⟩
  | emptyArgument h => exact ⟨_, _, (List.append_assoc _ _ _).symm.trans h, rfl⟩

/-- What cutting marked characters from `start` on comes to, behind characters that are cut already:
arguments, or what keeps all these characters from being cut. -/
def CutOutcome (source : List Char) (offset start : Int) (before marked : List (Char × Bool)) :
    Except ReadingFault (List Fragment) → Prop
  | .ok fragments => Cuts start marked fragments
  | .error fault => ∃ what position, Breaks offset (before ++ marked) what position ∧
      fault = .expression ⟨.malformed what, String.ofList source, position⟩

namespace CutOutcome

variable {source : List Char} {offset start : Int} {before piece rest : List (Char × Bool)}

/-- At the end of the characters the last piece is closed. -/
theorem last (hbefore : ∀ m ∈ before.getLast?, m = (',', false))
    (hstart : start = offset + before.length) :
    CutOutcome source offset start before piece (do
      let fragment ← close source (piece.map Prod.fst) start
      return [fragment]) := by
  rcases close_cases source (piece.map Prod.fst) start with ⟨fragment, hclosed, htrimmed⟩ |
    ⟨hblank, hclosed⟩
  · rw [hclosed]
    exact Cuts.last htrimmed
  · rw [hclosed, hstart]
    exact ⟨_, _, .emptyArgument (List.append_nil _) hbefore hblank (by simp), rfl⟩

/-- At a comma a piece is closed, and the rest is cut behind it. -/
theorem more {result : Except ReadingFault (List Fragment)}
    (hbefore : ∀ m ∈ before.getLast?, m = (',', false)) (hstart : start = offset + before.length)
    (hrest : CutOutcome source offset (start + piece.length + 1) (before ++ piece ++ [(',', false)])
      rest result) :
    CutOutcome source offset start before (piece ++ (',', false) :: rest) (do
      let fragment ← close source (piece.map Prod.fst) start
      let fragments ← result
      return fragment :: fragments) := by
  rcases close_cases source (piece.map Prod.fst) start with ⟨fragment, hclosed, htrimmed⟩ |
    ⟨hblank, hclosed⟩
  · rw [hclosed, ok_bind]
    cases result with
    | ok fragments => exact Cuts.more htrimmed hrest
    | error fault =>
      obtain ⟨what, position, hbreaks, rfl⟩ := hrest
      exact ⟨what, position, by simpa using hbreaks, rfl⟩
  · rw [hclosed, hstart]
    exact ⟨_, _, .emptyArgument (List.append_assoc _ _ _) hbefore hblank (by simp), rfl⟩

end CutOutcome

/-- What cutting comes to when `before` is cut already and `piece` is being read. -/
theorem cutOutcome_cut (source : List Char) {offset start : Int} (depth : Nat)
    {before piece : List (Char × Bool)} (rest : List (Char × Bool))
    (hbefore : ∀ m ∈ before.getLast?, m = (',', false)) (hstart : start = offset + before.length) :
    CutOutcome source offset start before (piece ++ rest)
      (cut source depth start (piece.map Prod.fst).reverse rest) := by
  have hlength : ((piece.map Prod.fst).reverse.length : Int) = piece.length := by simp
  have hposition : start + piece.length = offset + (before ++ piece).length := by
    rw [hstart, List.length_append]
    omega
  induction rest generalizing start depth before piece with
  | nil =>
    rw [cut, List.reverse_reverse, List.append_nil, hlength, hposition]
    split
    · exact ⟨_, _, .unclosedOpen, rfl⟩
    · exact .last hbefore hstart
  | cons m rest ih =>
    obtain ⟨c, isQuoted⟩ := m
    -- where the character does not end the piece, it becomes part of it
    have hnext (depth : Nat) : CutOutcome source offset start before (piece ++ (c, isQuoted) :: rest)
        (cut source depth start (c :: (piece.map Prod.fst).reverse) rest) := by
      have := @ih start depth before (piece ++ [(c, isQuoted)]) hbefore hstart (by simp)
        (by simp only [List.length_append] at hposition ⊢; omega)
      simpa using this
    rw [cut]
    split
    · exact hnext depth
    · next hquoted =>
      obtain rfl : isQuoted = false := Bool.not_eq_true _ ▸ hquoted
      split
      · exact hnext (depth + 1)
      · split
        · next hbracket =>
          subst hbracket
          split
          · rw [hlength, hposition]
            exact ⟨_, _, .unbalancedClose (List.append_assoc _ _ _), rfl⟩
          · exact hnext (depth - 1)
        · split
          · next hcomma =>
            obtain ⟨rfl, -⟩ : c = ',' ∧ depth = 0 := by simpa using hcomma
            rw [hlength, List.reverse_reverse]
            refine .more hbefore hstart ?_
            have hstart' : start + piece.length + 1 =
                offset + (before ++ piece ++ [(',', false)]).length := by
              simp only [List.length_append, List.length_singleton] at hposition ⊢
              omega
            exact @ih _ 0 _ [] (by simp) hstart' (by simp) (by simp [hstart'])
          · exact hnext depth

/-- What splitting the text between the brackets of a call comes to, if it is not blank. -/
theorem cutOutcome_split {arguments : List Char} (source : List Char) (offset : Int)
    (hblank : ¬allBlank arguments) :
    CutOutcome (Head.sourceOr source arguments) offset offset [] (shield none arguments)
      (split arguments source offset) := by
  rw [split, if_neg hblank]
  exact @cutOutcome_cut _ offset offset 0 [] [] _ (by simp) (by simp)

end Fragment

end DriverPolicy
