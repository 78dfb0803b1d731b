import DriverPolicy.Proofs.Expression.Descent
import DriverPolicy.Proofs.Expression.Shape
import DriverPolicy.Proofs.Expression.Spelling

/-!
# Places in trees and texts

A place is a list of indices. In a tree it leads from an argument to one of its own arguments, to one of
that one's, and so on; in a text it leads in the same way through the pieces that the text of a call is
split into, which is done anew at every step. What a tree holds at a place is what the text at that place
means by itself, so a statement about the arguments of a tree, however deep, is one about single pieces
of text.
-/

namespace DriverPolicy

/-- The argument at a place below an argument; the empty place is its own. -/
def Argument.at? : Argument → List Nat → Option Argument
  | argument, [] => some argument
  | .literal _, _ :: _ => none
  | .call _ arguments, i :: place => arguments[i]?.bind fun argument => argument.at? place

/-- The pieces that a piece is split into as the text of a call; there are none if it is no such text. -/
def Fragment.pieces (source : List Char) (fragment : Fragment) : List Fragment :=
  match Head.read fragment.text source fragment.position with
  | .error _ => []
  | .ok head =>
    match Fragment.split head.arguments source head.offset with
    | .error _ => []
    | .ok fragments => fragments

/-- The piece at a place below a piece of the expression `source`; the empty place is its own. -/
def Fragment.at? (source : List Char) : Fragment → List Nat → Option Fragment
  | fragment, [] => some fragment
  | fragment, i :: place => (fragment.pieces source)[i]?.bind fun piece => piece.at? source place

/-- A text with the outer shape of a call that is no nested call has no brackets, so there is nothing
between them, and no quotes. -/
theorem Head.Shows.bare_of_isCallFragment {text : List Char} {offset : Int} {head : Head}
    (h : Head.Shows text offset head) (hliteral : isCallFragment text = false) :
    head.arguments = [] ∧ text.any isQuote = false := by
  have hblank {blanks : List Char} (h : allBlank blanks) : ∀ c ∈ blanks, isOrdinary c :=
    fun c hc => isOrdinary_of_isBlank (List.all_eq_true.mp h c hc)
  have hname {name : List Char} (h : IsName name) : ∀ c ∈ name, isOrdinary c :=
    fun c hc => isOrdinary_of_isNameChar (h.chars c hc)
  cases h with
  | @bare before name after hbefore hisName hafter htext =>
    have hall : ∀ c ∈ before ++ (name ++ after), isOrdinary c :=
      List.forall_mem_append.mpr ⟨hblank hbefore,
        List.forall_mem_append.mpr ⟨hname hisName, hblank hafter⟩⟩
    refine ⟨rfl, List.any_eq_false.mpr fun c hc => ?_⟩
    rw [isQuote_of_isOrdinary (hall c (htext ▸ hc))]
    exact Bool.false_ne_true
  | @bracketed before name gap inside after hbefore hisName hgap hafter htext =>
    have hcall : isCallFragment ((before ++ name) ++ (gap ++ '(' :: (inside ++ ')' :: after))) :=
      isCallFragment_append (by simp [hisName.nonempty])
        (List.forall_mem_append.mpr ⟨hblank hbefore, hname hisName⟩) (by simp)
    rw [List.append_assoc, htext, hliteral] at hcall
    contradiction

namespace Fragment

variable {source : List Char} {fragment : Fragment}

/-- The pieces of the text of a call mean its arguments. -/
theorem pieces_of_meaning {call : Call}
    (h : Call.meaning source fragment.text fragment.position = .ok call) :
    List.Forall₂ (fun piece argument => Argument.meaning source piece = .ok argument)
      (fragment.pieces source) call.arguments := by
  rw [Call.meaning_eq] at h
  obtain ⟨head, hhead, h⟩ := bind_eq_ok_iff.mp h
  obtain ⟨fragments, hsplit, h⟩ := bind_eq_ok_iff.mp h
  obtain ⟨arguments, hall, h⟩ := bind_eq_ok_iff.mp h
  obtain rfl := Except.ok.inj h
  have hpieces : fragment.pieces source = fragments := by simp only [pieces, hhead, hsplit]
  rw [hpieces]
  exact mapM_eq_ok_iff.mp hall

/-- A piece that is no nested call has no pieces. -/
theorem pieces_of_isCallFragment (h : isCallFragment fragment.text = false) :
    fragment.pieces source = [] := by
  unfold pieces
  cases hhead : Head.read fragment.text source fragment.position with
  | error _ => rfl
  | ok head =>
    obtain ⟨hnone, -⟩ := (Head.read_eq_ok_iff.mp hhead).bare_of_isCallFragment h
    simp [hnone, split, allBlank]

/-- At a place an argument holds what the piece at that place means by itself, and it holds nothing
there if there is no such piece. -/
def MeansAt (source : List Char) (fragment : Fragment) (argument : Argument) (place : List Nat) : Prop :=
  ∀ found, argument.at? place = some found ↔
    ∃ piece, fragment.at? source place = some piece ∧ Argument.meaning source piece = .ok found

/-- Below a call, the places begin with the index of an argument and go on within that. -/
theorem meansAt_call {call : Call} (h : Call.meaning source fragment.text fragment.position = .ok call)
    {place : List Nat} (hplace : ∀ {piece : Fragment} {argument : Argument},
      Argument.meaning source piece = .ok argument → MeansAt source piece argument place) (i : Nat) :
    MeansAt source fragment call.toArgument (i :: place) := by
  obtain ⟨hlength, hmeaning⟩ := List.forall₂_iff_get.mp (pieces_of_meaning h)
  intro found
  by_cases hi : i < call.arguments.length
  · have hpiece : (fragment.pieces source)[i]? = some (fragment.pieces source)[i] :=
      List.getElem?_eq_getElem (hlength ▸ hi)
    have hargument : call.arguments[i]? = some call.arguments[i] := List.getElem?_eq_getElem hi
    simpa only [Call.toArgument, Argument.at?, at?, hpiece, hargument, Option.bind_some,
      List.get_eq_getElem] using
      hplace (hmeaning i (hlength ▸ hi) hi) found
  · have hpiece : (fragment.pieces source)[i]? = none :=
      List.getElem?_eq_none (hlength ▸ Nat.le_of_not_lt hi)
    have hargument : call.arguments[i]? = none := List.getElem?_eq_none (Nat.le_of_not_lt hi)
    simp [Call.toArgument, Argument.at?, at?, hpiece, hargument]

/-- An argument holds at every place what the piece at that place means. -/
theorem meansAt_of_meaning {argument : Argument} (h : Argument.meaning source fragment = .ok argument)
    (place : List Nat) : MeansAt source fragment argument place := by
  induction place generalizing fragment argument with
  | nil =>
    intro found
    simp [Argument.at?, at?, h]
  | cons i place ih =>
    rw [Argument.meaning, Argument.readWith] at h
    by_cases hcall : isCallFragment fragment.text
    · rw [if_pos hcall] at h
      obtain ⟨call, hmeaning, rfl⟩ := map_eq_ok_iff.mp h
      exact meansAt_call hmeaning ih i
    · rw [if_neg hcall] at h
      obtain ⟨value, -, rfl⟩ := map_eq_ok_iff.mp h
      have hnone : fragment.pieces source = [] :=
        pieces_of_isCallFragment (Bool.not_eq_true _ ▸ hcall)
      simp [MeansAt, Argument.at?, at?, hnone]

end Fragment

/-- The arguments of a tree, at all places below its root, are what the pieces at these places of the
expression mean. -/
theorem Call.meansAt_of_parse {expression : String} {call : Call} (h : parse expression = .ok call)
    (i : Nat) (place : List Nat) :
    Fragment.MeansAt expression.toList ⟨expression.toList, 0⟩ call.toArgument (i :: place) := by
  rw [parse, read_eq_meaning] at h
  exact Fragment.meansAt_call h (fun hpiece => Fragment.meansAt_of_meaning hpiece place) i

end DriverPolicy
