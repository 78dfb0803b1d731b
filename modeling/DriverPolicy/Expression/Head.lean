import DriverPolicy.Expression.Fault
import DriverPolicy.Text.Blank
import DriverPolicy.Text.Letter

/-!
# The outer shape of a call

A call is a name, optionally followed by a bracketed text, with blanks anywhere around them.
The text is everything between the first bracket and the last one, which must end the call.
Nothing inside the brackets is looked at.
-/

namespace DriverPolicy

/-- The name of a call, the text between its brackets and where that text starts. -/
structure Head where
  /-- The name. -/
  name : List Char
  /-- The text between the outer brackets; empty without brackets. -/
  arguments : List Char
  /-- The position of the arguments in the whole expression. -/
  offset : Int
deriving DecidableEq, Repr

namespace Head

/-- The expression that faults are reported against: the text itself if none is given. -/
def sourceOr (source text : List Char) : List Char := if source = [] then text else source

/-- The length of the longest start of a text made of blanks, a name and blanks. -/
def prefixLength (text : List Char) : Nat :=
  let afterBlanks := text.dropWhile isBlank
  let afterName := afterBlanks.dropWhile isNameChar
  text.length - (afterName.dropWhile isBlank).length

/-- The text between brackets when `rest` opens with one and its last character that is not
blank closes it. -/
def bracketed? : List Char → Option (List Char)
  | '(' :: rest =>
    match (rest.reverse.dropWhile isBlank) with
    | ')' :: inside => some inside.reverse
    | _ => none
  | _ => none

/-- Read the outer shape of a call that stands at `offset` in the expression `source`. -/
def read (text source : List Char) (offset : Int) : Except ReadingFault Head :=
  let source := sourceOr source text
  if allBlank text then malformed .emptyExpression source offset
  else
    let unblanked := text.dropWhile isBlank
    let name := unblanked.takeWhile isNameChar
    let rest := (unblanked.dropWhile isNameChar).dropWhile isBlank
    let notACall :=
      malformed (.notACall (String.ofList (trim text))) source (offset + prefixLength text)
    if name = [] then notACall
    else if rest = [] then .ok ⟨name, [], offset + text.length⟩
    else
      match bracketed? rest with
      | some arguments => .ok ⟨name, arguments, offset + prefixLength text + 1⟩
      | none => notACall

/-- The text between brackets is at least two characters shorter. -/
theorem length_of_bracketed? {rest arguments : List Char} (h : bracketed? rest = some arguments) :
    arguments.length + 2 ≤ rest.length := by
  unfold bracketed? at h
  split at h
  · rename_i tail
    split at h
    · rename_i inside hinside
      obtain rfl := Option.some.inj h
      have := (List.dropWhile_sublist isBlank (l := tail.reverse)).length_le
      rw [hinside] at this
      simp only [List.length_cons, List.length_reverse] at this ⊢
      omega
    · contradiction
  · contradiction

/-- Arguments are at least three characters shorter than the call, or there are none. -/
theorem length_arguments_of_read {text source : List Char} {offset : Int} {head : Head}
    (h : read text source offset = .ok head) :
    head.arguments = [] ∨ head.arguments.length + 3 ≤ text.length := by
  unfold read at h
  simp only at h
  split at h
  · simp [malformed] at h
  · split at h
    · simp [malformed] at h
    · rename_i hname
      split at h
      · obtain rfl := Except.ok.inj h
        exact Or.inl rfl
      · split at h
        · rename_i arguments hbracketed
          obtain rfl := Except.ok.inj h
          refine Or.inr ?_
          have h1 := length_of_bracketed? hbracketed
          have h2 := (List.dropWhile_sublist isBlank
            (l := (text.dropWhile isBlank).dropWhile isNameChar)).length_le
          have h3 : ((text.dropWhile isBlank).takeWhile isNameChar).length +
              ((text.dropWhile isBlank).dropWhile isNameChar).length =
              (text.dropWhile isBlank).length := by
            rw [← List.length_append, List.takeWhile_append_dropWhile]
          have h4 := (List.dropWhile_sublist isBlank (l := text)).length_le
          have h5 : 0 < ((text.dropWhile isBlank).takeWhile isNameChar).length :=
            List.length_pos_iff.mpr hname
          simp only
          omega
        · simp [malformed] at h

end Head

end DriverPolicy
