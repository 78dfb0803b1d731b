import DriverPolicy.Text.Letter

/-!
# Control sequences

A control sequence tells a terminal to colour what follows or to move the cursor: an escape
character, an opening square bracket, digits, semicolons and question marks, and a Latin letter.
Text that is printed elsewhere than on a terminal is printed without them. They are taken out
in one go, from left to right, so what stood around one stays even if it looks like another.
-/

namespace DriverPolicy

/-- Whether a character may stand between the bracket and the letter of a control sequence. -/
def isControlParameter (c : Char) : Bool := ('0' ≤ c && c ≤ '9') || c = ';' || c = '?'

/-- The length of the control sequence at the start of a text; zero if there is none. -/
def controlLength : List Char → Nat
  | '\x1b' :: '[' :: rest =>
    match rest.dropWhile isControlParameter with
    | c :: _ => if isLetter c then (rest.takeWhile isControlParameter).length + 3 else 0
    | [] => 0
  | _ => 0

/-- The characters of a text outside of control sequences, where the first `inside` characters
belong to one. -/
def outsideControls (inside : Nat) : List Char → List Char
  | [] => []
  | c :: rest =>
    match inside with
    | inside + 1 => outsideControls inside rest
    | 0 =>
      match controlLength (c :: rest) with
      | length + 1 => outsideControls length rest
      | 0 => c :: outsideControls 0 rest

/-- A text without its control sequences. -/
def withoutControls (text : String) : String := String.ofList (outsideControls 0 text.toList)

/-- A control sequence begins with an escape character. -/
theorem controlLength_of_ne {c : Char} {rest : List Char} (h : c ≠ '\x1b') :
    controlLength (c :: rest) = 0 := by
  unfold controlLength
  split
  · rename_i heq
    exact absurd (List.cons.inj heq).1 h
  · rfl

end DriverPolicy
