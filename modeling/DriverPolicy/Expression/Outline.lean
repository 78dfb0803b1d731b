import DriverPolicy.Expression.Call

/-!
# Outlines of call trees

An outline shows a tree in pre-order, one line for each call and each literal, indented by
two blanks for every level. The lines come from a list of what is still to be shown: the
arguments of a call are put in front of it.
-/

namespace DriverPolicy

namespace Argument

/-- What the line of an argument shows: a call's name, or a literal's value and kind. -/
def caption : Argument → String
  | literal value => s!"{value.text} ({value.kind.name})"
  | call name _ => name

/-- The line of an argument at a level. -/
def line (level : Nat) (argument : Argument) : String :=
  String.ofList (List.replicate (2 * level) ' ') ++ argument.caption

/-- The arguments below an argument. -/
def inner : Argument → List Argument
  | literal _ => []
  | call _ arguments => arguments

/-- The size of arguments in sequence is the sum of their sizes. -/
theorem sizeAll_append (as bs : List Argument) : sizeAll (as ++ bs) = sizeAll as + sizeAll bs := by
  induction as with
  | nil => simp [sizeAll]
  | cons a as ih => simp [sizeAll, ih, Nat.add_assoc]

/-- An argument has one node more than the arguments below it. -/
theorem sizeAll_inner (argument : Argument) : sizeAll argument.inner + 1 = argument.size := by
  cases argument <;> simp [inner, size, sizeAll, Nat.add_comm]

/-- The lines of everything still to be shown, with the level of each. -/
def outlineOf : List (Nat × Argument) → List String
  | [] => []
  | (level, argument) :: rest =>
    argument.line level :: outlineOf (argument.inner.map (level + 1, ·) ++ rest)
termination_by pending => sizeAll (pending.map (·.2))
decreasing_by
  have := sizeAll_inner argument
  simp only [List.map_append, List.map_map, List.map_cons, sizeAll_append, sizeAll]
  have hmap : argument.inner.map ((·.2) ∘ (level + 1, ·)) = argument.inner := by
    simp [Function.comp_def]
  rw [hmap]
  omega

end Argument

/-- The outline of a call. -/
def Call.outline (call : Call) : List String := Argument.outlineOf [(0, call.toArgument)]

end DriverPolicy
