import DriverPolicy.Number.Decimal

/-!
# Faults in the text of an expression

A fault names what is wrong, the whole expression and the position in it, counted in
characters from zero. Its report shows the message, the expression and a caret below the
position. One more failure is no fault of the text: a numeral may have more digits than an
integer conversion takes.
-/

namespace DriverPolicy

/-- What is wrong with the shape of an expression. -/
inductive Malformation where
  | emptyExpression
  | notACall (text : String)
  | unbalancedClose
  | emptyArgument
  | unclosedOpen
  | takesNoArguments (text : String)
  | notAPolicyName (text : String)
  | stated (message : String)
deriving DecidableEq, Repr

/-- The message of a malformation. -/
def Malformation.message : Malformation → String
  | emptyExpression => "Empty expression"
  | notACall text => s!"Not a call expression: '{text}'"
  | unbalancedClose => "Unbalanced ')'"
  | emptyArgument => "Empty argument"
  | unclosedOpen => "Unclosed '('"
  | takesNoArguments text => s!"Retry policies take no arguments: '{text}'"
  | notAPolicyName text => s!"Not a policy name: '{text}'"
  | stated message => message

/-- What is wrong with an expression: its shape, a number of a kind, or a stated reason. -/
inductive Defect where
  | malformed (malformation : Malformation)
  | number (literal kind : String)
  | stated (message : String)
deriving DecidableEq, Repr

/-- The message of a defect. -/
def Defect.message : Defect → String
  | malformed malformation => malformation.message
  | number literal kind => s!"Invalid {kind} literal: '{literal}'"
  | stated message => message

/-- A defect and where it lies. -/
structure ExpressionFault where
  /-- What is wrong. -/
  defect : Defect
  /-- The whole expression. -/
  source : String
  /-- The position of the defect, from zero. -/
  position : Int
deriving DecidableEq, Repr

namespace ExpressionFault

/-- The message of a fault. -/
def message (fault : ExpressionFault) : String := fault.defect.message

/-- The column of a fault, from one. -/
def column (fault : ExpressionFault) : Int := fault.position + 1

/-- The message, the expression and a caret below the position. -/
def report (fault : ExpressionFault) : String :=
  if fault.source = "" then fault.message
  else
    let caret := String.ofList (List.replicate fault.position.toNat ' ' ++ ['^'])
    fault.message ++ "\n  " ++ fault.source ++ "\n  " ++ caret

end ExpressionFault

/-- Why an expression cannot be read. -/
inductive ReadingFault where
  | expression (fault : ExpressionFault)
  | tooManyDigits (count : Nat)
deriving DecidableEq, Repr

/-- A fault of shape. -/
def malformed {α : Type} (what : Malformation) (source : List Char) (position : Int) :
    Except ReadingFault α :=
  .error (.expression ⟨.malformed what, String.ofList source, position⟩)

end DriverPolicy
