import DriverPolicy.Logging.Event

/-!
# The resolution context

While an expression is resolved, every reported event carries the family and the expression.
Contexts nest: leaving one, by success or by failure, brings back the one before it. A trail
is the context now in force and the events reported so far, each with its own context.
-/

namespace DriverPolicy

/-- The family and the expression that are being resolved, if any. -/
structure Context where
  /-- The family. -/
  family : Option String
  /-- The expression. -/
  expression : Option String
deriving DecidableEq, Repr

namespace Context

/-- Nothing is being resolved. -/
def clear : Context := ⟨none, none⟩

/-- The short tag of a context for lines of text: the family in brackets, if there is one. -/
def tag (context : Context) : String :=
  match context.family with
  | some family => if family = "" then "" else s!"[{family}] "
  | none => ""

end Context

/-- An event and the context in which it was reported. -/
structure Entry where
  /-- The context. -/
  context : Context
  /-- What happened. -/
  event : Event
deriving DecidableEq, Repr

/-- The context in force and the events reported so far, the first one first. -/
structure Trail where
  /-- The context in force. -/
  context : Context
  /-- The events so far. -/
  entries : List Entry
deriving DecidableEq, Repr

namespace Trail

/-- No context and no events. -/
def empty : Trail := ⟨.clear, []⟩

/-- Report an event in the context in force. -/
def report (event : Event) (trail : Trail) : Trail :=
  { trail with entries := trail.entries ++ [⟨trail.context, event⟩] }

end Trail

/-- Work that reports events and may fail. -/
abbrev Run (ε α : Type) := ExceptT ε (StateM Trail) α

namespace Run

variable {ε α : Type}

/-- Report an event. -/
def report (event : Event) : Run ε Unit := modify (Trail.report event)

/-- Work that reports nothing. -/
def ofExcept (result : Except ε α) : Run ε α := ExceptT.mk (pure result)

/-- Do some work in a context and bring back the one before it, whatever the outcome. -/
def within (context : Context) (work : Run ε α) : Run ε α := ExceptT.mk fun trail =>
  let (result, after) := work.run.run { trail with context }
  (result, { after with context := trail.context })

/-- The outcome of some work that starts without a context, and the events it reported. -/
def start (work : Run ε α) : Except ε α × List Entry :=
  let (result, trail) := work.run.run .empty
  (result, trail.entries)

end Run

/-- Contexts entered inside each other: the one in force, and those to come back to. -/
structure ContextStack where
  /-- The context in force. -/
  current : Context
  /-- The contexts to come back to, the innermost first. -/
  saved : List Context
deriving DecidableEq, Repr

namespace ContextStack

/-- No context. -/
def empty : ContextStack := ⟨.clear, []⟩

/-- Put a context in force without remembering the one before it. -/
def set (context : Context) (stack : ContextStack) : ContextStack :=
  { stack with current := context }

/-- Enter a context. -/
def enter (context : Context) (stack : ContextStack) : ContextStack :=
  ⟨context, stack.current :: stack.saved⟩

/-- Leave the innermost context that was entered. -/
def leave (stack : ContextStack) : ContextStack :=
  match stack.saved with
  | before :: saved => ⟨before, saved⟩
  | [] => stack

end ContextStack

end DriverPolicy
