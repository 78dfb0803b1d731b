import DriverPolicy.Expression.Literal

/-!
# Reading an expression

The meaning of a text is recursive: its outer shape gives the name, the text between the
brackets is cut into arguments, and each argument is a literal or has the meaning of a
nested call. The first fault from left to right is the answer.

Reading itself keeps the calls whose arguments are not all read yet on a list, the innermost
first, so no nesting is too deep for it. Every step consumes an argument or closes a call,
and the arguments of a call weigh less than its text.
-/

namespace DriverPolicy

/-- The call that a text at `offset` of the expression `source` means. -/
def Call.meaning (source text : List Char) (offset : Int) : Except ReadingFault Call :=
  match _hhead : Head.read text source offset with
  | .error fault => .error fault
  | .ok head =>
    match _hsplit : Fragment.split head.arguments source head.offset with
    | .error fault => .error fault
    | .ok fragments => do
      let arguments ← fragments.attach.mapM fun ⟨fragment, _hmem⟩ =>
        if isCallFragment fragment.text then
          (Call.meaning source fragment.text fragment.position).map Call.toArgument
        else (Literal.read fragment.text source fragment.position).map Argument.literal
      return ⟨String.ofList head.name, arguments⟩
termination_by text.length
decreasing_by exact Fragment.length_lt_of_mem_split _hhead _hsplit _hmem

/-- A call of which some arguments are still to be read. -/
structure OpenCall where
  /-- The name of the call. -/
  name : List Char
  /-- The arguments that are still to be read. -/
  pending : List Fragment
  /-- The arguments that have been read, the last first. -/
  done : List Argument

namespace OpenCall

/-- Open the call that a text at `offset` shows. -/
def enter (source text : List Char) (offset : Int) : Except ReadingFault OpenCall := do
  let head ← Head.read text source offset
  let fragments ← Fragment.split head.arguments source head.offset
  return ⟨head.name, fragments, []⟩

/-- A call all of whose arguments have been read. -/
def close (call : OpenCall) : Call := ⟨String.ofList call.name, call.done.reverse⟩

/-- A call with one more argument read. -/
def accept (call : OpenCall) (argument : Argument) : OpenCall :=
  { call with done := argument :: call.done }

/-- What is left to do for a call. -/
def weight (call : OpenCall) : Nat := 1 + 2 * Fragment.room call.pending

/-- What is left to do for calls that are open inside each other. -/
def totalWeight : List OpenCall → Nat
  | [] => 0
  | call :: rest => call.weight + totalWeight rest

/-- A freshly opened call weighs less than the argument that it is read from. -/
theorem weight_of_enter {source text : List Char} {offset : Int} {call : OpenCall}
    (h : enter source text offset = .ok call) : call.weight < 2 * text.length + 2 := by
  unfold enter at h
  cases hhead : Head.read text source offset with
  | error fault => simp [hhead, bind, Except.bind] at h
  | ok head =>
    cases hsplit : Fragment.split head.arguments source head.offset with
    | error fault => simp [hhead, hsplit, bind, Except.bind] at h
    | ok fragments =>
      simp only [hhead, hsplit, bind, Except.bind, pure, Except.pure, Except.ok.injEq] at h
      subst h
      simp only [weight]
      rcases Head.length_arguments_of_read hhead with hnil | hlt
      · rw [hnil] at hsplit
        have : fragments = [] := by simpa [Fragment.split, allBlank] using hsplit.symm
        simp [this, Fragment.room]
      · have := Fragment.room_of_split hsplit
        omega

/-- Read the arguments of a call and of the calls around it until all are closed. -/
def run (source : List Char) (current : OpenCall) (outer : List OpenCall) :
    Except ReadingFault Call :=
  match _hpending : current.pending with
  | fragment :: rest =>
    let resumed : OpenCall := { current with pending := rest }
    if isCallFragment fragment.text then
      match _henter : enter source fragment.text fragment.position with
      | .ok child => run source child (resumed :: outer)
      | .error fault => .error fault
    else
      match Literal.read fragment.text source fragment.position with
      | .ok value => run source (resumed.accept (.literal value)) outer
      | .error fault => .error fault
  | [] =>
    match outer with
    | [] => .ok current.close
    | parent :: outer => run source (parent.accept current.close.toArgument) outer
termination_by current.weight + totalWeight outer
decreasing_by
  · have := weight_of_enter _henter
    simp only [totalWeight, weight, Fragment.room, _hpending] at this ⊢
    omega
  · simp only [accept, weight, Fragment.room, _hpending]
    omega
  · simp only [totalWeight, accept, weight, Fragment.room, _hpending]
    omega

end OpenCall

/-- Read a whole text as a call. -/
def Call.read (source : List Char) : Except ReadingFault Call := do
  OpenCall.run source (← OpenCall.enter source source 0) []

/-- Read an expression. -/
def Call.parse (expression : String) : Except ReadingFault Call := Call.read expression.toList

end DriverPolicy
