import DriverPolicy.Number.Shortest
import DriverPolicy.Text.Quoted

/-!
# Call trees

An expression is a tree of calls: a name and arguments, each of which is a nested call or a
literal of one of five kinds. The depth of a tree counts the calls on its longest branch; the
calls that are still to be visited are kept on a list, so no nesting is too deep for it.
-/

namespace DriverPolicy

/-- The kinds of argument. -/
inductive ArgumentKind where
  | call
  | string
  | float
  | double
  | long
  | int
deriving DecidableEq, Repr

/-- The name of a kind in messages. -/
def ArgumentKind.name : ArgumentKind → String
  | call => "call"
  | string => "string"
  | float => "float"
  | double => "double"
  | long => "long"
  | int => "int"

/-- All kinds. -/
def ArgumentKind.all : List ArgumentKind := [call, string, float, double, long, int]

/-- The kind with a given name. -/
def ArgumentKind.ofName? (name : String) : Option ArgumentKind := all.find? (·.name = name)

/-- A kind is found by its name. -/
theorem ArgumentKind.ofName?_name (kind : ArgumentKind) : ofName? kind.name = some kind := by
  cases kind <;> rfl

/-- A kind is known by its name. -/
theorem ArgumentKind.name_injective {a b : ArgumentKind} (h : a.name = b.name) : a = b :=
  Option.some.inj (by rw [← ofName?_name a, h, ofName?_name])

/-- A literal value: a text, a number of 32 or 64 bits with a point, or an integer of 64 or
32 bits. -/
inductive Literal where
  | string (value : String)
  | float (value : Binary)
  | double (value : Binary)
  | long (value : Int)
  | int (value : Int)
deriving DecidableEq, Repr

namespace Literal

/-- The kind of a literal. -/
def kind : Literal → ArgumentKind
  | string _ => .string
  | float _ => .float
  | double _ => .double
  | long _ => .long
  | int _ => .int

/-- Whether two literals have the same kind and equal values. -/
def same : Literal → Literal → Bool
  | float x, float y | double x, double y => x.equals y
  | a, b => a = b

/-- A literal's value as it is shown on a line of an outline. -/
def text : Literal → String
  | string s => quoted s
  | float x | double x => x.text
  | long n | int n => toString n

end Literal

/-- An argument: a literal, or a nested call with its own arguments. -/
inductive Argument where
  | literal (value : Literal)
  | call (name : String) (arguments : List Argument)
deriving Repr

/-- A call: the root of a tree. -/
structure Call where
  /-- The name of what is called. -/
  name : String
  /-- The arguments in order. -/
  arguments : List Argument
deriving Repr, Inhabited

mutual

/-- Whether two arguments are the same. -/
def Argument.same : Argument → Argument → Bool
  | .literal a, .literal b => a.same b
  | .call f as, .call g bs => f = g && Argument.sameAll as bs
  | _, _ => false

/-- Whether two lists of arguments are the same. -/
def Argument.sameAll : List Argument → List Argument → Bool
  | [], [] => true
  | a :: as, b :: bs => a.same b && Argument.sameAll as bs
  | _, _ => false

end

instance : BEq Argument := ⟨Argument.same⟩

instance : BEq Call := ⟨fun a b => a.name = b.name && Argument.sameAll a.arguments b.arguments⟩

namespace Argument

/-- The kind of an argument. -/
def kind : Argument → ArgumentKind
  | literal value => value.kind
  | call .. => .call

/-- The nested call of an argument, if it is one. -/
def call? : Argument → Option Call
  | literal _ => none
  | call name arguments => some ⟨name, arguments⟩

mutual

/-- The number of calls on the longest branch of an argument; a literal has none. -/
def depth : Argument → Nat
  | literal _ => 0
  | call _ arguments => 1 + depthAll arguments

/-- The greatest depth among arguments. -/
def depthAll : List Argument → Nat
  | [] => 0
  | argument :: rest => max argument.depth (depthAll rest)

end

mutual

/-- The number of calls and literals in an argument. -/
def size : Argument → Nat
  | literal _ => 1
  | call _ arguments => 1 + sizeAll arguments

/-- The number of calls and literals in arguments. -/
def sizeAll : List Argument → Nat
  | [] => 0
  | argument :: rest => argument.size + sizeAll rest

end

end Argument

namespace Call

/-- The refusal of a call without a name. -/
def emptyNameMessage : String := "CallExpression name must not be empty"

/-- A call with a name that is not empty. -/
def make? (name : String) (arguments : List Argument) : Option Call :=
  if name = "" then none else some ⟨name, arguments⟩

/-- A call as an argument of another. -/
def toArgument (call : Call) : Argument := .call call.name call.arguments

/-- The number of arguments. -/
def arity (call : Call) : Nat := call.arguments.length

/-- The nested calls among the arguments, in order. -/
def children (call : Call) : List Call := call.arguments.filterMap Argument.call?

/-- The number of calls and literals. -/
def size (call : Call) : Nat := 1 + Argument.sizeAll call.arguments

/-- What is left to do for calls that are still to be visited. -/
def pendingSize : List (Call × Nat) → Nat
  | [] => 0
  | (call, _) :: rest => call.size + pendingSize rest

/-- What is left to do for some calls and for others is left to do for all of them. -/
theorem pendingSize_append (pending others : List (Call × Nat)) :
    pendingSize (pending ++ others) = pendingSize pending + pendingSize others := by
  induction pending with
  | nil => rw [List.nil_append, pendingSize, Nat.zero_add]
  | cons entry rest ih => rw [List.cons_append, pendingSize, pendingSize, ih, Nat.add_assoc]

/-- The order of the calls does not matter to what is left to do for them. -/
theorem pendingSize_reverse (pending : List (Call × Nat)) :
    pendingSize pending.reverse = pendingSize pending := by
  induction pending with
  | nil => rfl
  | cons entry rest ih =>
    rw [List.reverse_cons, pendingSize_append, ih, pendingSize, pendingSize, pendingSize]
    omega

/-- Nested calls are together smaller than the call that they stand in. -/
theorem pendingSize_children_lt (call : Call) (level : Nat) :
    pendingSize (call.children.map (·, level)) < call.size := by
  have hsum (arguments : List Argument) :
      pendingSize ((arguments.filterMap Argument.call?).map (·, level)) ≤ Argument.sizeAll arguments := by
    induction arguments with
    | nil => exact Nat.le_refl 0
    | cons argument rest ih =>
      cases argument with
      | literal value =>
        rw [List.filterMap_cons_none rfl, Argument.sizeAll]
        omega
      | call name arguments =>
        have hcall : (Argument.call name arguments).call? = some ⟨name, arguments⟩ := rfl
        rw [List.filterMap_cons_some hcall, List.map_cons, pendingSize, Argument.sizeAll]
        exact Nat.add_le_add (Nat.le_refl _) ih
  have := hsum call.arguments
  rw [children, size]
  omega

/-- The greatest level of the calls that are still to be visited, each with its own level, and of
those below them, or `best` if that is greater. The last one of nested calls is visited first. -/
def deepest (best : Nat) (pending : List (Call × Nat)) : Nat :=
  match pending with
  | [] => best
  | (call, level) :: rest =>
    deepest (max best level) ((call.children.map (·, level + 1)).reverse ++ rest)
termination_by pendingSize pending
decreasing_by
  have := call.pendingSize_children_lt (level + 1)
  rw [pendingSize_append, pendingSize_reverse, pendingSize]
  omega

/-- The number of calls on the longest branch. -/
def depth (call : Call) : Nat := deepest 0 [(call, 1)]

end Call

end DriverPolicy
