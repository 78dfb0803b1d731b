import DriverPolicy.Expression.Call
import DriverPolicy.Json

/-!
# Call trees as JSON records

A call is a record of its name and its arguments in order; an argument is a record of its
kind and either its value or its call.

The record of a whole tree is filled in place, so no nesting is too deep for it. It starts with
the name alone. The record of a nested call is begun when its argument is met, is linked into the
record around it, and is filled later, the last one that was begun first. Records in the making
stand in a store, and a link is a place in it; in the end all links are followed.
-/

namespace DriverPolicy

/-- A literal's value. -/
def Literal.toJson : Literal → Json
  | string s => .text s
  | float x | double x => .number x
  | long n | int n => .integer n

mutual

/-- The record of an argument. -/
def Argument.toJson : Argument → Json
  | .literal value => .object [("kind", .text value.kind.name), ("value", value.toJson)]
  | .call name arguments =>
    .object [("kind", .text ArgumentKind.call.name),
      ("call", .object [("name", .text name), ("arguments", .list (Argument.toJsonAll arguments))])]

/-- The records of arguments. -/
def Argument.toJsonAll : List Argument → List Json
  | [] => []
  | argument :: rest => argument.toJson :: Argument.toJsonAll rest

end

/-- An argument in a record in the making: a literal, or a link to the record of a nested call. -/
inductive DraftArgument where
  | literal (value : Literal)
  | link (place : Nat)
deriving Repr

/-- The record of a call in the making: its name, and its arguments so far. -/
structure Draft where
  /-- The name of the call. -/
  name : String
  /-- The arguments so far. -/
  arguments : Array DraftArgument
deriving Repr

/-- A record with one more argument. -/
def Draft.add (draft : Draft) (argument : DraftArgument) : Draft :=
  { draft with arguments := draft.arguments.push argument }

/-- Records in the making, and the calls whose records are still to be filled, each with the place
of its record, the last one first. -/
structure Drafting where
  /-- The records. -/
  drafts : Array Draft
  /-- The calls and the places of their records. -/
  pending : List (Call × Nat)

namespace Drafting

/-- Add an argument to the record at a place. The record of a nested call is begun empty, behind
all others. -/
def enter (state : Drafting) (place : Nat) : Argument → Drafting
  | .literal value =>
    { state with drafts := state.drafts.modify place (·.add (.literal value)) }
  | .call name arguments =>
    let begun := state.drafts.size
    { drafts := (state.drafts.modify place (·.add (.link begun))).push ⟨name, #[]⟩
      pending := (⟨name, arguments⟩, begun) :: state.pending }

/-- Add arguments to the record at a place, from left to right. -/
def enterAll (state : Drafting) (place : Nat) (arguments : List Argument) : Drafting :=
  arguments.foldl (·.enter place ·) state

/-- Arguments leave no more to do than the nested calls among them. -/
theorem pendingSize_enterAll_le (state : Drafting) (place : Nat) (arguments : List Argument) :
    Call.pendingSize (state.enterAll place arguments).pending ≤
      Argument.sizeAll arguments + Call.pendingSize state.pending := by
  induction arguments generalizing state with
  | nil => exact Nat.le_add_left _ _
  | cons argument rest ih =>
    rw [enterAll, List.foldl_cons]
    refine Nat.le_trans (ih _) ?_
    cases argument with
    | literal value =>
      simp only [enter, Argument.sizeAll]
      omega
    | call name arguments =>
      simp only [enter, Argument.sizeAll, Argument.size, Call.pendingSize, Call.size]
      omega

/-- Fill the records of all calls that are pending. -/
def fill (state : Drafting) : Array Draft :=
  match _hpending : state.pending with
  | [] => state.drafts
  | (call, place) :: rest =>
    fill ({ state with pending := rest }.enterAll place call.arguments)
termination_by Call.pendingSize state.pending
decreasing_by
  refine Nat.lt_of_le_of_lt (pendingSize_enterAll_le _ _ _) ?_
  rw [_hpending, Call.pendingSize, Call.size]
  exact Nat.add_lt_add_right (by omega) _

end Drafting

/-- The record at a place, with the records that it links to, which stand behind it. -/
def Draft.toJson (drafts : Array Draft) (place : Nat) : Json :=
  match drafts[place]? with
  | none => .null
  | some draft =>
    .object [("name", .text draft.name),
      ("arguments", .list (draft.arguments.toList.map fun
        | .literal value => (Argument.literal value).toJson
        | .link inner =>
          .object [("kind", .text ArgumentKind.call.name),
            ("call", if _h : place < inner ∧ inner < drafts.size then toJson drafts inner
              else .null)]))]
termination_by drafts.size - place

/-- The record of a call. -/
def Call.toJson (call : Call) : Json :=
  Draft.toJson (Drafting.fill ⟨#[⟨call.name, #[]⟩], [(call, 0)]⟩) 0

end DriverPolicy
