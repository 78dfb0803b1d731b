import DriverPolicy.Expression.Record
import DriverPolicy.Proofs.Json.Equality
import Mathlib.Data.List.MinMax
import Mathlib.Data.List.Nodup
import Mathlib.Order.Nat

/-!
# Records and depths of trees

The record of a tree is filled in place, call by call from a list of pending calls. When a call is taken
from the list its own record stands begun and empty, and so do those of all calls that are still pending,
each at a place of its own. Filling one leaves the others as they are, so in the end every place shows the
record of the call that was pending for it. What comes out is what a recursion over the tree gives, from
which the tree can be read back.
-/

namespace DriverPolicy

/-- What arguments add to a record if the next record that is begun comes to stand at a place. -/
def DraftArgument.ofArguments (next : Nat) : List Argument → List DraftArgument
  | [] => []
  | .literal value :: rest => .literal value :: ofArguments next rest
  | .call _ _ :: rest => .link next :: ofArguments (next + 1) rest

/-- The nested calls among arguments, with the places of their records if the next record that is begun
comes to stand at a place. -/
def Drafting.begunBy (next : Nat) : List Argument → List (Call × Nat)
  | [] => []
  | .literal _ :: rest => begunBy next rest
  | .call name arguments :: rest => (⟨name, arguments⟩, next) :: begunBy (next + 1) rest

namespace Drafting

variable {state : Drafting} {place : Nat}

/-- Records are begun from a place on. -/
theorem le_of_mem_begunBy {next : Nat} {arguments : List Argument} {entry : Call × Nat}
    (h : entry ∈ begunBy next arguments) : next ≤ entry.2 := by
  induction arguments generalizing next with
  | nil => exact absurd h List.not_mem_nil
  | cons argument rest ih =>
    cases argument with
    | literal value => exact ih h
    | call name arguments =>
      rcases List.mem_cons.mp h with rfl | hrest
      · exact Nat.le_refl _
      · exact Nat.le_of_succ_le (ih hrest)

/-- Every record is begun at a place of its own. -/
theorem nodup_begunBy (next : Nat) (arguments : List Argument) :
    ((begunBy next arguments).map (·.2)).Nodup := by
  induction arguments generalizing next with
  | nil => exact List.nodup_nil
  | cons argument rest ih =>
    cases argument with
    | literal value => exact ih next
    | call name arguments =>
      refine List.nodup_cons.mpr ⟨fun hmem => ?_, ih (next + 1)⟩
      obtain ⟨entry, hentry, hplace⟩ := List.mem_map.mp hmem
      have hlater : next + 1 ≤ entry.2 := le_of_mem_begunBy hentry
      have hsame : entry.2 = next := hplace
      omega

/-- Arguments are added one after the other. -/
theorem enterAll_cons (state : Drafting) (place : Nat) (argument : Argument) (rest : List Argument) :
    state.enterAll place (argument :: rest) = (state.enter place argument).enterAll place rest := rfl

/-- Adding an argument takes no record away. -/
theorem size_le_enter (state : Drafting) (place : Nat) (argument : Argument) :
    state.drafts.size ≤ (state.enter place argument).drafts.size := by
  cases argument <;> simp [enter]

/-- Adding an argument to the record at a place leaves the others as they are. -/
theorem enter_other {other : Nat} (hother : other < state.drafts.size) (hne : other ≠ place)
    (argument : Argument) : (state.enter place argument).drafts[other]? = state.drafts[other]? := by
  cases argument with
  | literal value => simp only [enter, Array.getElem?_modify, if_neg hne.symm]
  | call name arguments =>
    simp only [enter, Array.getElem?_push, Array.size_modify, if_neg (Nat.ne_of_lt hother),
      Array.getElem?_modify, if_neg hne.symm]

/-- The record of a nested call is begun empty, behind all others. -/
theorem enter_begun (state : Drafting) (place : Nat) (name : String) (arguments : List Argument) :
    (state.enter place (.call name arguments)).drafts[state.drafts.size]? = some ⟨name, #[]⟩ ∧
      (state.enter place (.call name arguments)).drafts.size = state.drafts.size + 1 := by
  simp only [enter, Array.getElem?_push, Array.size_modify, Array.size_push, if_true, and_self]

/-- The pending calls after arguments have been added: the nested calls among them, the last one first, and
then those of before. -/
theorem enterAll_pending (state : Drafting) (place : Nat) (arguments : List Argument) :
    (state.enterAll place arguments).pending =
      (begunBy state.drafts.size arguments).reverse ++ state.pending := by
  induction arguments generalizing state with
  | nil => rfl
  | cons argument rest ih =>
    rw [enterAll_cons, ih]
    cases argument with
    | literal value => simp [enter, begunBy]
    | call name arguments => simp [enter, begunBy]

/-- Adding arguments takes no record away. -/
theorem size_le_enterAll (state : Drafting) (place : Nat) (arguments : List Argument) :
    state.drafts.size ≤ (state.enterAll place arguments).drafts.size := by
  induction arguments generalizing state with
  | nil => exact Nat.le_refl _
  | cons argument rest ih =>
    exact Nat.le_trans (size_le_enter state place argument) (ih (state.enter place argument))

/-- Adding arguments to the record at a place leaves the others as they are. -/
theorem enterAll_other {other : Nat} (hother : other < state.drafts.size) (hne : other ≠ place)
    (arguments : List Argument) :
    (state.enterAll place arguments).drafts[other]? = state.drafts[other]? := by
  induction arguments generalizing state with
  | nil => rfl
  | cons argument rest ih =>
    rw [enterAll_cons, ih (Nat.lt_of_lt_of_le hother (size_le_enter state place argument)),
      enter_other hother hne]

/-- The record at a place after arguments have been added to it. -/
theorem enterAll_self {draft : Draft} (hdraft : state.drafts[place]? = some draft)
    (arguments : List Argument) :
    (state.enterAll place arguments).drafts[place]? = some { draft with
      arguments := draft.arguments ++ DraftArgument.ofArguments state.drafts.size arguments } := by
  induction arguments generalizing state draft with
  | nil => simp [enterAll, DraftArgument.ofArguments, hdraft]
  | cons argument rest ih =>
    have hlt : place < state.drafts.size := (Array.getElem?_eq_some_iff.mp hdraft).1
    rw [enterAll_cons]
    cases argument with
    | literal value =>
      have hstep : (state.enter place (.literal value)).drafts[place]? =
          some (draft.add (.literal value)) := by
        simp only [enter, Array.getElem?_modify, hdraft, if_true, Option.map_some]
      rw [ih hstep]
      simp [enter, Draft.add, DraftArgument.ofArguments]
    | call name arguments =>
      have hstep : (state.enter place (.call name arguments)).drafts[place]? =
          some (draft.add (.link state.drafts.size)) := by
        simp only [enter, Array.getElem?_push, Array.size_modify, if_neg (Nat.ne_of_lt hlt),
          Array.getElem?_modify, hdraft, if_true, Option.map_some]
      rw [ih hstep, (enter_begun state place name arguments).2]
      simp [Draft.add, DraftArgument.ofArguments]

/-- The records that arguments begin are empty, with the names of their calls. -/
theorem enterAll_begun (hplace : place < state.drafts.size) {arguments : List Argument}
    {entry : Call × Nat} (h : entry ∈ begunBy state.drafts.size arguments) :
    (state.enterAll place arguments).drafts[entry.2]? = some ⟨entry.1.name, #[]⟩ := by
  induction arguments generalizing state with
  | nil => exact absurd h List.not_mem_nil
  | cons argument rest ih =>
    cases argument with
    | literal value =>
      have hsize : (state.enter place (.literal value)).drafts.size = state.drafts.size := by
        simp [enter]
      exact ih (hsize ▸ hplace) (hsize ▸ h)
    | call name arguments =>
      obtain ⟨hbegun, hsize⟩ := enter_begun state place name arguments
      rw [enterAll_cons]
      rcases List.mem_cons.mp h with rfl | hrest
      · rw [← hbegun]
        exact enterAll_other (by omega) (Nat.ne_of_gt hplace) rest
      · exact ih (by omega) (hsize ▸ hrest)

/-- The calls that are pending have places of their own, where their records stand begun and empty. -/
structure Sound (state : Drafting) : Prop where
  /-- No two pending calls have one place. -/
  nodup : (state.pending.map (·.2)).Nodup
  /-- The record of a pending call is begun and empty. -/
  begun : ∀ entry ∈ state.pending, state.drafts[entry.2]? = some ⟨entry.1.name, #[]⟩

/-- The place of a pending call is among the records. -/
theorem Sound.lt (h : state.Sound) {entry : Call × Nat} (hentry : entry ∈ state.pending) :
    entry.2 < state.drafts.size :=
  (Array.getElem?_eq_some_iff.mp (h.begun entry hentry)).1

/-- The next state while calls are pending: the first of them is taken, and its arguments are added to its
record. -/
def step (state : Drafting) (call : Call) (place : Nat) (rest : List (Call × Nat)) : Drafting :=
  { state with pending := rest }.enterAll place call.arguments

section

variable {call : Call} {rest : List (Call × Nat)}

/-- After a step the nested calls of the call that was taken are pending, and those of before. -/
theorem mem_step_pending {entry : Call × Nat} : entry ∈ (state.step call place rest).pending ↔
    entry ∈ begunBy state.drafts.size call.arguments ∨ entry ∈ rest := by
  rw [step, enterAll_pending, List.mem_append, List.mem_reverse]

/-- A step takes no record away. -/
theorem size_le_step (state : Drafting) (call : Call) (place : Nat) (rest : List (Call × Nat)) :
    state.drafts.size ≤ (state.step call place rest).drafts.size :=
  size_le_enterAll { state with pending := rest } place call.arguments

/-- A step leaves the records of other calls as they are. -/
theorem step_other {other : Nat} (hother : other < state.drafts.size) (hne : other ≠ place) :
    (state.step call place rest).drafts[other]? = state.drafts[other]? :=
  @enterAll_other { state with pending := rest } place other hother hne call.arguments

/-- A step fills the record of the call that was taken. -/
theorem step_self (hbegun : state.drafts[place]? = some ⟨call.name, #[]⟩) :
    (state.step call place rest).drafts[place]? =
      some ⟨call.name, (DraftArgument.ofArguments state.drafts.size call.arguments).toArray⟩ := by
  have hfilled := @enterAll_self { state with pending := rest } place _ hbegun call.arguments
  rw [step, hfilled]
  simp

/-- Filling one record leaves the pending calls with places of their own. -/
theorem Sound.step (h : state.Sound) (hpending : state.pending = (call, place) :: rest) :
    (state.step call place rest).Sound := by
  have hnodup := h.nodup
  rw [hpending] at hnodup
  obtain ⟨hplace, hrest⟩ := List.nodup_cons.mp hnodup
  have hin (entry : Call × Nat) (hentry : entry ∈ rest) : entry ∈ state.pending :=
    hpending ▸ List.mem_cons_of_mem _ hentry
  have hlt : place < state.drafts.size := h.lt (hpending ▸ List.mem_cons_self)
  constructor
  · rw [Drafting.step, enterAll_pending, List.map_append, List.map_reverse]
    refine (List.nodup_reverse.mpr (nodup_begunBy _ _)).append hrest fun other hnew hold => ?_
    obtain ⟨entry, hentry, rfl⟩ := List.mem_map.mp (List.mem_reverse.mp hnew)
    obtain ⟨entry', hentry', hsame⟩ := List.mem_map.mp hold
    have hbehind : state.drafts.size ≤ entry.2 := le_of_mem_begunBy hentry
    have hbefore : entry'.2 < state.drafts.size := h.lt (hin entry' hentry')
    omega
  · intro entry hentry
    rcases mem_step_pending.mp hentry with hnew | hold
    · exact @enterAll_begun { state with pending := rest } place hlt call.arguments entry hnew
    · have hne : entry.2 ≠ place := fun hsame => hplace (List.mem_map.mpr ⟨entry, hold, hsame⟩)
      rw [step_other (h.lt (hin entry hold)) hne]
      exact h.begun entry (hin entry hold)

/-- At a place before all new records where no other call is pending, none is pending after a step. -/
theorem ne_of_mem_step_pending {other : Nat} (hother : other < state.drafts.size)
    (hrest : ∀ entry ∈ rest, entry.2 ≠ other) {entry : Call × Nat}
    (hentry : entry ∈ (state.step call place rest).pending) : entry.2 ≠ other := by
  rcases mem_step_pending.mp hentry with hnew | hold
  · have hbehind : state.drafts.size ≤ entry.2 := le_of_mem_begunBy hnew
    omega
  · exact hrest entry hold

/-- When no call is pending, all records have been filled. -/
theorem fill_nil (hpending : state.pending = []) : state.fill = state.drafts := by
  rw [fill]
  split
  · rfl
  · next hcons => rw [hcons] at hpending; cases hpending

/-- What is filled in the end is what is filled from the next state. -/
theorem fill_eq_step (hpending : state.pending = (call, place) :: rest) :
    state.fill = (state.step call place rest).fill := by
  rw [fill]
  split
  · next hnil => rw [hnil] at hpending; cases hpending
  · next call' place' rest' hcons =>
    obtain ⟨⟨rfl, rfl⟩, rfl⟩ : (call' = call ∧ place' = place) ∧ rest' = rest := by
      rw [hcons] at hpending
      obtain ⟨hentry, hrest⟩ := List.cons.inj hpending
      exact ⟨Prod.mk.inj hentry, hrest⟩
    rfl

end

/-- Induction on the calls that are filled: what holds when none is pending, and of a state if it holds of
the next one, holds of every state. -/
theorem fill_induction {motive : Drafting → Prop}
    (hnil : ∀ state, state.pending = [] → motive state)
    (hcons : ∀ state call place rest, state.pending = (call, place) :: rest →
      motive (state.step call place rest) → motive state) (state : Drafting) : motive state := by
  induction state using fill.induct with
  | case1 state hpending => exact hnil state hpending
  | case2 state call place rest hpending ih => exact hcons state call place rest hpending ih

/-- Filling takes no record away. -/
theorem size_le_fill (state : Drafting) : state.drafts.size ≤ state.fill.size := by
  induction state using fill_induction with
  | hnil state hpending => exact Nat.le_of_eq (congrArg Array.size (fill_nil hpending).symm)
  | hcons state call place rest hpending ih =>
    rw [fill_eq_step hpending]
    exact Nat.le_trans (size_le_step state call place rest) ih

/-- The record that stands at a place where no call is pending is not changed any more. -/
theorem Sound.fill_other (h : state.Sound) (hplace : place < state.drafts.size)
    (hne : ∀ entry ∈ state.pending, entry.2 ≠ place) : state.fill[place]? = state.drafts[place]? := by
  induction state using fill_induction with
  | hnil state hpending => rw [fill_nil hpending]
  | hcons state call taken rest hpending ih =>
    rw [hpending, List.forall_mem_cons] at hne
    have hlt := Nat.lt_of_lt_of_le hplace (size_le_step state call taken rest)
    rw [fill_eq_step hpending, ih (h.step hpending) hlt fun entry => ne_of_mem_step_pending hplace hne.2]
    exact step_other hplace hne.1.symm

/-- If the links lead to the records of the nested calls, the entries of arguments show their records. -/
theorem map_ofArguments {entryJson : DraftArgument → Json} {next : Nat} {arguments : List Argument}
    (hliteral : ∀ value, entryJson (.literal value) = (Argument.literal value).toJson)
    (hlink : ∀ entry ∈ begunBy next arguments, entryJson (.link entry.2) = entry.1.toArgument.toJson) :
    (DraftArgument.ofArguments next arguments).map entryJson = Argument.toJsonAll arguments := by
  induction arguments generalizing next with
  | nil => rfl
  | cons argument rest ih =>
    cases argument with
    | literal value =>
      rw [DraftArgument.ofArguments, List.map_cons, hliteral, ih hlink, Argument.toJsonAll]
    | call name arguments =>
      have hfirst := hlink (⟨name, arguments⟩, next) List.mem_cons_self
      have hrest := ih fun entry hentry => hlink entry (List.mem_cons_of_mem _ hentry)
      rw [DraftArgument.ofArguments, List.map_cons, hfirst, hrest, Argument.toJsonAll, Call.toArgument]

end Drafting

/-- The record of a call by recursion on the tree: its name, and the records of its arguments in order. -/
def Call.recursiveJson (call : Call) : Json :=
  .object [("name", .text call.name), ("arguments", .list (Argument.toJsonAll call.arguments))]

/-- The record of a call as an argument holds its record as a call. -/
theorem Call.toJson_toArgument (call : Call) : call.toArgument.toJson =
    .object [("kind", .text ArgumentKind.call.name), ("call", call.recursiveJson)] := by
  rw [Call.toArgument, Argument.toJson, Call.recursiveJson]

namespace Drafting

variable {state : Drafting}

/-- In the end the record of every pending call has been filled. -/
theorem Sound.toJson_fill (h : state.Sound) {entry : Call × Nat} (hentry : entry ∈ state.pending) :
    Draft.toJson state.fill entry.2 = entry.1.recursiveJson := by
  induction state using fill_induction generalizing entry with
  | hnil state hpending => rw [hpending] at hentry; cases hentry
  | hcons state call place rest hpending ih =>
    have hsound := h.step hpending
    have hnodup := h.nodup
    rw [hpending] at hnodup hentry
    rw [fill_eq_step hpending]
    rcases List.mem_cons.mp hentry with rfl | hold
    · -- nothing is pending at the place of the call that was taken, and its links lead to pending ones
      have hbegun := h.begun (call, place) (hpending ▸ List.mem_cons_self)
      have hlt : place < state.drafts.size := h.lt (hpending ▸ List.mem_cons_self)
      have hdraft := hsound.fill_other (Nat.lt_of_lt_of_le hlt (size_le_step state call place rest))
        fun entry => ne_of_mem_step_pending hlt fun entry hentry hsame =>
          (List.nodup_cons.mp hnodup).1 (List.mem_map.mpr ⟨entry, hentry, hsame⟩)
      rw [Draft.toJson, hdraft, step_self hbegun, Call.recursiveJson]
      dsimp only
      rw [map_ofArguments (fun _ => rfl) fun inner hinner => ?_]
      have hmem : inner ∈ (state.step call place rest).pending := mem_step_pending.mpr (Or.inl hinner)
      have hbehind : state.drafts.size ≤ inner.2 := le_of_mem_begunBy hinner
      have hin := Nat.lt_of_lt_of_le (hsound.lt hmem) (size_le_fill _)
      dsimp only
      rw [dif_pos ⟨by omega, hin⟩, ih hsound hmem, Call.toJson_toArgument]
    · exact ih hsound (mem_step_pending.mpr (Or.inr hold))

end Drafting

/-- The record that is filled in place is the one that a recursion over the tree gives. -/
theorem Call.toJson_eq_recursiveJson (call : Call) : call.toJson = call.recursiveJson := by
  have hsound : Drafting.Sound ⟨#[⟨call.name, #[]⟩], [(call, 0)]⟩ :=
    ⟨List.nodup_singleton _, fun entry hentry => by rw [List.mem_singleton.mp hentry]; rfl⟩
  exact hsound.toJson_fill List.mem_cons_self

/-! ### Equal records -/

/-- Literals of one kind have equal values if and only if they are the same. -/
theorem Literal.toJson_equals {a b : Literal} (h : a.kind = b.kind) :
    a.toJson.equals b.toJson = a.same b := by
  cases a <;> cases b <;> simp [kind] at h <;>
    simp [Literal.toJson, same, Json.equals, Json.equalNumbers, Json.amount?, Amount.equals]

/-- The records of two literals are equal if and only if the literals are the same. -/
theorem Literal.record_equals (a b : Literal) :
    (Argument.literal a).toJson.equals (Argument.literal b).toJson = a.same b := by
  rw [Argument.toJson, Argument.toJson, Json.equals_object_pair (by decide), Json.equals]
  by_cases hkind : a.kind = b.kind
  · rw [hkind, decide_eq_true rfl, Bool.true_and, toJson_equals hkind]
  · have hname : ¬a.kind.name = b.kind.name := fun h => hkind (ArgumentKind.name_injective h)
    have hsame : a.same b = false := by
      cases a <;> cases b <;> first | rfl | exact absurd rfl hkind
    rw [decide_eq_false hname, Bool.false_and, hsame]

mutual

/-- The records of two arguments are equal if and only if the arguments are the same. -/
theorem Argument.toJson_equals (a b : Argument) : a.toJson.equals b.toJson = a.same b := by
  match a, b with
  | .literal a, .literal b => rw [Literal.record_equals, Argument.same]
  | .literal a, .call g bs => simp [Argument.toJson, Json.equals, Json.equalFields, Argument.same]
  | .call f as, .literal b => simp [Argument.toJson, Json.equals, Json.equalFields, Argument.same]
  | .call f as, .call g bs =>
    rw [Argument.toJson, Argument.toJson, Json.equals_object_pair (by decide),
      Json.equals_object_pair (by decide), Argument.same]
    simp only [Json.equals, decide_true, Bool.true_and, Argument.toJsonAll_equals as bs]

/-- The records of arguments are equal if and only if the arguments are the same. -/
theorem Argument.toJsonAll_equals (as bs : List Argument) :
    Json.equalItems (Argument.toJsonAll as) (Argument.toJsonAll bs) = Argument.sameAll as bs := by
  match as, bs with
  | [], [] => rfl
  | [], b :: bs => rfl
  | a :: as, [] => rfl
  | a :: as, b :: bs =>
    simp only [Argument.toJsonAll, Json.equalItems, Argument.sameAll, Argument.toJson_equals a b,
      Argument.toJsonAll_equals as bs]

end

/-- The records of two calls are equal if and only if the calls are. -/
theorem Call.recursiveJson_equals (a b : Call) :
    a.recursiveJson.equals b.recursiveJson = (a == b) := by
  rw [recursiveJson, recursiveJson, Json.equals_object_pair (by decide), Json.equals, Json.equals,
    Argument.toJsonAll_equals]
  rfl

/-! ### The tree of a record -/

/-- The literal of a kind with a given value. -/
def Literal.ofJson? : ArgumentKind → Json → Option Literal
  | .string, .text value => some (.string value)
  | .float, .number value => some (.float value)
  | .double, .number value => some (.double value)
  | .long, .integer value => some (.long value)
  | .int, .integer value => some (.int value)
  | _, _ => none

mutual

/-- The argument of a record. -/
def Argument.ofJson? : Json → Option Argument
  | .object [("kind", .text kind), ("value", value)] => do
    let kind ← ArgumentKind.ofName? kind
    return .literal (← Literal.ofJson? kind value)
  | .object [("kind", .text "call"), ("call", .object [("name", .text name), ("arguments", .list items)])] =>
    return .call name (← Argument.ofJsonAll? items)
  | _ => none

/-- The arguments of records. -/
def Argument.ofJsonAll? : List Json → Option (List Argument)
  | [] => some []
  | item :: rest => return (← Argument.ofJson? item) :: (← Argument.ofJsonAll? rest)

end

/-- The call of a record. -/
def Call.ofJson? : Json → Option Call
  | .object [("name", .text name), ("arguments", .list items)] =>
    return ⟨name, ← Argument.ofJsonAll? items⟩
  | _ => none

/-- A literal is read back from its kind and value. -/
theorem Literal.ofJson?_toJson (value : Literal) : ofJson? value.kind value.toJson = some value := by
  cases value <;> rfl

mutual

/-- An argument is read back from its record. -/
theorem Argument.ofJson?_toJson (argument : Argument) : ofJson? argument.toJson = some argument := by
  match argument with
  | .literal value =>
    rw [toJson, ofJson?, ArgumentKind.ofName?_name, Option.bind_eq_bind, Option.bind_some,
      Literal.ofJson?_toJson]
    rfl
  | .call name arguments =>
    rw [toJson, ArgumentKind.name, ofJson?, Argument.ofJsonAll?_toJsonAll arguments]
    rfl

/-- Arguments are read back from their records. -/
theorem Argument.ofJsonAll?_toJsonAll (arguments : List Argument) :
    ofJsonAll? (toJsonAll arguments) = some arguments := by
  match arguments with
  | [] => rfl
  | argument :: rest =>
    rw [toJsonAll, ofJsonAll?, Argument.ofJson?_toJson argument, Argument.ofJsonAll?_toJsonAll rest]
    rfl

end

/-- A call is read back from its record. -/
theorem Call.ofJson?_recursiveJson (call : Call) : ofJson? call.recursiveJson = some call := by
  rw [recursiveJson, ofJson?, Argument.ofJsonAll?_toJsonAll]
  rfl

/-! ### Depth -/

/-- Arguments are no deeper than a bound if and only if the nested calls among them are. -/
theorem Argument.depthAll_le {arguments : List Argument} {bound : Nat} : depthAll arguments ≤ bound ↔
    ∀ child ∈ arguments.filterMap Argument.call?, 1 + depthAll child.arguments ≤ bound := by
  induction arguments with
  | nil => simp [depthAll]
  | cons argument rest ih =>
    cases argument with
    | literal value =>
      rw [List.filterMap_cons_none rfl, ← ih, depthAll, depth, Nat.zero_max]
    | call name arguments =>
      have hcall : (Argument.call name arguments).call? = some ⟨name, arguments⟩ := rfl
      rw [List.filterMap_cons_some hcall, List.forall_mem_cons, ← ih, depthAll, depth, Nat.max_le]

namespace Call

/-- The levels that are visited stay within a bound if and only if those below every pending call do. -/
theorem deepest_le {best bound : Nat} {pending : List (Call × Nat)} : deepest best pending ≤ bound ↔
    best ≤ bound ∧ ∀ entry ∈ pending, entry.2 + Argument.depthAll entry.1.arguments ≤ bound := by
  induction best, pending using deepest.induct with
  | case1 best => simp [deepest]
  | case2 best call level rest ih =>
    have hbelow : level + Argument.depthAll call.arguments ≤ bound ↔ level ≤ bound ∧
        ∀ child ∈ call.children, level + 1 + Argument.depthAll child.arguments ≤ bound := by
      have hsub : level + Argument.depthAll call.arguments ≤ bound ↔
          level ≤ bound ∧ Argument.depthAll call.arguments ≤ bound - level := by omega
      rw [hsub, Argument.depthAll_le]
      refine and_congr_right fun hlevel => forall₂_congr fun child _ => ?_
      omega
    rw [deepest, ih, Nat.max_le, List.forall_mem_append, List.forall_mem_cons, hbelow]
    simp only [List.mem_reverse, List.forall_mem_map]
    tauto

/-- The depth that is counted over a list of pending calls is that of the recursion over the tree. -/
theorem depth_eq_depthAll (call : Call) : call.depth = 1 + Argument.depthAll call.arguments := by
  refine eq_of_forall_ge_iff fun bound => ?_
  rw [depth, deepest_le, List.forall_mem_singleton]
  exact ⟨fun h => h.2, fun h => ⟨Nat.zero_le _, h⟩⟩

/-- A call is one deeper than the deepest nested call in it. -/
theorem depth_eq_foldr (call : Call) : call.depth = 1 + (call.children.map depth).foldr max 0 := by
  rw [depth_eq_depthAll]
  refine congrArg (1 + ·) (le_antisymm (Argument.depthAll_le.mpr fun child hchild => ?_)
    (List.max_le_of_forall_le (call.children.map depth) _ fun depth hdepth => ?_))
  · rw [← depth_eq_depthAll]
    exact List.le_max_of_le (List.mem_map_of_mem hchild) le_rfl
  · obtain ⟨child, hchild, rfl⟩ := List.mem_map.mp hdepth
    rw [depth_eq_depthAll]
    exact Argument.depthAll_le.mp le_rfl child hchild

end Call

/-- What comes of lists of pending calls is what a recursion over the tree gives. The record of a tree is its
name and, for every argument in order, the kind with the value or with the record of the nested call; records
are equal if and only if the trees are, and the tree can be read back from its record. The depth is one more
than the greatest depth of the nested calls, and one without any. -/
theorem Call.toJson_depth_recursive (call : Call) :
    call.toJson = .object [("name", .text call.name),
        ("arguments", .list (Argument.toJsonAll call.arguments))] ∧
      (∀ other : Call, call.toJson.equals other.toJson = (call == other)) ∧
      (∀ other : Call, call.toJson = other.toJson ↔ call = other) ∧
      Call.ofJson? call.toJson = some call ∧
      call.depth = 1 + Argument.depthAll call.arguments ∧
      call.depth = 1 + (call.children.map Call.depth).foldr max 0 := by
  have hread (call : Call) : Call.ofJson? call.toJson = some call := by
    rw [call.toJson_eq_recursiveJson, call.ofJson?_recursiveJson]
  refine ⟨call.toJson_eq_recursiveJson, fun other => ?_, fun other => ⟨fun hrecord => ?_, congrArg _⟩,
    hread call, call.depth_eq_depthAll, call.depth_eq_foldr⟩
  · rw [call.toJson_eq_recursiveJson, other.toJson_eq_recursiveJson, Call.recursiveJson_equals]
  · have hsame := hread call
    rw [hrecord, hread other] at hsame
    exact (Option.some.inj hsame).symm

end DriverPolicy
