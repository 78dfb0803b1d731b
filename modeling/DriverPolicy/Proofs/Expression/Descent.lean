import DriverPolicy.Expression.Reading
import DriverPolicy.Proofs.Attempt

/-!
# The loop of open calls reads what the recursion means

The meaning of an expression descends into nested calls by recursion; reading keeps the open
calls on a list and goes round a loop. One round reads an argument, opens a nested call or
closes the innermost call. What the open calls still owe is said by recursion, and a round does
not change it, so the loop comes to the recursive meaning, with the same first fault.

Every round makes the work that is left lighter, which bounds the number of rounds by the length
of the expression.
-/

namespace DriverPolicy

/-- The meaning of one argument: a literal, or the meaning of a nested call. -/
def Argument.meaning (source : List Char) (fragment : Fragment) : Except ReadingFault Argument :=
  Argument.readWith (Call.meaning source) fragment.text source fragment.position

/-- The meaning of a text is that of its outer shape, of its arguments and of each of these. -/
theorem Call.meaning_eq (source text : List Char) (offset : Int) :
    Call.meaning source text offset = (do
      let head ← Head.read text source offset
      let fragments ← Fragment.split head.arguments source head.offset
      let arguments ← fragments.mapM (Argument.meaning source)
      return ⟨String.ofList head.name, arguments⟩) := by
  rw [Call.meaning]
  split
  · next hhead => rw [hhead, error_bind]
  · next hhead =>
    rw [hhead, ok_bind]
    split
    · next hsplit => rw [hsplit, error_bind]
    · next hsplit =>
      rw [hsplit, ok_bind]
      simp only [List.mapM_subtype, List.unattach_attach]
      rfl

namespace OpenCall

/-- What one round of the loop comes to: an outcome, or calls that are still open. -/
inductive Round where
  | ended (outcome : Except ReadingFault Call)
  | ongoing (current : OpenCall) (outer : List OpenCall)

/-- The outcome of a round, where calls that are still open have the outcome of `next`. -/
def Round.outcome (next : OpenCall → List OpenCall → Except ReadingFault Call) :
    Round → Except ReadingFault Call
  | ended outcome => outcome
  | ongoing current outer => next current outer

/-- One round: read the next literal, open the next nested call, or close the innermost call. -/
def round (source : List Char) (current : OpenCall) (outer : List OpenCall) : Round :=
  match current.pending with
  | fragment :: rest =>
    let resumed : OpenCall := { current with pending := rest }
    if isCallFragment fragment.text then
      match enter source fragment.text fragment.position with
      | .ok child => .ongoing child (resumed :: outer)
      | .error fault => .ended (.error fault)
    else
      match Literal.read fragment.text source fragment.position with
      | .ok value => .ongoing (resumed.accept (.literal value)) outer
      | .error fault => .ended (.error fault)
  | [] =>
    match outer with
    | [] => .ended (.ok current.close)
    | parent :: outer => .ongoing (parent.accept current.close.toArgument) outer

/-- How a round goes on: with a nested call, with a literal read, or with a call closed. -/
theorem round_eq_ongoing {source : List Char} {current next : OpenCall}
    {outer around : List OpenCall} (h : round source current outer = .ongoing next around) :
    (∃ fragment rest, current.pending = fragment :: rest ∧ isCallFragment fragment.text ∧
        enter source fragment.text fragment.position = .ok next ∧
        around = { current with pending := rest } :: outer) ∨
      (∃ fragment rest value, current.pending = fragment :: rest ∧
        isCallFragment fragment.text = false ∧
        Literal.read fragment.text source fragment.position = .ok value ∧
        next = { current with pending := rest }.accept (.literal value) ∧ around = outer) ∨
      ∃ parent, current.pending = [] ∧ outer = parent :: around ∧
        next = parent.accept current.close.toArgument := by
  unfold round at h
  split at h
  · next fragment rest hpending =>
    dsimp only at h
    split at h
    · next hcall =>
      split at h
      · next henter =>
        obtain ⟨rfl, rfl⟩ := Round.ongoing.inj h
        exact Or.inl ⟨fragment, rest, hpending, hcall, henter, rfl⟩
      · contradiction
    · next hcall =>
      split at h
      · next value hread =>
        obtain ⟨rfl, rfl⟩ := Round.ongoing.inj h
        exact Or.inr (Or.inl ⟨fragment, rest, value, hpending, Bool.not_eq_true _ ▸ hcall, hread,
          rfl, rfl⟩)
      · contradiction
  · next hpending =>
    cases outer with
    | nil => contradiction
    | cons parent outer =>
      obtain ⟨rfl, rfl⟩ := Round.ongoing.inj h
      exact Or.inr (Or.inr ⟨parent, hpending, rfl, rfl⟩)

/-- How a round ends with a fault: the next argument cannot be opened, or not be read. -/
theorem round_eq_ended_error {source : List Char} {current : OpenCall} {outer : List OpenCall}
    {fault : ReadingFault} (h : round source current outer = .ended (.error fault)) :
    ∃ fragment rest, current.pending = fragment :: rest ∧
      (isCallFragment fragment.text ∧
          enter source fragment.text fragment.position = .error fault ∨
        isCallFragment fragment.text = false ∧
          Literal.read fragment.text source fragment.position = .error fault) := by
  unfold round at h
  split at h
  · next fragment rest hpending =>
    dsimp only at h
    refine ⟨fragment, rest, hpending, ?_⟩
    split at h
    · next hcall =>
      split at h
      · contradiction
      · next henter =>
        obtain rfl := Except.error.inj (Round.ended.inj h)
        exact Or.inl ⟨hcall, henter⟩
    · next hcall =>
      split at h
      · contradiction
      · next hread =>
        obtain rfl := Except.error.inj (Round.ended.inj h)
        exact Or.inr ⟨Bool.not_eq_true _ ▸ hcall, hread⟩
  · cases outer <;> simp at h

/-- The loop goes one round and then on. -/
theorem run_eq_round (source : List Char) (current : OpenCall) (outer : List OpenCall) :
    run source current outer = (round source current outer).outcome (run source) := by
  unfold run round
  split
  · next fragment rest hpending =>
    rw [hpending]
    dsimp only
    split
    · cases enter source fragment.text fragment.position <;> rfl
    · cases Literal.read fragment.text source fragment.position <;> rfl
  · next hpending =>
    rw [hpending]
    cases outer <;> rfl

/-- Read the arguments of a call that are still pending, by recursion, and close the call. -/
def finish (source : List Char) (call : OpenCall) : Except ReadingFault Call := do
  let arguments ← call.pending.mapM (Argument.meaning source)
  return ⟨String.ofList call.name, call.done.reverse ++ arguments⟩

/-- Hand a call to the innermost open call, finish that one, and so on to the outermost. -/
def unwind (source : List Char) : List OpenCall → Call → Except ReadingFault Call
  | [], call => .ok call
  | parent :: outer, call => do
    unwind source outer (← finish source (parent.accept call.toArgument))

/-- What open calls still owe, by recursion: the innermost call first, then those around it. -/
def owed (source : List Char) (current : OpenCall) (outer : List OpenCall) :
    Except ReadingFault Call := do
  unwind source outer (← finish source current)

/-- A call without pending arguments is closed. -/
theorem finish_nil {source : List Char} {call : OpenCall} (h : call.pending = []) :
    finish source call = .ok call.close := by
  simp [finish, h, close]

/-- The first pending argument is read before the rest of the call is finished. -/
theorem finish_cons {source : List Char} {call : OpenCall} {fragment : Fragment}
    {rest : List Fragment} (h : call.pending = fragment :: rest) :
    finish source call = (do
      let argument ← Argument.meaning source fragment
      finish source ({ call with pending := rest }.accept argument)) := by
  simp only [finish, h, List.mapM_cons, bind_assoc, pure_bind, accept, List.reverse_cons,
    List.append_assoc, List.singleton_append]

/-- To open a call and to finish it is to read its meaning. -/
theorem meaning_eq_finish (source text : List Char) (offset : Int) :
    Call.meaning source text offset = enter source text offset >>= finish source := by
  rw [Call.meaning_eq, enter, bind_assoc]
  congr 1
  funext head
  rw [bind_assoc]
  rfl

/-- A round does not change what is owed. -/
theorem owed_eq_round (source : List Char) (current : OpenCall) (outer : List OpenCall) :
    owed source current outer = (round source current outer).outcome (owed source) := by
  unfold round
  split
  · next fragment rest hpending =>
    rw [owed, finish_cons hpending, Argument.meaning, Argument.readWith]
    split
    · next hcall =>
      rw [except_map_bind, meaning_eq_finish]
      cases henter : enter source fragment.text fragment.position with
      | error fault => rfl
      | ok child => simp only [ok_bind, Round.outcome, owed, unwind, bind_assoc]
    · next hcall =>
      rw [except_map_bind]
      cases hread : Literal.read fragment.text source fragment.position with
      | error fault => rfl
      | ok value => rfl
  · next hpending =>
    rw [owed, finish_nil hpending]
    cases outer <;> rfl

/-- Open calls that are still open after a round weigh less. -/
theorem weight_of_round {source : List Char} {current next : OpenCall}
    {outer around : List OpenCall} (h : round source current outer = .ongoing next around) :
    next.weight + totalWeight around < current.weight + totalWeight outer := by
  rcases round_eq_ongoing h with ⟨fragment, rest, hpending, -, henter, rfl⟩ |
    ⟨fragment, rest, value, hpending, -, -, rfl, rfl⟩ | ⟨parent, hpending, rfl, rfl⟩
  · have := weight_of_enter henter
    simp only [totalWeight, weight, Fragment.room, hpending] at this ⊢
    omega
  · simp only [accept, weight, Fragment.room, hpending]
    omega
  · simp only [totalWeight, accept, weight, Fragment.room, hpending]
    omega

/-- The loop comes to what the open calls owe. -/
theorem run_eq_owed (source : List Char) (current : OpenCall) (outer : List OpenCall) :
    run source current outer = owed source current outer := by
  induction hn : current.weight + totalWeight outer using Nat.strongRecOn
    generalizing current outer with
  | ind n ih =>
    -- both go the same round; what is open after it weighs less
    rw [run_eq_round, owed_eq_round]
    cases hround : round source current outer with
    | ended outcome => rfl
    | ongoing next around => exact ih _ (hn ▸ weight_of_round hround) next around rfl

/-- The outcome of the loop, if it takes no more rounds than `n`. -/
def within (source : List Char) : Nat → OpenCall → List OpenCall → Option (Except ReadingFault Call)
  | 0, _, _ => none
  | n + 1, current, outer =>
    match round source current outer with
    | .ended outcome => some outcome
    | .ongoing next around => within source n next around

/-- The loop takes no more rounds than the open calls weigh. -/
theorem within_weight (source : List Char) (n : Nat) (current : OpenCall) (outer : List OpenCall)
    (h : current.weight + totalWeight outer ≤ n) :
    within source n current outer = some (run source current outer) := by
  induction n generalizing current outer with
  | zero => simp [weight] at h
  | succ n ih =>
    rw [within, run_eq_round]
    cases hround : round source current outer with
    | ended outcome => rfl
    | ongoing next around =>
      have := weight_of_round hround
      exact ih next around (by omega)

end OpenCall

namespace Call

/-- The outcome of reading a whole text, if the loop takes no more rounds than `n`. -/
def readWithin (n : Nat) (source : List Char) : Option (Except ReadingFault Call) :=
  match OpenCall.enter source source 0 with
  | .ok opened => OpenCall.within source n opened []
  | .error fault => some (.error fault)

/-- To read a whole text is to find its meaning. -/
theorem read_eq_meaning (source : List Char) : read source = meaning source source 0 := by
  rw [read, OpenCall.meaning_eq_finish]
  congr 1
  funext opened
  rw [OpenCall.run_eq_owed, OpenCall.owed]
  exact bind_pure _

/-- Reading takes about two rounds for each character of the text. -/
theorem readWithin_length (source : List Char) :
    readWithin (2 * source.length + 1) source = some (read source) := by
  unfold readWithin read
  cases henter : OpenCall.enter source source 0 with
  | error fault => rfl
  | ok opened =>
    have := OpenCall.weight_of_enter henter
    refine OpenCall.within_weight source _ opened [] ?_
    rw [OpenCall.totalWeight]
    omega

/-- Reading an expression ends and gives its meaning: the same tree or the same first fault as the
recursion over outer shapes, arguments and nested calls. -/
theorem parse_eq_recursive_meaning (expression : String) :
    Call.parse expression = meaning expression.toList expression.toList 0 ∧
    readWithin (2 * expression.toList.length + 1) expression.toList =
      some (Call.parse expression) ∧
    ∀ (source text : List Char) (offset : Int), meaning source text offset = (do
      let head ← Head.read text source offset
      let fragments ← Fragment.split head.arguments source head.offset
      let arguments ← fragments.mapM fun fragment =>
        Argument.readWith (meaning source) fragment.text source fragment.position
      return ⟨String.ofList head.name, arguments⟩) :=
  ⟨read_eq_meaning _, readWithin_length _, meaning_eq⟩

end Call

end DriverPolicy
