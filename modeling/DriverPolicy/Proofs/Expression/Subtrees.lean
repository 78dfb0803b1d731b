import DriverPolicy.Proofs.Expression.Elsewhere
import DriverPolicy.Proofs.Expression.Position

/-!
# Nested calls read alone

The loop that reads an expression keeps the open calls on a list. While a nested call is open, the calls
around it stay below it as they are, and no round looks at them: each goes as it would if the nested call
were read alone. The nested call is therefore either built in full, or an argument in it is at fault, and
what comes out is what its text means. Because a text means the same wherever it stands, this is what
reading the text alone comes to, and a fault is found there at the same character.
-/

namespace DriverPolicy

/-- Calls are the same if they are as arguments. -/
theorem Call.toArgument_inj {a b : Call} (h : a.toArgument = b.toArgument) : a = b := by
  cases a
  cases b
  obtain ⟨rfl, rfl⟩ := Argument.call.inj h
  rfl

namespace OpenCall

/-- What a round comes to above other open calls. -/
def Round.above (base : List OpenCall) : Round → Round
  | ended outcome => .ended outcome
  | ongoing current outer => .ongoing current (outer ++ base)

/-- A round does not look below the innermost call unless it closes it, and then no further than the call
around it. -/
theorem round_append (source : List Char) {current : OpenCall} {inner : List OpenCall}
    (h : current.pending ≠ [] ∨ inner ≠ []) (base : List OpenCall) :
    round source current (inner ++ base) = (round source current inner).above base := by
  unfold round
  split
  · dsimp only
    split
    · split <;> rfl
    · split <;> rfl
  · next hpending =>
    cases inner with
    | nil => exact absurd hpending (h.resolve_right fun hne => hne rfl)
    | cons parent inner => rfl

/-- The calls that are open at some moment at or inside a call that was opened above others, before it is
closed: the innermost one, and those around it up to that call. -/
inductive Inside (source : List Char) (opened : OpenCall) (base : List OpenCall) :
    OpenCall → List OpenCall → Prop
  | start : Inside source opened base opened []
  | next {current next : OpenCall} {inner around : List OpenCall}
      (hinside : Inside source opened base current inner)
      (hround : round source current (inner ++ base) = .ongoing next (around ++ base)) :
      Inside source opened base next around

variable {source : List Char} {opened current next parent : OpenCall} {inner outer base : List OpenCall}

/-- A round that stays above the other open calls goes as it would without them. -/
theorem round_eq_of_append {around : List OpenCall}
    (h : round source current (inner ++ parent :: outer) = .ongoing next (around ++ parent :: outer)) :
    round source current inner = .ongoing next around := by
  by_cases hlast : current.pending ≠ [] ∨ inner ≠ []
  · rw [round_append source hlast] at h
    cases hround : round source current inner with
    | ended outcome => simp [hround, Round.above] at h
    | ongoing other above =>
      rw [hround] at h
      obtain ⟨rfl, happend⟩ := Round.ongoing.inj h
      rw [List.append_cancel_right happend]
  · -- closing the nested call would leave less than the calls around it
    obtain ⟨hpending, hinner⟩ := not_or.mp hlast
    rw [not_not] at hpending hinner
    subst hinner
    unfold round at h
    rw [hpending] at h
    obtain ⟨-, happend⟩ := Round.ongoing.inj h
    have := congrArg List.length happend
    rw [List.length_append, List.length_cons] at this
    omega

namespace Inside

/-- What is owed at and inside the nested call does not change while it is open. -/
theorem owed_eq (h : Inside source opened (parent :: outer) current inner) :
    owed source opened [] = owed source current inner := by
  induction h with
  | start => rfl
  | next _ hround ih => rw [ih, owed_eq_round, round_eq_of_append hround, Round.outcome]

/-- While the nested call is open, the loop is at a moment of the reading of the whole expression. -/
theorem visits (h : Inside source opened base current inner) (hopened : Visits source opened base) :
    Visits source current (inner ++ base) := by
  induction h with
  | start => exact hopened
  | next _ hround ih => exact ih.next hround

end Inside

/-- The tree that is built for the nested call that an argument shows: the call is opened, and in the end
closing it hands the tree to the call around it. -/
inductive Builds (source : List Char) (parent : OpenCall) (outer : List OpenCall) (fragment : Fragment)
    (tree : Call) : Prop
  | intro {opened last : OpenCall} (henter : enter source fragment.text fragment.position = .ok opened)
      (hinside : Inside source opened (parent :: outer) last [])
      (hround : round source last (parent :: outer) = .ongoing (parent.accept tree.toArgument) outer)

/-- A fault that ends the reading when the nested call that an argument shows is being opened, or while it
is open. -/
inductive FailsIn (source : List Char) (parent : OpenCall) (outer : List OpenCall) (fragment : Fragment)
    (fault : ReadingFault) : Prop
  | opening (henter : enter source fragment.text fragment.position = .error fault)
  | inside {opened last : OpenCall} {inner : List OpenCall}
      (henter : enter source fragment.text fragment.position = .ok opened)
      (hinside : Inside source opened (parent :: outer) last inner)
      (hround : round source last (inner ++ parent :: outer) = .ended (.error fault))

/-- At every moment of the reading the outcome is that of going on from there. -/
theorem Visits.read_eq (h : Visits source current outer) :
    Call.read source = run source current outer := by
  induction h with
  | start henter => rw [Call.read, henter, ok_bind]
  | next _ hround ih => rw [ih, run_eq_round, hround, Round.outcome]

variable {fragment : Fragment} {rest : List Fragment}

/-- To finish a call is what is owed when nothing is open around it. -/
theorem owed_nil (source : List Char) (call : OpenCall) : owed source call [] = finish source call :=
  bind_pure _

/-- The tree that is built for a nested call is what its text means. -/
theorem Builds.meaning_eq {tree : Call} (h : Builds source parent outer fragment tree) :
    Call.meaning source fragment.text fragment.position = .ok tree := by
  obtain @⟨opened, last, henter, hinside, hround⟩ := h
  have hclosed : last.pending = [] ∧ last.close = tree := by
    rcases round_eq_ongoing hround with ⟨_, _, -, -, -, houter⟩ | ⟨_, _, _, -, -, -, -, houter⟩ |
      ⟨around, hpending, houter, haccept⟩
    · have := congrArg List.length houter
      simp only [List.length_cons] at this
      omega
    · have := congrArg List.length houter
      simp only [List.length_cons] at this
      omega
    · obtain ⟨rfl, -⟩ := List.cons.inj houter
      have hlast := congrArg OpenCall.done haccept
      exact ⟨hpending, (Call.toArgument_inj (List.cons.inj hlast).1).symm⟩
  rw [meaning_eq_finish, henter, ok_bind, ← owed_nil, hinside.owed_eq, owed_nil, finish_nil hclosed.1,
    hclosed.2]

/-- A fault in a nested call is what its text means. -/
theorem FailsIn.meaning_eq {fault : ReadingFault} (h : FailsIn source parent outer fragment fault) :
    Call.meaning source fragment.text fragment.position = .error fault := by
  rw [meaning_eq_finish]
  cases h with
  | opening henter => rw [henter, error_bind]
  | @inside opened last inner henter hinside hround =>
    obtain ⟨next, rest, hpending, -⟩ := round_eq_ended_error hround
    have hongoing : last.pending ≠ [] ∨ inner ≠ [] := Or.inl (by rw [hpending]; exact List.cons_ne_nil _ _)
    rw [round_append source hongoing] at hround
    have halone : round source last inner = .ended (.error fault) := by
      cases hround' : round source last inner with
      | ended outcome =>
        rw [hround'] at hround
        exact hround
      | ongoing next around =>
        rw [hround'] at hround
        contradiction
    rw [henter, ok_bind, ← owed_nil, hinside.owed_eq, owed_eq_round, halone, Round.outcome]

/-- The loop ends with a tree only where nothing is left to read or to close. -/
theorem round_eq_ended_ok {tree : Call} (h : round source current outer = .ended (.ok tree)) :
    current.pending = [] ∧ outer = [] := by
  unfold round at h
  split at h
  · dsimp only at h
    split at h
    · split at h <;> simp at h
    · split at h <;> simp at h
  · next hpending =>
    cases outer with
    | nil => exact ⟨hpending, rfl⟩
    | cons parent outer => simp at h

/-- From every moment while a nested call is open, it comes to be built or at fault. -/
theorem Inside.builds_or_failsIn (henter : enter source fragment.text fragment.position = .ok opened)
    (h : Inside source opened (parent :: outer) current inner) :
    (∃ tree, Builds source parent outer fragment tree) ∨
      ∃ fault, FailsIn source parent outer fragment fault := by
  induction hn : current.weight + totalWeight inner using Nat.strongRecOn
    generalizing current inner with
  | ind n ih =>
    by_cases hongoing : current.pending ≠ [] ∨ inner ≠ []
    · have happend := round_append source hongoing (parent :: outer)
      cases hround : round source current inner with
      | ongoing next around =>
        rw [hround] at happend
        exact ih _ (hn ▸ weight_of_round hround) (h.next happend) rfl
      | ended outcome =>
        rw [hround] at happend
        cases outcome with
        | error fault => exact Or.inr ⟨fault, .inside henter h happend⟩
        | ok tree =>
          obtain ⟨hpending, hinner⟩ := round_eq_ended_ok hround
          exact absurd hongoing (by simp [hpending, hinner])
    · obtain ⟨hpending, hinner⟩ := not_or.mp hongoing
      rw [not_not] at hpending hinner
      subst hinner
      refine Or.inl ⟨current.close, .intro henter h ?_⟩
      unfold round
      rw [hpending]

/-- A nested call is built or at fault. -/
theorem builds_or_failsIn (source : List Char) (parent : OpenCall) (outer : List OpenCall)
    (fragment : Fragment) : (∃ tree, Builds source parent outer fragment tree) ∨
      ∃ fault, FailsIn source parent outer fragment fault := by
  cases henter : enter source fragment.text fragment.position with
  | error fault => exact Or.inr ⟨fault, .opening henter⟩
  | ok opened => exact Inside.start.builds_or_failsIn henter

/-- A fault in a nested call is the outcome of reading the whole expression. -/
theorem FailsIn.read_eq {fault : ReadingFault} (hvisits : Visits source current outer)
    (hpending : current.pending = fragment :: rest) (hcall : isCallFragment fragment.text)
    (h : FailsIn source { current with pending := rest } outer fragment fault) :
    Call.read source = .error fault := by
  cases h with
  | opening henter =>
    have hround : round source current outer = .ended (.error fault) := by
      unfold round
      rw [hpending]
      simp only [hcall, henter, ↓reduceIte]
    rw [hvisits.read_eq, run_eq_round, hround, Round.outcome]
  | @inside opened last inner henter hinside hround =>
    have hopened : round source current outer =
        .ongoing opened ({ current with pending := rest } :: outer) := by
      unfold round
      rw [hpending]
      simp only [hcall, henter, ↓reduceIte]
    rw [(hinside.visits (hvisits.next hopened)).read_eq, run_eq_round, hround, Round.outcome]

end OpenCall

namespace Call

/-- Nested calls are read as if they stood alone. When the reading of an expression comes to an argument
that is a nested call, this is either built or at fault. Its text alone reads as a tree if and only if this
tree is built for it. If it is at fault, the fault is the outcome of the whole, and the text alone has the
same fault, as many characters earlier as it stands in the expression. -/
theorem parse_nested {expression : String} {current : OpenCall} {outer : List OpenCall}
    {fragment : Fragment} {rest : List Fragment}
    (hvisits : OpenCall.Visits expression.toList current outer)
    (hpending : current.pending = fragment :: rest) (hcall : isCallFragment fragment.text) :
    (∀ tree, OpenCall.Builds expression.toList { current with pending := rest } outer fragment tree ↔
      parse (String.ofList fragment.text) = .ok tree) ∧
    (∀ fault, OpenCall.FailsIn expression.toList { current with pending := rest } outer fragment fault →
      parse expression = .error fault ∧
        ∃ fault', parse (String.ofList fragment.text) = .error fault' ∧
          fault.Moved fragment.position fault') ∧
    ((∃ tree, OpenCall.Builds expression.toList { current with pending := rest } outer fragment tree) ∨
      ∃ fault, OpenCall.FailsIn expression.toList { current with pending := rest } outer fragment fault) := by
  have halone : SameMoved fragment.position
      (meaning expression.toList fragment.text fragment.position) (parse (String.ofList fragment.text)) := by
    have hmoved := @meaning_moved fragment.position fragment.text expression.toList fragment.text
      fragment.position
    rwa [parse, String.toList_ofList, read_eq_meaning, ← Int.sub_self fragment.position]
  have hbuilds {tree : Call}
      (h : OpenCall.Builds expression.toList { current with pending := rest } outer fragment tree) :
      parse (String.ofList fragment.text) = .ok tree := by
    rw [h.meaning_eq] at halone
    obtain ⟨other, hother, rfl⟩ := halone.exists_of_ok
    exact hother
  have hfails {fault : ReadingFault}
      (h : OpenCall.FailsIn expression.toList { current with pending := rest } outer fragment fault) :
      ∃ fault', parse (String.ofList fragment.text) = .error fault' ∧
        fault.Moved fragment.position fault' := by
    rw [h.meaning_eq] at halone
    exact halone.exists_of_error
  have hcases := OpenCall.builds_or_failsIn expression.toList { current with pending := rest } outer fragment
  refine ⟨fun tree => ⟨hbuilds, fun hparse => ?_⟩,
    fun fault h => ⟨h.read_eq hvisits hpending hcall, hfails h⟩, hcases⟩
  rcases hcases with ⟨other, hother⟩ | ⟨fault, hfault⟩
  · obtain rfl := Except.ok.inj ((hbuilds hother).symm.trans hparse)
    exact hother
  · obtain ⟨fault', hparse', -⟩ := hfails hfault
    exact absurd (hparse'.symm.trans hparse) (by simp)

/-- An argument of a nested call that is no number is at fault there, and two characters earlier in the
nested call alone. -/
theorem parse_nested_badNumber :
    OpenCall.Visits "A(B(2x), C)".toList ⟨['A'], [⟨"B(2x)".toList, 2⟩, ⟨['C'], 9⟩], []⟩ [] ∧
    isCallFragment "B(2x)".toList ∧
    parse "A(B(2x), C)" = .error (.expression ⟨.number "2x" "int", "A(B(2x), C)", 4⟩) ∧
    ∃ fault', parse "B(2x)" = .error fault' ∧
      ReadingFault.Moved 2 (.expression ⟨.number "2x" "int", "A(B(2x), C)", 4⟩) fault' := by
  have hvisits : OpenCall.Visits "A(B(2x), C)".toList ⟨['A'], [⟨"B(2x)".toList, 2⟩, ⟨['C'], 9⟩], []⟩ [] :=
    .start rfl
  have hfails : OpenCall.FailsIn "A(B(2x), C)".toList ⟨['A'], [⟨['C'], 9⟩], []⟩ [] ⟨"B(2x)".toList, 2⟩
      (.expression ⟨.number "2x" "int", "A(B(2x), C)", 4⟩) :=
    @OpenCall.FailsIn.inside _ _ _ _ _ ⟨['B'], [⟨"2x".toList, 4⟩], []⟩ _ [] rfl .start rfl
  exact ⟨hvisits, by decide, (parse_nested hvisits rfl (by decide)).2.1 _ hfails⟩

end Call

end DriverPolicy
