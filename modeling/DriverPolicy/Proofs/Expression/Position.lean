import DriverPolicy.Proofs.Expression.Marker
import DriverPolicy.Proofs.Expression.Outcome

/-!
# The positions of faults

While an expression is read, every text that is opened as a call and every argument that is split
off stands in the expression at the position that it carries. The loop hands these positions on
from the open calls to their arguments, so this holds at any depth.

A fault is therefore reported against the expression and at a character of it, and that character
is where the fault lies: a bracket, a blank piece, the argument that is no number, or what follows
the longest start that a call can have.
-/

namespace DriverPolicy

namespace OpenCall

variable {source text : List Char} {offset : Int}

/-- The arguments of an opened call stand at their positions, and none is blank at its ends. -/
theorem standsAt_of_enter {opened : OpenCall} (hstands : StandsAt source text offset)
    (henter : enter source text offset = .ok opened) : ∀ fragment ∈ opened.pending,
      StandsAt source fragment.text fragment.position ∧ Solid fragment.text := by
  obtain ⟨head, hhead, hrest⟩ := bind_eq_ok_iff.mp henter
  obtain ⟨fragments, hsplit, hopened⟩ := bind_eq_ok_iff.mp hrest
  obtain rfl := Except.ok.inj hopened
  by_cases hblank : allBlank head.arguments
  · rw [Fragment.split, if_pos hblank] at hsplit
    obtain rfl := Except.ok.inj hsplit
    simp
  · have hclosed := (Head.read_eq_ok_iff.mp hhead).standsAt_closed hstands hblank
    have houtcome := Fragment.cutOutcome_split source head.offset hblank
    rw [hsplit] at houtcome
    have hmarked : StandsAt source ((shield none head.arguments).map Prod.fst) head.offset := by
      rw [Fragment.map_fst_shield]
      exact hclosed.left
    exact fun fragment hmem =>
      ⟨houtcome.standsAt hmarked fragment hmem, houtcome.solid fragment hmem⟩

/-- The calls that are open at some moment while an expression is read: the innermost one, and those
around it. -/
inductive Visits (source : List Char) : OpenCall → List OpenCall → Prop
  | start {opened : OpenCall} (henter : enter source source 0 = .ok opened) :
      Visits source opened []
  | next {current next : OpenCall} {outer around : List OpenCall}
      (hvisits : Visits source current outer)
      (hround : round source current outer = .ongoing next around) : Visits source next around

/-- What holds of the arguments of the whole expression, and of those of a call that is opened for an
argument it holds of, holds of all arguments that are pending at any moment. -/
theorem Visits.forall_pending {p : Fragment → Prop}
    (hstart : ∀ opened, enter source source 0 = .ok opened → ∀ fragment ∈ opened.pending, p fragment)
    (hnested : ∀ current outer fragment rest opened, Visits source current outer →
      current.pending = fragment :: rest → isCallFragment fragment.text → p fragment →
      enter source fragment.text fragment.position = .ok opened →
      ∀ child ∈ opened.pending, p child)
    {current : OpenCall} {outer : List OpenCall} (h : Visits source current outer) :
    ∀ call ∈ current :: outer, ∀ fragment ∈ call.pending, p fragment := by
  induction h with
  | start henter =>
    intro call hcall
    exact List.mem_singleton.mp hcall ▸ hstart _ henter
  | @next current next outer around hvisits hround ih =>
    rw [List.forall_mem_cons] at ih
    obtain ⟨hcurrent, houter⟩ := ih
    rw [List.forall_mem_cons]
    rcases round_eq_ongoing hround with ⟨fragment, rest, hpending, hisCall, henter, rfl⟩ |
      ⟨fragment, rest, value, hpending, -, -, rfl, rfl⟩ | ⟨parent, -, rfl, rfl⟩
    · rw [hpending, List.forall_mem_cons] at hcurrent
      exact ⟨hnested current outer fragment rest next hvisits hpending hisCall hcurrent.1 henter,
        List.forall_mem_cons.mpr ⟨hcurrent.2, houter⟩⟩
    · rw [hpending, List.forall_mem_cons] at hcurrent
      exact ⟨hcurrent.2, houter⟩
    · rw [List.forall_mem_cons] at houter
      exact houter

/-- All arguments that are pending at any moment stand at their positions. -/
theorem Visits.standsAt {current : OpenCall} {outer : List OpenCall}
    (h : Visits source current outer) : ∀ fragment ∈ current.pending,
      StandsAt source fragment.text fragment.position ∧ Solid fragment.text :=
  h.forall_pending (fun _ henter => standsAt_of_enter (.refl source) henter)
    (fun _ _ _ _ _ _ _ _ hfragment henter => standsAt_of_enter hfragment.1 henter)
    current List.mem_cons_self

end OpenCall

namespace Literal

variable {text source : List Char} {position : Int}

/-- The fault of an argument that is no number is at the argument and names what stands in it behind
the marker. -/
theorem fault_of_read {fault : ExpressionFault}
    (h : read text source position = .error (.expression fault)) :
    ∃ kind, fault = ⟨.number (String.ofList (splitMarker text).2) kind, String.ofList source,
      position⟩ := by
  rcases read_cases text source position with ⟨value, hread, -⟩ | ⟨kind, hread⟩ |
    ⟨count, hoverlong⟩
  · exact absurd (hread.symm.trans h) (by simp)
  · exact ⟨kind.name, (ReadingFault.expression.inj (Except.error.inj (hread.symm.trans h))).symm⟩
  · exact absurd ((hoverlong.read_eq source position).symm.trans h) (by simp)

end Literal

namespace Call

/-- The texts that are opened as calls while an expression is read, and where: the whole expression,
and each nested call when its turn comes. -/
inductive Opens (source : List Char) : List Char → Int → Prop
  | root : Opens source source 0
  | nested {current : OpenCall} {outer : List OpenCall} {fragment : Fragment} {rest : List Fragment}
      (hvisits : OpenCall.Visits source current outer) (hpending : current.pending = fragment :: rest)
      (hcall : isCallFragment fragment.text) : Opens source fragment.text fragment.position

/-- The arguments that are split off while an expression is read: those of the opened texts. -/
inductive Splits (source : List Char) : Fragment → Prop
  | intro {text : List Char} {offset : Int} {opened : OpenCall} {fragment : Fragment}
      (hopens : Opens source text offset) (henter : OpenCall.enter source text offset = .ok opened)
      (hmem : fragment ∈ opened.pending) : Splits source fragment

variable {source text : List Char} {offset : Int} {fragment : Fragment}

/-- An opened text stands at its position. -/
theorem Opens.standsAt (h : Opens source text offset) : StandsAt source text offset := by
  cases h with
  | root => exact .refl source
  | nested hvisits hpending _ => exact (hvisits.standsAt _ (hpending ▸ List.mem_cons_self)).1

/-- An opened text is not blank, unless the whole expression is. -/
theorem Opens.not_allBlank (h : Opens source text offset) (hsource : allBlank source = false) :
    allBlank text = false := by
  cases h with
  | root => exact hsource
  | nested hvisits hpending _ =>
    exact (hvisits.standsAt _ (hpending ▸ List.mem_cons_self)).2.not_allBlank

/-- An argument that is split off stands at its position and has no blanks at its ends. -/
theorem Splits.standsAt (h : Splits source fragment) :
    StandsAt source fragment.text fragment.position ∧ Solid fragment.text := by
  obtain ⟨hopens, henter, hmem⟩ := h
  exact OpenCall.standsAt_of_enter hopens.standsAt henter fragment hmem

/-- All arguments that are pending at any moment are split off from an opened text. -/
theorem splits_of_visits {current : OpenCall} {outer : List OpenCall}
    (h : OpenCall.Visits source current outer) : ∀ fragment ∈ current.pending,
      Splits source fragment :=
  h.forall_pending (fun _ henter _ hmem => .intro .root henter hmem)
    (fun _ _ _ _ _ hvisits hpending hcall _ henter _ hmem =>
      .intro (.nested hvisits hpending hcall) henter hmem)
    current List.mem_cons_self

/-- What a fault comes from: a text that cannot be opened, or an argument that is neither a call nor
a literal. -/
inductive FaultsAt (source : List Char) (fault : ReadingFault) : Prop
  | opening {text : List Char} {offset : Int} (hopens : Opens source text offset)
      (henter : OpenCall.enter source text offset = .error fault)
  | literal {fragment : Fragment} (hsplits : Splits source fragment)
      (hcall : isCallFragment fragment.text = false)
      (hread : Literal.read fragment.text source fragment.position = .error fault)

/-- A fault of the loop comes from an opened text or from one of its arguments. -/
theorem faultsAt_of_run {current : OpenCall} {outer : List OpenCall} {fault : ReadingFault}
    (hvisits : OpenCall.Visits source current outer)
    (h : OpenCall.run source current outer = .error fault) : FaultsAt source fault := by
  induction hn : current.weight + OpenCall.totalWeight outer using Nat.strongRecOn
    generalizing current outer with
  | ind n ih =>
    rw [OpenCall.run_eq_round] at h
    cases hround : OpenCall.round source current outer with
    | ended outcome =>
      rw [hround] at h
      obtain rfl : outcome = .error fault := h
      obtain ⟨fragment, rest, hpending, ⟨hcall, henter⟩ | ⟨hcall, hread⟩⟩ :=
        OpenCall.round_eq_ended_error hround
      · exact .opening (.nested hvisits hpending hcall) henter
      · exact .literal (splits_of_visits hvisits fragment (hpending ▸ List.mem_cons_self)) hcall hread
    | ongoing next around =>
      rw [hround] at h
      exact ih _ (hn ▸ OpenCall.weight_of_round hround) (hvisits.next hround) h rfl

/-- So does a fault of a whole expression. -/
theorem faultsAt_of_read {fault : ReadingFault} (h : read source = .error fault) :
    FaultsAt source fault := by
  rcases bind_eq_error_iff.mp h with henter | ⟨opened, henter, hrun⟩
  · exact .opening .root henter
  · exact faultsAt_of_run (.start henter) hrun

/-- A fault of an expression lies where it is reported. Where an opened text is no call, the position
is that behind its longest lead. Brackets that do not pair are reported at a closing one. An empty
argument is a blank piece of the arguments of an opened text, which begins where they do or behind an
unquoted comma, and ends before one or where they do. A number that is none is an argument, named
without its marker. -/
def Pinpoints (source : List Char) (fault : ExpressionFault) : Prop :=
  match fault.defect with
  | .malformed (.notACall shown) =>
    ∃ text offset lead, Opens source text offset ∧
      Head.read text source offset = .error (.expression fault) ∧
      shown = String.ofList (trim text) ∧ LongestLead text lead ∧
      fault.position = offset + lead.length
  | .malformed .unbalancedClose => StandsAt source [')'] fault.position
  | .malformed .unclosedOpen => StandsAt source [')'] fault.position
  | .malformed .emptyArgument =>
    ∃ text offset head, Opens source text offset ∧ Head.read text source offset = .ok head ∧
      Fragment.split head.arguments source head.offset = .error (.expression fault) ∧
      ∃ before piece after, shield none head.arguments = before ++ piece ++ after ∧
        (∀ m ∈ before.getLast?, m = (',', false)) ∧ allBlank (piece.map Prod.fst) ∧
        (∀ m ∈ after.head?, m = (',', false)) ∧ fault.position = head.offset + before.length ∧
        StandsAt source (piece.map Prod.fst) fault.position
  | .number literal _ =>
    ∃ fragment, Splits source fragment ∧ isCallFragment fragment.text = false ∧
      Literal.read fragment.text source fragment.position = .error (.expression fault) ∧
      fault.position = fragment.position ∧ LessMarker fragment.text literal.toList
  | _ => False

/-- A fault is reported against an expression, at one of its characters, and lies there. -/
structure Located (source : List Char) (fault : ExpressionFault) : Prop where
  source_eq : fault.source = String.ofList source
  nonneg : 0 ≤ fault.position
  lt_length : fault.position < source.length
  pinpoints : Pinpoints source fault

/-- A text that has no outer shape is at fault behind its lead. -/
theorem located_of_read {fault : ExpressionFault} (hsource : allBlank source = false)
    (hopens : Opens source text offset)
    (hread : Head.read text source offset = .error (.expression fault)) : Located source fault := by
  have hstands := hopens.standsAt
  rcases Head.read_cases text source offset with ⟨head, hhead, -⟩ | ⟨hblank, -⟩ | ⟨hbehind, hother⟩
  · exact absurd (hhead.symm.trans hread) (by simp)
  · exact absurd hblank (by simp [hopens.not_allBlank hsource])
  · rw [hstands.sourceOr_eq] at hother
    obtain rfl := ReadingFault.expression.inj (Except.error.inj (hother.symm.trans hread))
    have hlength := congrArg List.length (Head.lead_append_behindLead text)
    have hpos := List.length_pos_iff.mpr hbehind
    have hbounds := hstands.bounds
    rw [List.length_append] at hlength
    refine ⟨rfl, ?_, ?_, text, offset, Head.lead text, hopens, hread, rfl, Head.longestLead text, rfl⟩
    · dsimp only
      omega
    · dsimp only
      omega

/-- Arguments that cannot be split are at fault before the bracket that closes them, or at it. -/
theorem located_of_split {head : Head} {fault : ExpressionFault} (hopens : Opens source text offset)
    (hhead : Head.read text source offset = .ok head)
    (hsplit : Fragment.split head.arguments source head.offset = .error (.expression fault)) :
    Located source fault := by
  have hblank : ¬allBlank head.arguments := fun hblank => by
    rw [Fragment.split, if_pos hblank] at hsplit
    contradiction
  have hclosed := (Head.read_eq_ok_iff.mp hhead).standsAt_closed hopens.standsAt hblank
  have houtcome := Fragment.cutOutcome_split source head.offset hblank
  rw [hclosed.left.sourceOr_eq, hsplit] at houtcome
  obtain ⟨what, position, hbreaks, hfault⟩ := houtcome
  obtain rfl := ReadingFault.expression.inj hfault
  have hbehind {front back : List (Char × Bool)} (hparts : front ++ back = shield none head.arguments) :
      StandsAt source (back.map Prod.fst ++ [')']) (head.offset + front.length) := by
    rw [← Fragment.map_fst_shield none head.arguments, ← hparts, List.map_append,
      List.append_assoc] at hclosed
    have hright := hclosed.right
    rwa [List.length_map] at hright
  have hbounds : 0 ≤ position ∧ position < source.length := by
    obtain ⟨front, back, hparts, rfl⟩ := hbreaks.exists_append
    have := (hbehind hparts).bounds
    rw [List.length_append, List.length_singleton] at this
    omega
  refine ⟨rfl, hbounds.1, hbounds.2, ?_⟩
  cases hbreaks with
  | unbalancedClose hparts =>
    have hstands := hbehind hparts
    rw [List.map_cons, ← List.singleton_append, List.append_assoc] at hstands
    exact hstands.left
  | unclosedOpen => exact hbehind (List.append_nil _)
  | @emptyArgument before piece after hparts hbefore hempty hafter =>
    have hstands := hbehind ((List.append_assoc _ _ _).symm.trans hparts)
    rw [List.map_append, List.append_assoc] at hstands
    exact ⟨text, offset, head, hopens, hhead, hsplit, before, piece, after, hparts.symm, hbefore,
      hempty, hafter, rfl, hstands.left⟩

/-- An argument that is no number is at fault at its beginning. -/
theorem located_of_literal {fault : ExpressionFault} (hsplits : Splits source fragment)
    (hcall : isCallFragment fragment.text = false)
    (hread : Literal.read fragment.text source fragment.position = .error (.expression fault)) :
    Located source fault := by
  obtain ⟨kind, rfl⟩ := Literal.fault_of_read hread
  obtain ⟨hstands, hsolid⟩ := hsplits.standsAt
  have hpos := List.length_pos_iff.mpr hsolid.ne_nil
  have hbounds := hstands.bounds
  have hless := lessMarker_splitMarker hsolid
  rw [← @String.toList_ofList (splitMarker fragment.text).2] at hless
  refine ⟨rfl, ?_, ?_, fragment, hsplits, hcall, hread, rfl, hless⟩
  · dsimp only
    omega
  · dsimp only
    omega

/-- Every text that is opened and every argument that is split off while an expression is read stands
in the expression at its position; and a fault of an expression that is not blank names the whole
expression and a position of one of its characters, where the defect lies. -/
theorem fault_pinpoints (expression : String) :
    (∀ text offset, Opens expression.toList text offset →
      StandsAt expression.toList text offset) ∧
    (∀ fragment, Splits expression.toList fragment →
      StandsAt expression.toList fragment.text fragment.position) ∧
    ∀ fault, allBlank expression.toList = false →
      Call.parse expression = .error (.expression fault) →
        fault.source = expression ∧ 0 ≤ fault.position ∧
          fault.position < expression.toList.length ∧ Pinpoints expression.toList fault := by
  refine ⟨fun _ _ hopens => hopens.standsAt, fun _ hsplits => hsplits.standsAt.1,
    fun fault hblank hparse => ?_⟩
  have hlocated : Located expression.toList fault := by
    cases faultsAt_of_read hparse with
    | opening hopens henter =>
      rcases bind_eq_error_iff.mp henter with hread | ⟨head, hhead, hrest⟩
      · exact located_of_read hblank hopens hread
      · rcases bind_eq_error_iff.mp hrest with hsplit | ⟨fragments, -, hopened⟩
        · exact located_of_split hopens hhead hsplit
        · contradiction
    | literal hsplits hcall hread => exact located_of_literal hsplits hcall hread
  obtain ⟨hsource, hnonneg, hlt, hpinpoints⟩ := hlocated
  rw [String.ofList_toList] at hsource
  exact ⟨hsource, hnonneg, hlt, hpinpoints⟩

/-- A blank piece in a nested call is found where it begins. -/
theorem parse_blank_piece_nested :
    allBlank "A(B(1, ))".toList = false ∧
      Call.parse "A(B(1, ))" =
        .error (.expression ⟨.malformed .emptyArgument, "A(B(1, ))", 6⟩) ∧
      Pinpoints "A(B(1, ))".toList ⟨.malformed .emptyArgument, "A(B(1, ))", 6⟩ := by
  have hparse : Call.parse "A(B(1, ))" =
      .error (.expression ⟨.malformed .emptyArgument, "A(B(1, ))", 6⟩) :=
    Option.some.inj ((readWithin_length _).symm.trans rfl)
  have hblank : allBlank "A(B(1, ))".toList = false := by decide
  exact ⟨hblank, hparse, ((fault_pinpoints "A(B(1, ))").2.2 _ hblank hparse).2.2.2⟩

end Call

end DriverPolicy
