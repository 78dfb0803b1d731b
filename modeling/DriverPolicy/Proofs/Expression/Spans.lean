import DriverPolicy.Proofs.Expression.Places
import DriverPolicy.Proofs.Expression.Position
import DriverPolicy.Proofs.Expression.Records

/-!
# Spans of arguments

An argument takes the characters of the expression from its position on, as many as its text has. The
arguments of a call are cut from between its brackets, with a comma between each and the next, so they
stand apart from each other, in order, and within the call without its first and last character. This
holds at every level, as each nested call is read from the text of an argument.

So a tree has no more nodes than the expression has characters. A call with arguments has a bracket of its
own before them, which bounds the depth. And reading spends one round on a literal and two on a call, one
to open it and one to close it, except for the outermost, which is open when the loop begins.
-/

namespace DriverPolicy

namespace Fragment

/-- One argument ends before another begins, with at least one character between them. -/
def Precedes (first second : Fragment) : Prop :=
  first.position + first.text.length < second.position

/-- Marked characters fall into arguments that stand among them, each before the next. -/
theorem Cuts.pairwise {start : Int} {marked : List (Char × Bool)} {fragments : List Fragment}
    (h : Cuts start marked fragments) : fragments.Pairwise Precedes ∧ ∀ fragment ∈ fragments,
      start ≤ fragment.position ∧
        fragment.position + fragment.text.length ≤ start + marked.length := by
  have hbounds {piece : List (Char × Bool)} {start : Int} {fragment : Fragment}
      (h : TrimmedFrom (piece.map Prod.fst) start fragment) : start ≤ fragment.position ∧
      fragment.position + fragment.text.length ≤ start + piece.length := by
    obtain ⟨before, after, -, -, hparts, hposition⟩ := h.placed
    have hlength := congrArg List.length hparts
    simp only [List.length_append, List.length_map] at hlength
    omega
  induction h with
  | last h =>
    refine ⟨List.pairwise_singleton _ _, fun fragment hmem => ?_⟩
    exact List.mem_singleton.mp hmem ▸ hbounds h
  | @more start piece rest first fragments h hrest ih =>
    obtain ⟨hpairwise, hwithin⟩ := ih
    have hfirst := hbounds h
    simp only [List.length_append, List.length_cons]
    refine ⟨List.pairwise_cons.mpr ⟨fun fragment hmem => ?_, hpairwise⟩, fun fragment hmem => ?_⟩
    · have := hwithin fragment hmem
      rw [Precedes]
      omega
    · rcases List.mem_cons.mp hmem with rfl | hmem
      · omega
      · have := hwithin fragment hmem
        omega

/-- Each of them is part of the characters. -/
theorem Cuts.isInfix {start : Int} {marked : List (Char × Bool)} {fragments : List Fragment}
    (h : Cuts start marked fragments) :
    ∀ fragment ∈ fragments, fragment.text <:+: marked.map Prod.fst := by
  have hpart {raw : List Char} {start : Int} {fragment : Fragment}
      (h : TrimmedFrom raw start fragment) : fragment.text <:+: raw := by
    obtain ⟨before, after, -, -, hparts, -⟩ := h.placed
    exact ⟨before, after, hparts⟩
  induction h with
  | last h =>
    intro fragment hmem
    exact List.mem_singleton.mp hmem ▸ hpart h
  | @more start piece rest first fragments h hrest ih =>
    intro fragment hmem
    rw [List.map_append, List.map_cons]
    rcases List.mem_cons.mp hmem with rfl | hmem
    · exact (hpart h).trans (List.prefix_append _ _).isInfix
    · exact (ih fragment hmem).trans
        ((List.suffix_cons _ _).trans (List.suffix_append _ _)).isInfix

/-- What a text is split into are the cuts of its characters; of blanks there are none. -/
theorem cuts_of_split {arguments source : List Char} {offset : Int} {fragments : List Fragment}
    (h : split arguments source offset = .ok fragments) :
    fragments = [] ∨ Cuts offset (shield none arguments) fragments := by
  by_cases hblank : allBlank arguments
  · rw [split, if_pos hblank] at h
    exact Or.inl (Except.ok.inj h).symm
  · have houtcome := cutOutcome_split source offset hblank
    rw [h] at houtcome
    exact Or.inr houtcome

variable {source text : List Char} {offset : Int} {head : Head} {fragments : List Fragment}

/-- The arguments of a call stand apart from each other, in order, and within the call. -/
theorem pairwise_of_read (hread : Head.read text source offset = .ok head)
    (hsplit : split head.arguments source head.offset = .ok fragments) :
    fragments.Pairwise Precedes ∧ ∀ fragment ∈ fragments, offset < fragment.position ∧
      fragment.position + fragment.text.length < offset + text.length := by
  rcases cuts_of_split hsplit with rfl | hcuts
  · simp
  obtain ⟨hpairwise, hwithin⟩ := hcuts.pairwise
  refine ⟨hpairwise, fun fragment hmem => ?_⟩
  have hbounds := hwithin fragment hmem
  rw [length_shield] at hbounds
  cases Head.read_eq_ok_iff.mp hread with
  | bare =>
    rw [split, if_pos allBlank_nil] at hsplit
    obtain rfl := Except.ok.inj hsplit
    simp at hmem
  | bracketed _ hname _ _ htext =>
    have hlength := congrArg List.length htext
    simp only [List.length_append, List.length_cons] at hlength hbounds
    omega

/-- The arguments of a call take less room than the call. -/
theorem room_lt_of_read (hread : Head.read text source offset = .ok head)
    (hsplit : split head.arguments source head.offset = .ok fragments) :
    room fragments < text.length := by
  rcases Head.length_arguments_of_read hread with hnone | hlt
  · rw [hnone, split, if_pos allBlank_nil] at hsplit
    obtain rfl := Except.ok.inj hsplit
    have hpos : text ≠ [] := by
      rintro rfl
      simp [Head.read, allBlank, malformed] at hread
    exact List.length_pos_iff.mpr hpos
  · have := room_of_split hsplit
    omega

/-- A call with arguments has an opening bracket besides those of any of its arguments. -/
theorem count_lt_of_read (hread : Head.read text source offset = .ok head)
    (hsplit : split head.arguments source head.offset = .ok fragments) :
    ∀ fragment ∈ fragments, fragment.text.count '(' < text.count '(' := by
  intro fragment hmem
  rcases cuts_of_split hsplit with rfl | hcuts
  · simp at hmem
  have hpart := (hcuts.isInfix fragment hmem).sublist.count_le '('
  rw [map_fst_shield] at hpart
  cases Head.read_eq_ok_iff.mp hread with
  | bare =>
    rw [split, if_pos allBlank_nil] at hsplit
    obtain rfl := Except.ok.inj hsplit
    simp at hmem
  | bracketed _ _ _ _ htext =>
    rw [← htext]
    simp only [List.count_append, List.count_cons] at hpart ⊢
    simp only [beq_self_eq_true, if_true]
    omega

end Fragment

/-- What holds of the pieces that mean literals, and of the text of a call if it holds of all its pieces, holds
of the text of any call that is read. -/
theorem Call.meaning_induction {source : List Char} {motive : Fragment → Argument → Prop}
    (literal : ∀ fragment value, Literal.read fragment.text source fragment.position = .ok value →
      motive fragment (.literal value))
    (call : ∀ fragment head fragments arguments,
      Head.read fragment.text source fragment.position = .ok head →
      Fragment.split head.arguments source head.offset = .ok fragments →
      List.Forall₂ (fun piece argument =>
        Argument.meaning source piece = .ok argument ∧ motive piece argument) fragments arguments →
      motive fragment (.call (String.ofList head.name) arguments))
    {fragment : Fragment} {tree : Call}
    (h : meaning source fragment.text fragment.position = .ok tree) :
    motive fragment tree.toArgument := by
  induction hn : fragment.text.length using Nat.strongRecOn generalizing fragment tree with
  | ind n ih =>
    rw [meaning_eq] at h
    obtain ⟨head, hread, h⟩ := bind_eq_ok_iff.mp h
    obtain ⟨fragments, hsplit, h⟩ := bind_eq_ok_iff.mp h
    obtain ⟨arguments, hall, h⟩ := bind_eq_ok_iff.mp h
    obtain rfl := Except.ok.inj h
    -- the pieces are shorter than the call, so what is to be shown holds of those that are calls
    have hshorter : ∀ piece ∈ fragments, piece.text.length < n :=
      fun piece hmem => hn ▸ Fragment.length_lt_of_mem_split hread hsplit hmem
    have hpieces := (List.forall₂_and_left _ _).mpr ⟨hshorter, mapM_eq_ok_iff.mp hall⟩
    refine call fragment head fragments arguments hread hsplit (hpieces.imp ?_)
    intro piece argument ⟨hlt, hmeaning⟩
    refine ⟨hmeaning, ?_⟩
    rw [Argument.meaning, Argument.readWith] at hmeaning
    split at hmeaning
    · obtain ⟨tree, htree, rfl⟩ := map_eq_ok_iff.mp hmeaning
      exact ih _ hlt htree rfl
    · obtain ⟨value, hvalue, rfl⟩ := map_eq_ok_iff.mp hmeaning
      exact literal piece value hvalue

/-- The empty text is no literal. -/
theorem Literal.length_pos_of_read {text source : List Char} {position : Int} {value : Literal}
    (h : read text source position = .ok value) : 0 < text.length := by
  cases text with
  | nil =>
    obtain ⟨fault, hfault⟩ : ∃ fault, read [] source position = .error fault := ⟨_, rfl⟩
    exact absurd (hfault.symm.trans h) (by simp)
  | cons => exact Nat.succ_pos _

namespace Argument

variable {source : List Char} {fragments : List Fragment} {arguments : List Argument}

/-- Arguments have less nodes than room, if none has more than its text has characters. -/
theorem sizeAll_le_room
    (h : List.Forall₂ (fun fragment argument => argument.size ≤ fragment.text.length)
      fragments arguments) : sizeAll arguments ≤ Fragment.room fragments := by
  induction h with
  | nil => exact Nat.le_refl 0
  | cons hfirst hrest ih =>
    rw [sizeAll, Fragment.room]
    omega

/-- Arguments are no deeper than a bound if none of them is. -/
theorem depthAll_le_of_forall {bound : Nat}
    (h : List.Forall₂ (fun (_ : Fragment) argument => argument.depth ≤ bound) fragments arguments) :
    depthAll arguments ≤ bound := by
  induction h with
  | nil => exact Nat.zero_le _
  | cons hfirst hrest ih => exact Nat.max_le.mpr ⟨hfirst, ih⟩

mutual

/-- The rounds that are spent on an argument: one on a literal, two on a nested call besides those on its
arguments. -/
def rounds : Argument → Nat
  | literal _ => 1
  | call _ arguments => 2 + roundsAll arguments

/-- The rounds that are spent on arguments. -/
def roundsAll : List Argument → Nat
  | [] => 0
  | argument :: rest => argument.rounds + roundsAll rest

end

mutual

/-- No more than two rounds are spent on a node. -/
theorem rounds_le (argument : Argument) : argument.rounds ≤ 2 * argument.size := by
  cases argument with
  | literal value => exact Nat.le_succ 1
  | call name arguments =>
    have := roundsAll_le arguments
    rw [rounds, size]
    omega

/-- So it is with several arguments. -/
theorem roundsAll_le (arguments : List Argument) : roundsAll arguments ≤ 2 * sizeAll arguments := by
  cases arguments with
  | nil => exact Nat.le_refl 0
  | cons argument rest =>
    have hfirst := rounds_le argument
    have hrest := roundsAll_le rest
    rw [roundsAll, sizeAll]
    omega

end

end Argument

namespace OpenCall

variable {source : List Char}

/-- The loop passes over an argument, from where it is the next one of the innermost call to where it has
been read, in as many rounds as are spent on it. -/
def Passes (source : List Char) (fragment : Fragment) (argument : Argument) : Prop :=
  ∀ (name : List Char) (rest : List Fragment) (done : List Argument) (outer : List OpenCall) (n : Nat),
    within source (argument.rounds + n) ⟨name, fragment :: rest, done⟩ outer =
      within source n ⟨name, rest, argument :: done⟩ outer

/-- It passes over all arguments of a call if it passes over each. -/
theorem within_pending {fragments : List Fragment} {arguments : List Argument}
    (h : List.Forall₂ (Passes source) fragments arguments) (name : List Char) (done : List Argument)
    (outer : List OpenCall) (n : Nat) :
    within source (Argument.roundsAll arguments + n) ⟨name, fragments, done⟩ outer =
      within source n ⟨name, [], arguments.reverse ++ done⟩ outer := by
  induction h generalizing done with
  | nil => rw [Argument.roundsAll, Nat.zero_add, List.reverse_nil, List.nil_append]
  | cons hfirst hrest ih =>
    rw [Argument.roundsAll, Nat.add_assoc, hfirst, ih, List.reverse_cons, List.append_assoc,
      List.singleton_append]

/-- It passes over a literal in one round. -/
theorem passes_literal {fragment : Fragment} {value : Literal} (hliteral : isCallFragment fragment.text = false)
    (hread : Literal.read fragment.text source fragment.position = .ok value) :
    Passes source fragment (.literal value) := by
  intro name rest done outer n
  rw [Argument.rounds, Nat.add_comm, within]
  simp only [round, hliteral, hread, accept, Bool.false_eq_true, if_false]

/-- It passes over a nested call if it passes over the arguments, with one round before and one behind. -/
theorem passes_call {fragment : Fragment} {opened : OpenCall} {arguments : List Argument}
    (hcall : isCallFragment fragment.text)
    (henter : enter source fragment.text fragment.position = .ok opened) (hdone : opened.done = [])
    (h : List.Forall₂ (Passes source) opened.pending arguments) :
    Passes source fragment (.call (String.ofList opened.name) arguments) := by
  intro name rest done outer n
  obtain ⟨callee, fragments, read⟩ := opened
  obtain rfl : read = [] := hdone
  have hrounds : (Argument.call (String.ofList callee) arguments).rounds + n =
      (Argument.roundsAll arguments + (n + 1)) + 1 := by
    rw [Argument.rounds]
    omega
  rw [hrounds, within]
  simp only [round, hcall, henter, if_true]
  rw [within_pending h, within]
  simp [round, accept, close, Call.toArgument]

/-- The text of a call is opened, and the loop passes over the arguments that it is opened with. -/
def PassesInside (source : List Char) (fragment : Fragment) (argument : Argument) : Prop :=
  ∀ name arguments, argument = .call name arguments → ∃ opened,
    enter source fragment.text fragment.position = .ok opened ∧ opened.done = [] ∧
      String.ofList opened.name = name ∧ List.Forall₂ (Passes source) opened.pending arguments

/-- It passes over every argument that is read, if it does so inside a call. -/
theorem PassesInside.passes {fragment : Fragment} {argument : Argument}
    (h : PassesInside source fragment argument)
    (hmeaning : Argument.meaning source fragment = .ok argument) : Passes source fragment argument := by
  rw [Argument.meaning, Argument.readWith] at hmeaning
  split at hmeaning
  · next hcall =>
    obtain ⟨tree, -, rfl⟩ := map_eq_ok_iff.mp hmeaning
    obtain ⟨opened, henter, hdone, hname, hpending⟩ := h tree.name tree.arguments rfl
    rw [Call.toArgument, ← hname]
    exact passes_call hcall henter hdone hpending
  · next hcall =>
    obtain ⟨value, hread, rfl⟩ := map_eq_ok_iff.mp hmeaning
    exact passes_literal (Bool.not_eq_true _ ▸ hcall) hread

/-- So the loop passes over all arguments of a call that is read. -/
theorem passesInside_of_meaning {fragment : Fragment} {call : Call}
    (h : Call.meaning source fragment.text fragment.position = .ok call) :
    PassesInside source fragment call.toArgument := by
  refine Call.meaning_induction (motive := PassesInside source) ?_ ?_ h
  · intro fragment value _ name arguments hcall
    contradiction
  · intro fragment head fragments arguments hread hsplit hpieces name arguments' hcall
    obtain ⟨rfl, rfl⟩ := Argument.call.inj hcall
    have henter : enter source fragment.text fragment.position = .ok ⟨head.name, fragments, []⟩ := by
      rw [enter, hread, ok_bind, hsplit, ok_bind]
      rfl
    exact ⟨_, henter, rfl, rfl, hpieces.imp fun _ _ hpiece => hpiece.2.passes hpiece.1⟩

/-- A loop that has come to an outcome has come to it within more rounds, too. -/
theorem within_mono {m n : Nat} (hle : m ≤ n) {current : OpenCall} {outer : List OpenCall}
    {outcome : Except ReadingFault Call} (h : within source m current outer = some outcome) :
    within source n current outer = some outcome := by
  induction m generalizing n current outer with
  | zero => contradiction
  | succ m ih =>
    obtain ⟨k, rfl⟩ : ∃ k, n = k + 1 := ⟨n - 1, by omega⟩
    rw [within] at h ⊢
    cases hround : round source current outer with
    | ended outcome =>
      rw [hround] at h
      exact h
    | ongoing next around =>
      rw [hround] at h
      exact ih (Nat.le_of_succ_le_succ hle) h

end OpenCall

namespace Call

/-- The rounds that are spent on a whole call: it is open when the loop begins, and one round closes it. -/
def rounds (call : Call) : Nat := Argument.roundsAll call.arguments + 1

variable {source : List Char} {fragment : Fragment} {call : Call}

/-- A call has no more nodes than its text has characters. -/
theorem size_le_of_meaning (h : meaning source fragment.text fragment.position = .ok call) :
    call.size ≤ fragment.text.length := by
  refine meaning_induction (motive := fun fragment argument => argument.size ≤ fragment.text.length)
    ?_ ?_ h
  · intro fragment value hread
    exact Literal.length_pos_of_read hread
  · intro fragment head fragments arguments hread hsplit hpieces
    have hroom := Fragment.room_lt_of_read hread hsplit
    have hsize := Argument.sizeAll_le_room (hpieces.imp fun _ _ => And.right)
    rw [Argument.size]
    omega

/-- A call is no deeper than one more than its text has opening brackets. -/
theorem depth_le_of_meaning (h : meaning source fragment.text fragment.position = .ok call) :
    call.depth ≤ 1 + fragment.text.count '(' := by
  rw [depth_eq_depthAll]
  refine meaning_induction (motive := fun fragment argument =>
    argument.depth ≤ 1 + fragment.text.count '(') ?_ ?_ h
  · intro fragment value _
    exact Nat.zero_le _
  · intro fragment head fragments arguments hread hsplit hpieces
    have hcount := Fragment.count_lt_of_read hread hsplit
    have hbelow : Argument.depthAll arguments ≤ fragment.text.count '(' := by
      refine Argument.depthAll_le_of_forall (((List.forall₂_and_left _ _).mpr ⟨hcount, hpieces⟩).imp ?_)
      rintro piece argument ⟨hlt, -, hdepth⟩
      omega
    rw [Argument.depth]
    omega

/-- A whole call is read in the rounds that are spent on it, and not in less. -/
theorem readWithin_eq_ok_iff (h : meaning source source 0 = .ok call) (n : Nat) :
    readWithin n source = some (.ok call) ↔ call.rounds ≤ n := by
  obtain ⟨opened, henter, hdone, hname, hpending⟩ :=
    @OpenCall.passesInside_of_meaning source ⟨source, 0⟩ call h _ _ rfl
  obtain ⟨name, fragments, read⟩ := opened
  obtain rfl : read = [] := hdone
  have hclose : OpenCall.close ⟨name, [], call.arguments.reverse ++ []⟩ = call := by
    rw [OpenCall.close, List.append_nil, List.reverse_reverse]
    exact congrArg (Call.mk · call.arguments) hname
  have hwithin := OpenCall.within_pending hpending name [] []
  rw [readWithin, henter, rounds]
  constructor
  · intro hsome
    by_contra hlt
    -- if less rounds were enough, so would be those on the arguments, and none would be left to close the call
    have hnone := hwithin 0
    rw [Nat.add_zero, OpenCall.within_mono (by omega) hsome] at hnone
    contradiction
  · intro hle
    obtain ⟨k, rfl⟩ : ∃ k, n = Argument.roundsAll call.arguments + (k + 1) := ⟨n - (call.rounds), by
      rw [rounds]
      omega⟩
    dsimp only
    rw [hwithin, OpenCall.within]
    simp only [OpenCall.round, hclose]

/-- Of an expression that is read, the arguments of each call stand apart from each other, in order, and
strictly within the text of the call, at any depth. So the tree has no more nodes than the expression has
characters, is no deeper than one more than there are opening brackets, and is read in less than two rounds for
each of its nodes. -/
theorem bounds_of_parse {expression : String} {call : Call} (h : parse expression = .ok call) :
    (∀ text offset opened, Opens expression.toList text offset →
      OpenCall.enter expression.toList text offset = .ok opened →
      StandsAt expression.toList text offset ∧ opened.pending.Pairwise Fragment.Precedes ∧
      ∀ fragment ∈ opened.pending, StandsAt expression.toList fragment.text fragment.position ∧
        offset < fragment.position ∧
        fragment.position + fragment.text.length < offset + text.length) ∧
    call.size ≤ expression.toList.length ∧
    call.depth ≤ 1 + expression.toList.count '(' ∧
    (∀ n, readWithin n expression.toList = some (.ok call) ↔ call.rounds ≤ n) ∧
    call.rounds < 2 * call.size := by
  rw [parse, read_eq_meaning] at h
  refine ⟨fun text offset opened hopens henter => ?_,
    @size_le_of_meaning _ ⟨expression.toList, 0⟩ _ h,
    @depth_le_of_meaning _ ⟨expression.toList, 0⟩ _ h, readWithin_eq_ok_iff h, ?_⟩
  · have hstands := OpenCall.standsAt_of_enter hopens.standsAt henter
    obtain ⟨head, hread, hrest⟩ := bind_eq_ok_iff.mp henter
    obtain ⟨fragments, hsplit, hopened⟩ := bind_eq_ok_iff.mp hrest
    obtain rfl := Except.ok.inj hopened
    obtain ⟨hpairwise, hinside⟩ := Fragment.pairwise_of_read hread hsplit
    exact ⟨hopens.standsAt, hpairwise, fun fragment hmem =>
      ⟨(hstands fragment hmem).1, hinside fragment hmem⟩⟩
  · have := Argument.roundsAll_le call.arguments
    rw [rounds, size]
    omega

/-- Three calls and a literal take six rounds. -/
theorem readWithin_nested :
    parse "A(B(1), C)" = .ok ⟨"A", [.call "B" [.literal (.int 1)], .call "C" []]⟩ ∧
    readWithin 6 "A(B(1), C)".toList =
      some (.ok ⟨"A", [.call "B" [.literal (.int 1)], .call "C" []]⟩) ∧
    readWithin 5 "A(B(1), C)".toList ≠
      some (.ok ⟨"A", [.call "B" [.literal (.int 1)], .call "C" []]⟩) := by
  have hparse : parse "A(B(1), C)" = .ok ⟨"A", [.call "B" [.literal (.int 1)], .call "C" []]⟩ :=
    Option.some.inj ((readWithin_length _).symm.trans rfl)
  obtain ⟨-, -, -, hrounds, -⟩ := bounds_of_parse hparse
  exact ⟨hparse, (hrounds 6).mpr (by decide), fun h => absurd ((hrounds 5).mp h) (by decide)⟩

end Call

end DriverPolicy
