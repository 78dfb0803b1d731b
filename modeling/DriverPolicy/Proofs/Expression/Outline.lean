import DriverPolicy.Expression.Outline
import DriverPolicy.Proofs.Expression.Reals
import DriverPolicy.Proofs.Expression.Subtrees
import DriverPolicy.Proofs.Expression.WellFormed
import DriverPolicy.Proofs.Number.Shortest
import DriverPolicy.Proofs.Text.Lines
import DriverPolicy.Proofs.Text.Quoted

/-!
# Outlines of trees that are read

The outline of a tree shows its nodes in pre-order, and each stands on one line. Nothing is lost: no caption
begins with a blank, so a line tells the level of its node; a caption that ends with a bracket is that of a
literal, whose kind stands in the last brackets and whose text determines its value; and the nodes with their
levels determine the tree. Values that are read are such that no two of them have one text.
-/

namespace DriverPolicy

/-! ### Nodes in pre-order -/

namespace Argument

mutual

/-- The nodes of an argument that stands at a level, in pre-order, each with its own level. -/
def preorder (level : Nat) : Argument → List (Nat × Argument)
  | literal value => [(level, literal value)]
  | call name arguments => (level, call name arguments) :: preorderAll (level + 1) arguments

/-- The nodes of arguments in order. -/
def preorderAll (level : Nat) : List Argument → List (Nat × Argument)
  | [] => []
  | argument :: rest => argument.preorder level ++ preorderAll level rest

end

/-- An argument comes before all that is below it. -/
theorem preorder_eq (level : Nat) (argument : Argument) :
    argument.preorder level = (level, argument) :: preorderAll (level + 1) argument.inner := by
  cases argument with
  | literal value => rfl
  | call name arguments => rfl

/-- The nodes of arguments are those of each in turn. -/
theorem preorderAll_eq_flatMap (level : Nat) (arguments : List Argument) :
    preorderAll level arguments = arguments.flatMap (preorder level) := by
  induction arguments with
  | nil => rfl
  | cons argument rest ih => rw [preorderAll, ih, List.flatMap_cons]

/-- What is still to be shown is shown in pre-order. -/
theorem outlineOf_eq (pending : List (Nat × Argument)) : outlineOf pending =
    (pending.flatMap fun entry => entry.2.preorder entry.1).map fun entry => entry.2.line entry.1 := by
  induction pending using outlineOf.induct with
  | case1 => rw [outlineOf, List.flatMap_nil, List.map_nil]
  | case2 level argument rest ih =>
    rw [outlineOf, ih, List.flatMap_cons, preorder_eq, preorderAll_eq_flatMap, List.flatMap_append,
      List.flatMap_map]
    rfl

mutual

/-- Every node stands at a place. -/
theorem exists_at?_of_mem_preorder {level : Nat} {argument : Argument} {entry : Nat × Argument}
    (h : entry ∈ argument.preorder level) : ∃ place, argument.at? place = some entry.2 := by
  cases argument with
  | literal value =>
    obtain rfl := List.mem_singleton.mp h
    exact ⟨[], rfl⟩
  | call name arguments =>
    rcases List.mem_cons.mp h with rfl | hbelow
    · exact ⟨[], rfl⟩
    · obtain ⟨i, place, hfound⟩ := exists_at?_of_mem_preorderAll hbelow
      exact ⟨i :: place, hfound⟩

/-- Every node of arguments stands at a place of one of them. -/
theorem exists_at?_of_mem_preorderAll {level : Nat} {arguments : List Argument} {entry : Nat × Argument}
    (h : entry ∈ preorderAll level arguments) :
    ∃ (i : Nat) (place : List Nat),
      (arguments[i]?.bind fun argument => argument.at? place) = some entry.2 := by
  cases arguments with
  | nil => exact absurd h List.not_mem_nil
  | cons argument rest =>
    rcases List.mem_append.mp h with hfirst | hrest
    · obtain ⟨place, hfound⟩ := exists_at?_of_mem_preorder hfirst
      exact ⟨0, place, hfound⟩
    · obtain ⟨i, place, hfound⟩ := exists_at?_of_mem_preorderAll hrest
      exact ⟨i + 1, place, hfound⟩

end

end Argument

/-- The outline of a call shows its nodes in pre-order. -/
theorem Call.outline_eq (call : Call) :
    call.outline = (call.toArgument.preorder 0).map fun entry => entry.2.line entry.1 := by
  rw [outline, Argument.outlineOf_eq, List.flatMap_singleton]

/-! ### Values that are read -/

namespace Literal

/-- Whether a number with a point is a finite value of 64 bits. -/
def IsCanonical : Literal → Prop
  | float x | double x => x.IsCanonical
  | _ => True

/-- A number with a point that is read is a value of 64 bits. -/
theorem isCanonical_of_readReal {kind : RealKind} {body source : List Char} {position : Int}
    {value : Literal} (h : readReal kind body source position = .ok value) : value.IsCanonical := by
  obtain ⟨outcome, hcomes⟩ := @exists_comesToReal kind body source position
  have hread := hcomes.readReal_eq
  rw [h] at hread
  cases hcomes with
  | double _ hnearest hrange =>
    obtain rfl := Argument.literal.inj (Except.ok.inj hread)
    cases hnearest with
    | finite hfits => exact ⟨_, _, _, rfl, hfits⟩
    | infinite => exact absurd hrange Bool.false_ne_true
  | float _ _ _ hsingle =>
    obtain rfl := Argument.literal.inj (Except.ok.inj hread)
    obtain ⟨_, _, m, p, rfl, -, hfits, -⟩ := hsingle.exists_finite
    exact ⟨_, m, p, rfl, hfits⟩
  | outside => exact nomatch hread
  | noNumeral => exact nomatch hread

/-- A literal that is read is a value of 64 bits if it is a number with a point. -/
theorem isCanonical_of_read {text source : List Char} {position : Int} {value : Literal}
    (h : read text source position = .ok value) : value.IsCanonical := by
  rw [read_eq_ite] at h
  split at h
  · obtain rfl := Except.ok.inj h
    trivial
  split at h
  · exact @isCanonical_of_readReal .double _ _ _ _ h
  split at h
  · exact @isCanonical_of_readReal .float _ _ _ _ h
  split at h
  · obtain ⟨n, -, rfl⟩ := map_eq_ok_iff.mp h
    trivial
  · obtain ⟨n, -, rfl⟩ := map_eq_ok_iff.mp h
    trivial

/-- No two literals of one kind that can be read have one text. -/
theorem text_injective {a b : Literal} (ha : a.IsCanonical) (hb : b.IsCanonical) (hkind : a.kind = b.kind)
    (htext : a.text = b.text) : a = b := by
  cases a <;> cases b <;> simp only [kind, reduceCtorEq] at hkind
  · exact congrArg string (quoted_injective htext)
  · exact congrArg float (Binary.text_injective ha hb htext)
  · exact congrArg double (Binary.text_injective ha hb htext)
  · exact congrArg long (toString_int_injective htext)
  · exact congrArg int (toString_int_injective htext)

/-- The text of a number consists of digits and marks, and is not empty. -/
theorem chars_text {value : Literal} (h : value.IsCanonical) (hkind : value.kind ≠ .string) :
    (∀ c ∈ value.text.toList, isDigit c ∨ c ∈ numeralMarks) ∧ value.text.toList ≠ [] := by
  have hreal {x : Binary} (hx : x.IsCanonical) :
      (∀ c ∈ x.text.toList, isDigit c ∨ c ∈ numeralMarks) ∧ x.text.toList ≠ [] := by
    obtain ⟨negative, m, p, rfl, hfits⟩ := hx
    obtain ⟨q, htext, -⟩ := Binary.exists_decimalText hfits negative
    exact ⟨htext.chars, htext.ne_nil⟩
  have hinteger (n : Int) :
      (∀ c ∈ (toString n).toList, isDigit c ∨ c ∈ numeralMarks) ∧ (toString n).toList ≠ [] := by
    have hdigits := signedDigits_toString n
    refine ⟨fun c hc => (hdigits.chars c hc).imp_right ?_, hdigits.ne_nil⟩
    rintro (rfl | rfl) <;> decide
  cases value with
  | string s => exact absurd rfl hkind
  | float x => exact hreal h
  | double x => exact hreal h
  | long n => exact hinteger n
  | int n => exact hinteger n

/-- The text of a literal begins with a character that is not blank. -/
theorem exists_text_eq_cons {value : Literal} (h : value.IsCanonical) :
    ∃ c rest, value.text.toList = c :: rest ∧ c ≠ ' ' := by
  by_cases hkind : value.kind = .string
  · obtain ⟨s, rfl⟩ : ∃ s, value = string s := by
      cases value <;> simp only [kind, reduceCtorEq] at hkind
      exact ⟨_, rfl⟩
    refine ⟨quoteFor s.toList, _, by rw [text, quoted, String.toList_ofList, quotedChars]; rfl, ?_⟩
    rcases quoteFor_eq s.toList with hquote | hquote <;> rw [hquote] <;> decide
  · obtain ⟨hchars, hne⟩ := chars_text h hkind
    obtain ⟨c, rest, htext⟩ := List.exists_cons_of_ne_nil hne
    refine ⟨c, rest, htext, ?_⟩
    rintro rfl
    exact absurd (hchars ' ' (htext ▸ List.mem_cons_self)) (by decide)

/-- The text of a literal stands on one line. -/
theorem not_mem_lineBreaks_of_mem_text {value : Literal} (h : value.IsCanonical) {c : Char}
    (hc : c ∈ value.text.toList) : c ∉ lineBreaks := by
  by_cases hkind : value.kind = .string
  · obtain ⟨s, rfl⟩ : ∃ s, value = string s := by
      cases value <;> simp only [kind, reduceCtorEq] at hkind
      exact ⟨_, rfl⟩
    exact not_mem_lineBreaks_of_isPrintable (isPrintable_of_mem_quoted hc)
  · have hmarks : ∀ c ∈ numeralMarks, c ∉ lineBreaks := forall_not_mem_lineBreaks (by decide)
    exact ((chars_text h hkind).1 c hc).elim not_mem_lineBreaks_of_isDigit (hmarks c)

end Literal

/-! ### Captions -/

namespace Argument

/-- Whether what an argument shows at its own place can be told from its caption. -/
def IsShown : Argument → Prop
  | literal value => value.IsCanonical
  | call name _ => IsName name.toList

/-- The caption of a literal is its text, and its kind between brackets. -/
theorem toList_caption_literal (value : Literal) : (literal value).caption.toList =
    value.text.toList ++ ' ' :: '(' :: (value.kind.name.toList ++ [')']) := by
  simp [caption, String.toList_append]
  rfl

/-- A caption begins with a character that is not blank. -/
theorem IsShown.exists_caption_eq_cons {argument : Argument} (h : argument.IsShown) :
    ∃ c rest, argument.caption.toList = c :: rest ∧ c ≠ ' ' := by
  cases argument with
  | literal value =>
    obtain ⟨c, rest, htext, hc⟩ := Literal.exists_text_eq_cons h
    refine ⟨c, rest ++ ' ' :: '(' :: (value.kind.name.toList ++ [')']), ?_, hc⟩
    rw [toList_caption_literal, htext, List.cons_append]
  | call name arguments =>
    have hname : IsName name.toList := h
    obtain ⟨c, rest, hcons⟩ := List.exists_cons_of_ne_nil hname.nonempty
    refine ⟨c, rest, hcons, ?_⟩
    rintro rfl
    exact absurd (hname.chars ' ' (hcons ▸ List.mem_cons_self)) (by decide)

/-- A caption stands on one line. -/
theorem IsShown.not_mem_lineBreaks {argument : Argument} (h : argument.IsShown) {c : Char}
    (hc : c ∈ argument.caption.toList) : c ∉ lineBreaks := by
  cases argument with
  | literal value =>
    rw [toList_caption_literal] at hc
    have hkind (kind : ArgumentKind) :
        ∀ c ∈ ' ' :: '(' :: (kind.name.toList ++ [')']), c ∉ lineBreaks :=
      forall_not_mem_lineBreaks (by cases kind <;> decide)
    rcases List.mem_append.mp hc with htext | hrest
    · exact Literal.not_mem_lineBreaks_of_mem_text h htext
    · exact hkind value.kind c hrest
  | call name arguments =>
    have hname : IsName name.toList := h
    exact not_mem_lineBreaks_of_isNameChar (hname.chars c hc)

/-- The caption of a literal tells the literal. -/
theorem caption_literal_injective {a b : Literal} (ha : a.IsCanonical) (hb : b.IsCanonical)
    (h : (literal a).caption = (literal b).caption) : a = b := by
  -- from behind, the kind stands before the first bracket that opens
  have hreverse (value : Literal) : (literal value).caption.toList.reverse =
      (')' :: value.kind.name.toList.reverse) ++ ('(' :: ' ' :: value.text.toList.reverse) := by
    rw [toList_caption_literal]
    simp
  have hsplit (value : Literal) :
      (literal value).caption.toList.reverse.takeWhile (· ≠ '(') =
          ')' :: value.kind.name.toList.reverse ∧
        (literal value).caption.toList.reverse.dropWhile (· ≠ '(') =
          '(' :: ' ' :: value.text.toList.reverse := by
    have hkind (kind : ArgumentKind) : ∀ c ∈ ')' :: kind.name.toList.reverse, decide (c ≠ '(') :=
      List.all_eq_true.mp (by cases kind <;> decide)
    rw [hreverse]
    exact skip_append (hkind value.kind) fun c hc => by
      obtain rfl := Option.some.inj hc
      rfl
  obtain ⟨hkind, htext⟩ := hsplit a
  rw [h, (hsplit b).1] at hkind
  rw [h, (hsplit b).2] at htext
  have hkinds : a.kind.name = b.kind.name :=
    String.toList_injective (List.reverse_injective (List.cons.inj hkind).2.symm)
  refine Literal.text_injective ha hb (ArgumentKind.name_injective hkinds) ?_
  exact String.toList_injective (List.reverse_injective (List.cons.inj (List.cons.inj htext).2).2.symm)

/-- No literal and no call have one caption. -/
theorem caption_literal_ne {value : Literal} {name : String} {arguments : List Argument}
    (h : (call name arguments).IsShown) : (literal value).caption ≠ (call name arguments).caption := by
  intro heq
  have hname : IsName name.toList := h
  have hblank : ' ' ∈ (call name arguments).caption.toList := by
    rw [← heq, toList_caption_literal]
    exact List.mem_append_right _ List.mem_cons_self
  exact absurd (hname.chars ' ' hblank) (by decide)

/-- A node is determined by its caption and what is below it. -/
theorem eq_of_caption_eq {a b : Argument} (ha : a.IsShown) (hb : b.IsShown) (h : a.caption = b.caption)
    (hinner : a.inner = b.inner) : a = b := by
  cases a with
  | literal value =>
    cases b with
    | literal other => rw [caption_literal_injective ha hb h]
    | call name arguments => exact absurd h (caption_literal_ne hb)
  | call name arguments =>
    cases b with
    | literal other => exact absurd h.symm (caption_literal_ne ha)
    | call other arguments' =>
      obtain rfl : name = other := h
      obtain rfl : arguments = arguments' := hinner
      rfl

/-- Nothing is below a node with the caption of a literal. -/
theorem inner_eq_nil_of_caption_eq {value : Literal} {b : Argument} (hb : b.IsShown)
    (h : (literal value).caption = b.caption) : b.inner = [] := by
  cases b with
  | literal other => rfl
  | call name arguments => exact absurd h (caption_literal_ne hb)

/-! ### Trees from their outlines -/

/-- A level in front of a caption can be told from the caption. -/
theorem indent_injective {n n' : Nat} {c c' : Char} {rest rest' : List Char} (hc : c ≠ ' ')
    (hc' : c' ≠ ' ')
    (h : List.replicate n ' ' ++ c :: rest = List.replicate n' ' ' ++ c' :: rest') :
    n = n' ∧ c :: rest = c' :: rest' := by
  induction n generalizing n' with
  | zero =>
    cases n' with
    | zero => exact ⟨rfl, h⟩
    | succ n' => exact absurd (List.cons.inj h).1 hc
  | succ n ih =>
    cases n' with
    | zero => exact absurd (List.cons.inj h).1.symm hc'
    | succ n' =>
      obtain ⟨hlevel, hcaption⟩ := ih (List.cons.inj h).2
      exact ⟨congrArg (· + 1) hlevel, hcaption⟩

/-- A line tells the level and the caption of its node. -/
theorem line_injective {a b : Argument} (ha : a.IsShown) (hb : b.IsShown) {level level' : Nat}
    (h : a.line level = b.line level') : level = level' ∧ a.caption = b.caption := by
  obtain ⟨c, rest, hcaption, hc⟩ := ha.exists_caption_eq_cons
  obtain ⟨c', rest', hcaption', hc'⟩ := hb.exists_caption_eq_cons
  have hchars := congrArg String.toList h
  simp only [line, String.toList_append, String.toList_ofList, hcaption, hcaption'] at hchars
  obtain ⟨hlevels, hcaptions⟩ := indent_injective hc hc' hchars
  refine ⟨by omega, String.toList_injective ?_⟩
  rw [hcaption, hcaption', hcaptions]

/-- What a line tells of a node: its level and its caption. -/
def shownAs (entry : Nat × Argument) : Nat × String := (entry.1, entry.2.caption)

/-- Lines tell the levels and captions of all nodes. -/
theorem map_shownAs_eq {nodes nodes' : List (Nat × Argument)} (h : ∀ entry ∈ nodes, entry.2.IsShown)
    (h' : ∀ entry ∈ nodes', entry.2.IsShown)
    (hlines : (nodes.map fun entry => entry.2.line entry.1) = nodes'.map fun entry => entry.2.line entry.1) :
    nodes.map shownAs = nodes'.map shownAs := by
  induction nodes generalizing nodes' with
  | nil =>
    obtain rfl := List.map_eq_nil_iff.mp hlines.symm
    rfl
  | cons entry nodes ih =>
    obtain ⟨entry', nodes', rfl, hfirst, hrest⟩ := List.map_eq_cons_iff.mp hlines.symm
    rw [List.forall_mem_cons] at h h'
    obtain ⟨hlevel, hcaption⟩ := line_injective h.1 h'.1 hfirst.symm
    rw [List.map_cons, List.map_cons, ih h.2 h'.2 hrest.symm, shownAs, shownAs, hlevel, hcaption]

/-- What follows all nodes below a level stands above it. -/
def Above (level : Nat) (rest : List (Nat × String)) : Prop := ∀ entry ∈ rest.head?, entry.1 < level

/-- The nodes of arguments at a level are above the next level, and so is what follows them. -/
theorem Above.preorderAll {level : Nat} {rest : List (Nat × String)} (h : Above level rest)
    (arguments : List Argument) : Above (level + 1) ((preorderAll level arguments).map shownAs ++ rest) := by
  intro entry hentry
  cases arguments with
  | nil => exact Nat.lt_succ_of_lt (h entry hentry)
  | cons argument others =>
    rw [Argument.preorderAll, preorder_eq] at hentry
    obtain rfl := Option.some.inj hentry
    exact Nat.lt_succ_self level

/-- What stands above a level does not begin with a node at this level. -/
theorem Above.ne_preorderAll_cons {level : Nat} {rest : List (Nat × String)} (h : Above level rest)
    (argument : Argument) (others : List Argument) (after : List (Nat × String)) :
    rest ≠ (Argument.preorderAll level (argument :: others)).map shownAs ++ after := by
  rintro rfl
  rw [Argument.preorderAll, preorder_eq] at h
  exact absurd (h _ rfl) (Nat.lt_irrefl level)

mutual

/-- A node and all below it can be told from what follows, if that stands above all below it. -/
theorem preorder_injective {a b : Argument} {level : Nat} {rest rest' : List (Nat × String)}
    (ha : ∀ entry ∈ a.preorder level, entry.2.IsShown)
    (hb : ∀ entry ∈ b.preorder level, entry.2.IsShown)
    (hrest : Above (level + 1) rest) (hrest' : Above (level + 1) rest')
    (h : (a.preorder level).map shownAs ++ rest = (b.preorder level).map shownAs ++ rest') :
    a = b ∧ rest = rest' := by
  rw [preorder_eq, List.forall_mem_cons] at ha hb
  rw [preorder_eq, preorder_eq, List.map_cons, List.map_cons, List.cons_append, List.cons_append] at h
  obtain ⟨hfirst, hbelow⟩ := List.cons.inj h
  have hinner : a.inner = b.inner ∧ rest = rest' := by
    cases a with
    | literal value =>
      have hnone := inner_eq_nil_of_caption_eq hb.1 (Prod.mk.inj hfirst).2
      rw [hnone] at hbelow
      exact ⟨hnone.symm, hbelow⟩
    | call name arguments =>
      exact preorderAll_injective ha.2 hb.2 hrest hrest' hbelow
  exact ⟨eq_of_caption_eq ha.1 hb.1 (Prod.mk.inj hfirst).2 hinner.1, hinner.2⟩

/-- Arguments and all below them can be told from what follows, if that stands above them. -/
theorem preorderAll_injective {as bs : List Argument} {level : Nat} {rest rest' : List (Nat × String)}
    (ha : ∀ entry ∈ preorderAll level as, entry.2.IsShown)
    (hb : ∀ entry ∈ preorderAll level bs, entry.2.IsShown)
    (hrest : Above level rest) (hrest' : Above level rest')
    (h : (preorderAll level as).map shownAs ++ rest = (preorderAll level bs).map shownAs ++ rest') :
    as = bs ∧ rest = rest' := by
  match as, bs with
  | [], [] => exact ⟨rfl, h⟩
  | [], b :: bs => exact absurd h (hrest.ne_preorderAll_cons b bs rest')
  | a :: as, [] => exact absurd h.symm (hrest'.ne_preorderAll_cons a as rest)
  | a :: as, b :: bs =>
    rw [preorderAll, List.forall_mem_append] at ha hb
    rw [preorderAll, preorderAll, List.map_append, List.map_append, List.append_assoc,
      List.append_assoc] at h
    obtain ⟨rfl, hothers⟩ := preorder_injective ha.1 hb.1 (hrest.preorderAll as) (hrest'.preorderAll bs) h
    obtain ⟨rfl, hafter⟩ := preorderAll_injective ha.2 hb.2 hrest hrest' hothers
    exact ⟨rfl, hafter⟩

end

end Argument

/-! ### Equality of trees that are read -/

/-- A finite number equals itself. -/
theorem Binary.equals_self {x : Binary} (h : x.isFinite) : x.equals x := by
  cases x with
  | finite s m p => simp [equals]
  | infinite => contradiction
  | notANumber => contradiction

/-- A literal is the same as itself if it is no number with a point or a value of 64 bits. -/
theorem Literal.IsCanonical.same_self {value : Literal} (h : value.IsCanonical) : value.same value := by
  have hreal {x : Binary} (hx : x.IsCanonical) : x.equals x := by
    obtain ⟨_, _, _, rfl, -⟩ := hx
    exact Binary.equals_self rfl
  cases value with
  | float x => exact hreal h
  | double x => exact hreal h
  | _ => simp [Literal.same]

mutual

/-- An argument is the same as itself if it is shown at all its places. -/
theorem Argument.same_self {argument : Argument} {level : Nat}
    (h : ∀ entry ∈ argument.preorder level, entry.2.IsShown) : argument.same argument := by
  cases argument with
  | literal value => exact (h _ (List.mem_singleton_self _)).same_self
  | call name arguments =>
    rw [Argument.same, decide_eq_true rfl, Bool.true_and]
    exact Argument.sameAll_self fun entry hentry => h entry (List.mem_cons_of_mem _ hentry)

/-- Arguments are the same as themselves if they are shown at all their places. -/
theorem Argument.sameAll_self {arguments : List Argument} {level : Nat}
    (h : ∀ entry ∈ Argument.preorderAll level arguments, entry.2.IsShown) :
    Argument.sameAll arguments arguments := by
  cases arguments with
  | nil => rfl
  | cons argument rest =>
    rw [Argument.preorderAll, List.forall_mem_append] at h
    rw [Argument.sameAll, Argument.same_self h.1, Argument.sameAll_self h.2, Bool.and_self]

end

/-- What a piece of text means can be told from its caption at its own place. -/
theorem Argument.isShown_of_meaning {source : List Char} {piece : Fragment} {argument : Argument}
    (h : meaning source piece = .ok argument) : argument.IsShown := by
  rw [meaning, readWith] at h
  split at h
  · obtain ⟨call, hmeaning, rfl⟩ := map_eq_ok_iff.mp h
    exact Call.isName_of_meaning hmeaning
  · obtain ⟨value, hread, rfl⟩ := map_eq_ok_iff.mp h
    exact Literal.isCanonical_of_read hread

namespace Call

/-- What a node of a tree that is read shows can be told from its caption. -/
theorem isShown_of_parse {expression : String} {call : Call} (h : parse expression = .ok call) :
    ∀ entry ∈ call.toArgument.preorder 0, entry.2.IsShown := by
  intro entry hentry
  obtain ⟨place, hfound⟩ := Argument.exists_at?_of_mem_preorder hentry
  cases place with
  | nil =>
    rw [← Option.some.inj hfound]
    rw [parse, read_eq_meaning] at h
    exact isName_of_meaning h
  | cons i place =>
    obtain ⟨piece, -, hmeaning⟩ := (meansAt_of_parse h i place entry.2).mp hfound
    exact Argument.isShown_of_meaning hmeaning

/-- The outline of a tree that is read shows its nodes in pre-order, each on one line, behind two blanks for
every level; and trees with one outline are equal. -/
theorem outline_of_parse {expression : String} {call : Call} (h : parse expression = .ok call) :
    call.outline = (call.toArgument.preorder 0).map (fun entry => entry.2.line entry.1) ∧
      (∀ line ∈ call.outline, ∀ c ∈ line.toList, c ∉ lineBreaks) ∧
      ∀ other call', parse other = .ok call' → call.outline = call'.outline →
        call = call' ∧ (call == call') = true := by
  have hshown := isShown_of_parse h
  refine ⟨call.outline_eq, fun line hline c hc => ?_, fun other call' h' houtline => ?_⟩
  · rw [outline_eq] at hline
    obtain ⟨entry, hentry, rfl⟩ := List.mem_map.mp hline
    rw [Argument.line, String.toList_append, String.toList_ofList] at hc
    rcases List.mem_append.mp hc with hindent | hcaption
    · rw [List.eq_of_mem_replicate hindent]
      decide
    · exact (hshown entry hentry).not_mem_lineBreaks hcaption
  · have hshown' := isShown_of_parse h'
    rw [outline_eq, outline_eq] at houtline
    have hcaptions := Argument.map_shownAs_eq hshown hshown' houtline
    have hnone : Argument.Above (0 + 1) [] := fun entry hentry => nomatch hentry
    have hsame := Argument.preorder_injective hshown hshown' hnone hnone (congrArg (· ++ []) hcaptions)
    obtain rfl := toArgument_inj hsame.1
    exact ⟨rfl, Argument.same_self hshown⟩

/-- A string with a line break, and a text in it that looks like a line of an outline, stands on one line;
two ways to write the tree have one outline. -/
theorem outline_of_parse_line_break :
    parse "A('x\n  1 (int)',B(2))" =
      .ok ⟨"A", [.literal (.string "x\n  1 (int)"), .call "B" [.literal (.int 2)]]⟩ ∧
    parse "A( \"x\n  1 (int)\", B(+2) )" =
      .ok ⟨"A", [.literal (.string "x\n  1 (int)"), .call "B" [.literal (.int 2)]]⟩ ∧
    outline ⟨"A", [.literal (.string "x\n  1 (int)"), .call "B" [.literal (.int 2)]]⟩ =
      ["A", "  'x\\n  1 (int)' (string)", "  B", "    2 (int)"] ∧
    (∀ line ∈ ["A", "  'x\\n  1 (int)' (string)", "  B", "    2 (int)"],
      ∀ c ∈ line.toList, c ∉ lineBreaks) ∧
    ((⟨"A", [.literal (.string "x\n  1 (int)"), .call "B" [.literal (.int 2)]]⟩ : Call) ==
      ⟨"A", [.literal (.string "x\n  1 (int)"), .call "B" [.literal (.int 2)]]⟩) = true := by
  have hparse : parse "A('x\n  1 (int)',B(2))" =
      .ok ⟨"A", [.literal (.string "x\n  1 (int)"), .call "B" [.literal (.int 2)]]⟩ :=
    Option.some.inj ((readWithin_length _).symm.trans rfl)
  have hother : parse "A( \"x\n  1 (int)\", B(+2) )" =
      .ok ⟨"A", [.literal (.string "x\n  1 (int)"), .call "B" [.literal (.int 2)]]⟩ :=
    Option.some.inj ((readWithin_length _).symm.trans rfl)
  obtain ⟨hpreorder, hlines, hequal⟩ := outline_of_parse hparse
  have houtline : outline ⟨"A", [.literal (.string "x\n  1 (int)"), .call "B" [.literal (.int 2)]]⟩ =
      ["A", "  'x\\n  1 (int)' (string)", "  B", "    2 (int)"] := by
    rw [hpreorder]
    decide
  exact ⟨hparse, hother, houtline, houtline ▸ hlines, (hequal _ _ hother rfl).2⟩

end Call

end DriverPolicy
