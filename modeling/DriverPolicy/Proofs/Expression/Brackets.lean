import DriverPolicy.Proofs.Expression.Indices
import DriverPolicy.Proofs.Expression.Places
import DriverPolicy.Proofs.Expression.Position

/-!
# The brackets of nested calls

The text of a nested call is a part of the arguments of the call around it, and it is scanned once more
when its turn comes. Every character of it is then in a quotation if and only if it was in one in the
arguments: what separates arguments stands outside of all quotations, so none is cut in two, and a quote
without a partner in the arguments has none in a part of them. Therefore the same brackets count, and
each argument closes as many as it opens.

The outer shape takes all between the first opening and the last closing bracket without looking at
quotations. In an argument these two are brackets that count, so what stands between them closes as many
as it opens, too, and no bracket is left open at its end. Only the arguments of the whole expression are
not part of anything that was scanned before.
-/

namespace DriverPolicy

namespace Fragment

/-- In front of an unquoted character and behind it a text is marked as if the rest were not there. The
quotation that is open at the beginning is closed in front of the character. -/
theorem shield_map_fst_of_append {open? : Option Char} {text : List Char}
    {before after : List (Char × Bool)} {c : Char}
    (h : shield open? text = before ++ (c, false) :: after) :
    shield open? (before.map Prod.fst) = before ∧ shield none (after.map Prod.fst) = after ∧
      ∀ quote ∈ open?, quote ∈ before.map Prod.fst := by
  induction before generalizing open? text with
  | nil =>
    cases text with
    | nil => simp [shield_nil] at h
    | cons d text =>
      cases open? with
      | some quote => simp [shield] at h
      | none =>
        unfold shield at h
        dsimp only at h
        split at h
        · simp at h
        · obtain ⟨-, rfl⟩ := List.cons.inj h
          exact ⟨rfl, by rw [map_fst_shield], by simp⟩
  | cons m before ih =>
    cases text with
    | nil => simp [shield_nil] at h
    | cons d text =>
      have hparts := congrArg (List.map Prod.fst) h
      rw [map_fst_shield, List.cons_append, List.map_cons] at hparts
      obtain ⟨hd, htext⟩ := List.cons.inj hparts
      cases open? with
      | some quote =>
        rw [shield, List.cons_append] at h
        obtain ⟨rfl, hrest⟩ := List.cons.inj h
        obtain ⟨hbefore, hafter, hclosed⟩ := ih hrest
        refine ⟨by rw [List.map_cons, shield, hbefore], hafter, fun _ hquote => ?_⟩
        obtain rfl := Option.some.inj hquote
        by_cases hquote : d = quote
        · simp [hquote]
        · rw [if_neg hquote] at hclosed
          exact List.mem_cons_of_mem _ (hclosed quote rfl)
      | none =>
        unfold shield at h
        dsimp only at h
        split at h
        · next hquotation =>
          obtain ⟨rfl, hrest⟩ := List.cons.inj h
          obtain ⟨hbefore, hafter, hclosed⟩ := ih hrest
          have hmem := hclosed d rfl
          have hquote := (Bool.and_eq_true_iff.mp hquotation).1
          refine ⟨?_, hafter, by simp⟩
          rw [List.map_cons, shield, hbefore]
          simp [hquote, hmem]
        · next hquotation =>
          obtain ⟨rfl, hrest⟩ := List.cons.inj h
          obtain ⟨hbefore, hafter, -⟩ := ih hrest
          refine ⟨?_, hafter, by simp⟩
          -- a quote that has no partner in the whole text has none in a part of it
          have hnone : ¬(isQuote d && (before.map Prod.fst).contains d) := by
            intro hboth
            obtain ⟨hquote, hmem⟩ := Bool.and_eq_true_iff.mp hboth
            refine hquotation (Bool.and_eq_true_iff.mpr ⟨hquote, ?_⟩)
            rw [htext, List.map_append, List.contains_append, hmem, Bool.true_or]
          rw [List.map_cons, shield, hbefore]
          simp only [hnone]
          rfl

/-- A part of marked characters that is bounded by unquoted characters, or by the ends, is marked as it is
alone. -/
theorem shield_map_fst_of_bounded {text : List Char} {before part after : List (Char × Bool)}
    (h : before ++ (part ++ after) = shield none text)
    (hbefore : ∀ m ∈ before.getLast?, m = (',', false))
    (hafter : ∀ m ∈ after.head?, m = (',', false)) : shield none (part.map Prod.fst) = part := by
  have htail : shield none ((part ++ after).map Prod.fst) = part ++ after := by
    rcases List.eq_nil_or_concat before with rfl | ⟨front, m, rfl⟩
    · rw [List.nil_append] at h
      rw [h, map_fst_shield]
    · obtain rfl := hbefore m (by simp)
      rw [List.concat_eq_append, List.append_assoc, List.singleton_append] at h
      exact (shield_map_fst_of_append h.symm).2.1
  cases after with
  | nil => simpa using htail
  | cons m after =>
    obtain rfl := hafter m rfl
    exact (shield_map_fst_of_append htail).1

/-- The opening brackets among marked characters less the closing ones, quoted ones aside. -/
def balance (marked : List (Char × Bool)) : Int :=
  marked.count ('(', false) - (marked.count (')', false) : Int)

@[simp] theorem balance_nil : balance [] = 0 := rfl

@[simp] theorem balance_append (front back : List (Char × Bool)) :
    balance (front ++ back) = balance front + balance back := by
  simp only [balance, List.count_append]
  omega

/-- A character opens or closes a bracket if it is one and not quoted. -/
theorem balance_singleton (c : Char) (isQuoted : Bool) : balance [(c, isQuoted)] =
    (if c = '(' && !isQuoted then 1 else 0) - (if c = ')' && !isQuoted then 1 else 0) := by
  cases isQuoted <;> simp [balance, List.count_singleton]

/-- Ordinary characters open and close nothing. -/
theorem balance_shield_of_ordinary {text : List Char} (h : ∀ c ∈ text, isOrdinary c) :
    balance (shield none text) = 0 := by
  induction text with
  | nil => rfl
  | cons c text ih =>
    rw [List.forall_mem_cons] at h
    obtain ⟨⟨⟨-, hopen⟩, hclose⟩, -⟩ : ((_ ∧ c ≠ '(') ∧ c ≠ ')') ∧ _ := by
      simpa [isOrdinary] using h.1
    rw [shield_cons_of_not_isQuote (isQuote_of_isOrdinary h.1), ← List.singleton_append, balance_append,
      balance_singleton, ih h.2]
    simp [hopen, hclose]

variable {text : List Char} {k : Nat}

/-- The brackets that are open before an index are those that the characters before it leave open. -/
theorem depthAt_eq_balance (text : List Char) (k : Nat) :
    depthAt text k = balance ((shield none text).take k) := by
  induction k with
  | zero => rw [depthAt_zero, List.take_zero, balance_nil]
  | succ k ih =>
    rw [depthAt_succ, ih, List.take_add_one, balance_append, getElem?_shield 0 text k, Nat.zero_add]
    cases hc : text[k]? with
    | none => simp [standsBare, hc]
    | some c =>
      rw [standsBare_eq hc, standsBare_eq hc, Option.map_some, Option.toList_some, balance_singleton]
      omega

/-- Behind the text those are open that it leaves open. -/
theorem depthAt_length (text : List Char) : depthAt text text.length = balance (shield none text) := by
  rw [depthAt_eq_balance, List.take_of_length_le (Nat.le_of_eq (length_shield none text))]

/-- The mark at an index is the character there and whether it lies in a quotation. -/
theorem getElem?_shield_eq_some_iff {c : Char} {isQuoted : Bool} :
    (shield none text)[k]? = some (c, isQuoted) ↔
      text[k]? = some c ∧ liesIn (quotationsFrom 0 text) k = isQuoted := by
  rw [getElem?_shield 0 text k, Nat.zero_add, Option.map_eq_some_iff]
  constructor
  · rintro ⟨d, hd, hpair⟩
    obtain ⟨rfl, hquoted⟩ := Prod.mk.inj hpair
    exact ⟨hd, hquoted⟩
  · rintro ⟨hc, hquoted⟩
    exact ⟨c, hc, by rw [hquoted]⟩

/-- A character stands bare where it is marked as unquoted. -/
theorem standsBare_iff {c : Char} :
    standsBare text c k ↔ (shield none text)[k]? = some (c, false) := by
  rw [getElem?_shield_eq_some_iff]
  simp [standsBare]

/-- So it does behind the marks that come before its own. -/
theorem standsBare_of_shield {before after : List (Char × Bool)} {c : Char}
    (h : shield none text = before ++ (c, false) :: after) : standsBare text c before.length := by
  rw [standsBare_iff, h]
  simp

/-- A part of a text is read as it is alone: its characters are found in the text, those of them stand in
quotations that do when the part is all there is, and before each of them the same brackets are open
besides the `depth` that the text has open in front of the part. -/
structure ReadAlike (text : List Char) (start : Nat) (depth : Int) (part : List Char) : Prop where
  chars : ∀ i < part.length, text[start + i]? = part[i]?
  quoted : ∀ i < part.length,
    liesIn (quotationsFrom 0 text) (start + i) = liesIn (quotationsFrom 0 part) i
  depth : ∀ i ≤ part.length, depthAt text (start + i) = depth + depthAt part i

namespace ReadAlike

variable {part : List Char} {start : Nat} {depth : Int}

/-- What is marked in a text as it is marked alone is read alike. -/
theorem of_shield {before after : List (Char × Bool)}
    (h : shield none text = before ++ (shield none part ++ after)) :
    ReadAlike text before.length (balance before) part := by
  have hboth {i : Nat} (hi : i < part.length) : text[before.length + i]? = part[i]? ∧
      liesIn (quotationsFrom 0 text) (before.length + i) = liesIn (quotationsFrom 0 part) i := by
    have hpart := getElem?_shield_eq_some_iff.mpr ⟨List.getElem?_eq_getElem hi, rfl⟩
    have hmark : (shield none text)[before.length + i]? = (shield none part)[i]? := by
      rw [h, List.getElem?_append_right (Nat.le_add_right _ _), Nat.add_sub_cancel_left,
        List.getElem?_append_left (by rwa [length_shield])]
    rw [List.getElem?_eq_getElem hi]
    exact getElem?_shield_eq_some_iff.mp (hmark.trans hpart)
  refine ⟨fun i hi => (hboth hi).1, fun i hi => (hboth hi).2, fun i hi => ?_⟩
  rw [depthAt_eq_balance, depthAt_eq_balance, h, List.take_length_add_append,
    List.take_append_of_le_length (by rwa [length_shield]), balance_append]

/-- A part of a part is a part. -/
theorem trans {inner : List Char} {start' : Nat} {depth' : Int} (h : ReadAlike text start depth part)
    (hinner : ReadAlike part start' depth' inner) (hfits : start' + inner.length ≤ part.length) :
    ReadAlike text (start + start') (depth + depth') inner where
  chars i hi := by rw [Nat.add_assoc, h.chars _ (by omega), hinner.chars i hi]
  quoted i hi := by rw [Nat.add_assoc, h.quoted _ (by omega), hinner.quoted i hi]
  depth i hi := by rw [Nat.add_assoc, h.depth _ (by omega), hinner.depth i hi, Int.add_assoc]

end ReadAlike

/-- Whether no index of a text is at fault, that behind its last character included. -/
def Faultless (text : List Char) : Prop := ∀ k ≤ text.length, faultAt? text k = none

/-- A text that is not blank comes to the outcome of its indices. -/
theorem split_eq_outcomeOver {arguments : List Char} (source : List Char) (offset : Int)
    (hblank : ¬allBlank arguments) : split arguments source offset =
      outcomeOver arguments (Head.sourceOr source arguments) offset
        (List.range (arguments.length + 1)) := by
  rw [split, if_neg hblank, cut_eq_outcomeOver]

/-- A text that can be split is faultless, and what it is split into are the arguments of its pieces. -/
theorem faultless_of_split {arguments source : List Char} {offset : Int} {fragments : List Fragment}
    (hblank : ¬allBlank arguments) (h : split arguments source offset = .ok fragments) :
    Faultless arguments ∧ fragments =
      ((List.range (arguments.length + 1)).filter (endsPiece arguments)).map
        (argumentAt arguments offset) := by
  rw [split_eq_outcomeOver source offset hblank, outcomeOver] at h
  split at h
  · contradiction
  · next hnone =>
    refine ⟨fun k hk => ?_, (Except.ok.inj h).symm⟩
    exact List.findSome?_eq_none_iff.mp hnone k (List.mem_range.mpr (Nat.lt_succ_of_le hk))

/-- A text that cannot be split is at fault at one of its indices. -/
theorem exists_faultAt_of_split {arguments source : List Char} {offset : Int} {fault : ReadingFault}
    (h : split arguments source offset = .error fault) :
    ∃ k what i, faultAt? arguments k = some (what, i) ∧ fault = .expression
      ⟨.malformed what, String.ofList (Head.sourceOr source arguments), offset + i⟩ := by
  by_cases hblank : allBlank arguments
  · rw [split, if_pos hblank] at h
    contradiction
  · rw [split_eq_outcomeOver source offset hblank, outcomeOver] at h
    split at h
    · next what i hsome =>
      obtain ⟨k, -, hfault⟩ := List.exists_of_findSome?_eq_some hsome
      exact ⟨k, what, i, hfault, (Except.error.inj h).symm⟩
    · contradiction

/-- What is at fault at an index: a bracket that is open there, which is seen at the end of the text only,
a closing bracket or a blank piece. -/
theorem faultAt?_cases {what : Malformation} {i : Nat} (h : faultAt? text k = some (what, i)) :
    (what = .unclosedOpen ∧ i = text.length ∧ 0 < depthAt text text.length) ∨
      what = .unbalancedClose ∨ what = .emptyArgument := by
  unfold faultAt? at h
  split at h
  · obtain ⟨rfl, -⟩ := Prod.mk.inj (Option.some.inj h)
    exact Or.inr (Or.inl rfl)
  · split at h
    · next hopen =>
      obtain ⟨rfl, rfl⟩ := Prod.mk.inj (Option.some.inj h)
      obtain ⟨rfl, hdepth⟩ : k = text.length ∧ 0 < depthAt text k := by simpa using hopen
      exact Or.inl ⟨rfl, rfl, hdepth⟩
    · split at h
      · obtain ⟨rfl, -⟩ := Prod.mk.inj (Option.some.inj h)
        exact Or.inr (Or.inr rfl)
      · contradiction

namespace Faultless

/-- At no index of a faultless text a bracket is closed that is not open. -/
theorem not_unbalanced (h : Faultless text) (hk : k ≤ text.length) :
    ¬(standsBare text ')' k ∧ depthAt text k = 0) := by
  intro hclose
  have hfault := h k hk
  simp [faultAt?, hclose] at hfault

/-- So no more brackets are closed than are open. -/
theorem depthAt_nonneg (h : Faultless text) (hk : k ≤ text.length) : 0 ≤ depthAt text k := by
  induction k with
  | zero => exact Int.le_of_eq (depthAt_zero text).symm
  | succ k ih =>
    have hk' : k ≤ text.length := by omega
    exact depthAt_succ_nonneg (ih hk') (h.not_unbalanced hk')

/-- Behind a faultless text none is open. -/
theorem depthAt_length_eq_zero (h : Faultless text) : depthAt text text.length = 0 := by
  have hnonneg := h.depthAt_nonneg (Nat.le_refl _)
  have hopen : ¬0 < depthAt text text.length := by
    intro hopen
    have hfault := h text.length (Nat.le_refl _)
    have hbehind : standsBare text ')' text.length = false := by simp [standsBare]
    simp [faultAt?, hbehind, hopen] at hfault
  omega

/-- Nor is one where a piece of it ends, and the piece is not blank. -/
theorem of_endsPiece (h : Faultless text) (hk : k ≤ text.length) (hend : endsPiece text k) :
    depthAt text k = 0 ∧ allBlank (pieceAt text k) = false := by
  have hdepth : depthAt text k = 0 := by
    rcases Bool.or_eq_true _ _ ▸ hend with hsep | hlength
    · exact of_decide_eq_true (Bool.and_eq_true_iff.mp hsep).2
    · exact of_decide_eq_true hlength ▸ h.depthAt_length_eq_zero
  refine ⟨hdepth, Bool.eq_false_iff.mpr fun hblank => ?_⟩
  have hfault := h k hk
  have hclose : standsBare text ')' k = false :=
    Bool.eq_false_iff.mpr fun hbare => h.not_unbalanced hk ⟨hbare, hdepth⟩
  simp [faultAt?, hclose, hdepth, hend, hblank] at hfault

end Faultless

/-- A separator is marked as an unquoted comma. -/
theorem getElem?_shield_of_isSeparator (h : isSeparator text k) :
    (shield none text)[k]? = some (',', false) :=
  standsBare_iff.mp (Bool.and_eq_true_iff.mp h).1

/-- A piece begins with the text or behind a separator, and no bracket is open in front of it. -/
theorem pieceStart_cases (text : List Char) (k : Nat) :
    (pieceStart text k = 0 ∨ ∃ i, isSeparator text i ∧ pieceStart text k = i + 1) ∧
      depthAt text (pieceStart text k) = 0 := by
  induction k with
  | zero => simp [pieceStart_zero, depthAt_zero]
  | succ k ih =>
    rw [pieceStart_succ]
    split
    · next hsep =>
      refine ⟨Or.inr ⟨k, hsep, rfl⟩, ?_⟩
      obtain ⟨⟨hc, -⟩, hdepth⟩ : (text[k]? = some ',' ∧ _) ∧ depthAt text k = 0 := by
        simpa [isSeparator, standsBare] using hsep
      rw [depthAt_succ, hdepth, standsBare_eq hc, standsBare_eq hc]
      simp
    · exact ih

/-- A piece is read as it is alone. -/
theorem readAlike_pieceAt (hk : k ≤ text.length) (hend : endsPiece text k) :
    ReadAlike text (pieceStart text k) 0 (pieceAt text k) := by
  obtain ⟨hfirst, hdepth⟩ := pieceStart_cases text k
  have hle := pieceStart_le text k
  -- the marks of the piece, between those before it and those behind it
  obtain ⟨marked, hmarked⟩ : ∃ marked, marked = shield none text := ⟨_, rfl⟩
  have hparts : marked.take (pieceStart text k) ++
      ((marked.take k).drop (pieceStart text k) ++ marked.drop k) = marked := by
    have hfront : marked.take (pieceStart text k) = (marked.take k).take (pieceStart text k) := by
      rw [List.take_take, Nat.min_eq_left hle]
    rw [hfront, ← List.append_assoc, List.take_append_drop, List.take_append_drop]
  have hpiece : ((marked.take k).drop (pieceStart text k)).map Prod.fst = pieceAt text k := by
    rw [List.map_drop, List.map_take, hmarked, map_fst_shield, pieceAt]
  have hlength : (marked.take (pieceStart text k)).length = pieceStart text k := by
    rw [List.length_take, hmarked, length_shield]
    omega
  have hbefore : ∀ m ∈ (marked.take (pieceStart text k)).getLast?, m = (',', false) := by
    rcases hfirst with hzero | ⟨i, hsep, hstart⟩
    · simp [hzero]
    · rw [hstart, List.take_add_one, hmarked, getElem?_shield_of_isSeparator hsep]
      simp
  have hafter : ∀ m ∈ (marked.drop k).head?, m = (',', false) := by
    rw [List.head?_drop, hmarked]
    rcases Bool.or_eq_true _ _ ▸ hend with hsep | hlast
    · simp [getElem?_shield_of_isSeparator hsep]
    · simp [of_decide_eq_true hlast, getElem?_shield 0]
  have halone := shield_map_fst_of_bounded (hparts.trans hmarked) hbefore hafter
  rw [hpiece] at halone
  have halike := ReadAlike.of_shield (hmarked.symm.trans (halone ▸ hparts.symm))
  rwa [hlength, hmarked, ← depthAt_eq_balance, hdepth] at halike

/-- Without the blanks around it an argument is read as in its piece, and leaves as many brackets open. -/
theorem TrimmedFrom.readAlike {raw : List Char} {start : Int} {fragment : Fragment}
    (h : TrimmedFrom raw start fragment) : ∃ front : Nat, fragment.position = start + front ∧
      front + fragment.text.length ≤ raw.length ∧ ReadAlike raw front 0 fragment.text ∧
      depthAt fragment.text fragment.text.length = depthAt raw raw.length := by
  obtain ⟨before, after, hbefore, hafter, rfl, hposition⟩ := h.placed
  have hunquoted {blanks : List Char} (h : allBlank blanks) : ∀ c ∈ blanks, isQuote c = false :=
    fun c hc => isQuote_of_isOrdinary (isOrdinary_of_allBlank h c hc)
  have hmarked : shield none (before ++ fragment.text ++ after) =
      shield none before ++ (shield none fragment.text ++ shield none after) := by
    rw [List.append_assoc, shield_append_of_unquoted (hunquoted hbefore)]
    congr 1
    refine shield_append (by simp) fun c _ hquote hmem => ?_
    simp [hunquoted hafter c hmem] at hquote
  have halike := ReadAlike.of_shield hmarked
  rw [length_shield, balance_shield_of_ordinary (isOrdinary_of_allBlank hbefore)] at halike
  refine ⟨before.length, hposition.symm, ?_, halike, ?_⟩
  · simp only [List.length_append]
    omega
  · rw [depthAt_length, depthAt_length, hmarked, balance_append, balance_append,
      balance_shield_of_ordinary (isOrdinary_of_allBlank hbefore),
      balance_shield_of_ordinary (isOrdinary_of_allBlank hafter)]
    omega

/-- Two brackets of a text that pair, as no other bracket is open around them or left open between them,
and what stands between them, which is read as it is alone. -/
structure Encloses (text : List Char) (start stop : Nat) (inside : List Char) : Prop where
  opening : standsBare text '(' start
  outermost : depthAt text start = 0
  alike : ReadAlike text (start + 1) 1 inside
  stop_eq : stop = start + 1 + inside.length
  closing : standsBare text ')' stop
  closed : depthAt text stop = 1

/-- The first bracket of a text and the last one, which ends it, pair if the text leaves none open. What
stands between them leaves none open, either. -/
theorem encloses_of_closed {front inside : List Char} (hfront : ∀ c ∈ front, isOrdinary c)
    (htext : text = front ++ '(' :: (inside ++ [')']))
    (hclosed : depthAt text text.length = 0) :
    Encloses text front.length (front.length + 1 + inside.length) inside ∧
      depthAt inside inside.length = 0 := by
  have hinside : shield none (inside ++ [')']) = shield none inside ++ [(')', false)] := by
    refine shield_append (by simp) fun c _ hquote hmem => ?_
    obtain rfl := List.mem_singleton.mp hmem
    exact absurd hquote (by decide)
  have hmarked : shield none text =
      shield none front ++ ('(', false) :: (shield none inside ++ [(')', false)]) := by
    rw [htext, shield_append_of_unquoted fun c hc => isQuote_of_isOrdinary (hfront c hc),
      shield_cons_of_not_isQuote (by decide), hinside]
  have hbalance : balance (shield none inside) = 0 := by
    rw [depthAt_length, hmarked, balance_append, balance_shield_of_ordinary hfront,
      ← List.singleton_append, balance_append, balance_append, balance_singleton,
      balance_singleton] at hclosed
    simpa using hclosed
  have houtermost := (@ReadAlike.of_shield text front [] _ hmarked).depth front.length (Nat.le_refl _)
  have halike : ReadAlike text (front.length + 1) 1 inside := by
    have hparts : shield none text =
        (shield none front ++ [('(', false)]) ++ (shield none inside ++ [(')', false)]) := by
      simpa using hmarked
    simpa [length_shield, balance_shield_of_ordinary hfront, balance_singleton] using
      ReadAlike.of_shield hparts
  have hclosing : standsBare text ')' (front.length + 1 + inside.length) := by
    have hparts : shield none text =
        (shield none front ++ ('(', false) :: shield none inside) ++ [(')', false)] := by
      simpa using hmarked
    have hbare := standsBare_of_shield hparts
    rwa [List.length_append, List.length_cons, length_shield, length_shield, Nat.add_comm inside.length,
      ← Nat.add_assoc] at hbare
  rw [depthAt_length, balance_shield_of_ordinary hfront, balance_nil, List.length_nil,
    Nat.zero_add] at houtermost
  have hdepth : depthAt inside inside.length = 0 := (depthAt_length inside).trans hbalance
  refine ⟨⟨?_, houtermost, halike, rfl, hclosing, ?_⟩, hdepth⟩
  · have hbare := standsBare_of_shield hmarked
    rwa [length_shield] at hbare
  · rw [halike.depth _ (Nat.le_refl _), hdepth]
    rfl

/-- How the outer shape of an argument goes with its text: there is nothing between brackets, or the two
brackets pair and the one that closes is the last character. -/
def Matches (fragment : Fragment) (head : Head) : Prop :=
  head.arguments = [] ∨ ∃ start stop : Nat, head.offset = fragment.position + (start + 1 : Nat) ∧
    Encloses fragment.text start stop head.arguments ∧ stop + 1 = fragment.text.length

/-- How an argument on its own goes with the arguments that it is cut from, which begin at `offset`: it is
read in the same way, leaves no bracket open, and has the outer shape of a call only if its brackets are
matched. -/
structure Coheres (arguments source : List Char) (offset : Int) (fragment : Fragment) : Prop where
  placed : ∃ start : Nat, fragment.position = offset + start ∧
    ReadAlike arguments start 0 fragment.text
  closed : depthAt fragment.text fragment.text.length = 0
  matched : ∀ head, Head.read fragment.text source fragment.position = .ok head →
    fragment.Matches head

/-- The brackets of a nested call are matched if its text leaves none open, and what is between them leaves
none open. -/
theorem matches_of_read {fragment : Fragment} {head : Head} {source : List Char}
    (hsolid : Solid fragment.text) (hclosed : depthAt fragment.text fragment.text.length = 0)
    (hread : Head.read fragment.text source fragment.position = .ok head) :
    fragment.Matches head ∧ depthAt head.arguments head.arguments.length = 0 := by
  obtain ⟨text, position⟩ := fragment
  cases Head.read_eq_ok_iff.mp hread with
  | bare => exact ⟨Or.inl rfl, depthAt_zero _⟩
  | @bracketed before name gap inside after hbefore hname hgap hafter htext =>
    have hfront : ∀ c ∈ before ++ name ++ gap, isOrdinary c :=
      List.forall_mem_append.mpr ⟨List.forall_mem_append.mpr ⟨isOrdinary_of_allBlank hbefore,
        fun c hc => isOrdinary_of_isNameChar (hname.chars c hc)⟩, isOrdinary_of_allBlank hgap⟩
    obtain rfl : after = [] := by
      have hparts : text = (before ++ name ++ gap ++ '(' :: (inside ++ [')'])) ++ after := by
        simpa using htext.symm
      exact (hparts ▸ hsolid).eq_nil_of_append hafter
    obtain ⟨hencloses, hdepth⟩ := encloses_of_closed hfront (by simpa using htext.symm) hclosed
    refine ⟨Or.inr ⟨_, _, ?_, hencloses, ?_⟩, hdepth⟩
    · simp only [List.length_append]
      omega
    · rw [← htext]
      simp only [List.length_append, List.length_cons, List.length_nil]
      omega

/-- The argument of a piece that is not blank is the piece without the blanks around it. -/
theorem trimmedFrom_argumentAt (offset : Int) (hpiece : allBlank (pieceAt text k) = false) :
    TrimmedFrom (pieceAt text k) (offset + pieceStart text k) (argumentAt text offset k) := by
  have hclose := close_pieceAt text text offset k
  rw [if_neg (by simp [hpiece])] at hclose
  rcases close_cases text (pieceAt text k) (offset + pieceStart text k) with
    ⟨fragment, hfragment, htrimmed⟩ | ⟨hblank, -⟩
  · exact Except.ok.inj (hfragment.symm.trans hclose) ▸ htrimmed
  · exact absurd hblank (by simp [hpiece])

/-- The arguments that a text is split into go with the text. -/
theorem coheres_of_split {arguments source : List Char} {offset : Int} {fragments : List Fragment}
    (h : split arguments source offset = .ok fragments) :
    ∀ fragment ∈ fragments, Solid fragment.text ∧ Coheres arguments source offset fragment := by
  by_cases hblank : allBlank arguments
  · rw [split, if_pos hblank] at h
    obtain rfl := Except.ok.inj h
    simp
  intro fragment hmem
  obtain ⟨hfaultless, rfl⟩ := faultless_of_split hblank h
  obtain ⟨stop, hstop, rfl⟩ := List.mem_map.mp hmem
  obtain ⟨hrange, hend⟩ := List.mem_filter.mp hstop
  have hle : stop ≤ arguments.length := Nat.le_of_lt_succ (List.mem_range.mp hrange)
  obtain ⟨hdepth, hpiece⟩ := hfaultless.of_endsPiece hle hend
  have hread := readAlike_pieceAt hle hend
  have htrimmed := trimmedFrom_argumentAt offset hpiece
  obtain ⟨front, hposition, hfits, halike, hsame⟩ := htrimmed.readAlike
  have hclosed : depthAt (argumentAt arguments offset stop).text
      (argumentAt arguments offset stop).text.length = 0 := by
    have hwhole := hread.depth _ (Nat.le_refl _)
    rw [length_pieceAt hle, hdepth] at hwhole
    omega
  refine ⟨htrimmed.solid, ⟨pieceStart arguments stop + front, ?_, ?_⟩, hclosed, fun head hhead => ?_⟩
  · rw [hposition, Int.natCast_add, Int.add_assoc]
  · exact hread.trans halike hfits
  · exact (matches_of_read htrimmed.solid hclosed hhead).1

/-- The faults of arguments that leave no bracket open: a closing bracket without a partner, or a blank
piece. -/
def IsInnerFault (against : List Char) (fault : ReadingFault) : Prop :=
  ∃ what position, fault = .expression ⟨.malformed what, String.ofList against, position⟩ ∧
    (what = .unbalancedClose ∨ what = .emptyArgument)

/-- A text that leaves no bracket open is not at fault for one. -/
theorem isInnerFault_of_closed {arguments source : List Char} {offset : Int} {fault : ReadingFault}
    (hclosed : depthAt arguments arguments.length = 0)
    (h : split arguments source offset = .error fault) :
    IsInnerFault (Head.sourceOr source arguments) fault := by
  obtain ⟨k, what, i, hfault, rfl⟩ := exists_faultAt_of_split h
  rcases faultAt?_cases hfault with ⟨-, -, hopen⟩ | hwhat
  · omega
  · exact ⟨what, _, rfl, hwhat⟩

/-- The arguments at any depth below arguments that a text of the expression `source` is split into. -/
inductive Within (source : List Char) (fragments : List Fragment) : Fragment → Prop
  | member {fragment : Fragment} (hmem : fragment ∈ fragments) : Within source fragments fragment
  | inner {outer fragment : Fragment} (houter : Within source fragments outer)
      (hmem : fragment ∈ outer.pieces source) : Within source fragments fragment

/-- Each of them is one that some text is split into. -/
theorem Within.exists_split {arguments source : List Char} {offset : Int} {fragments : List Fragment}
    {fragment : Fragment} (h : Within source fragments fragment)
    (hsplit : split arguments source offset = .ok fragments) :
    ∃ arguments offset fragments, split arguments source offset = .ok fragments ∧
      fragment ∈ fragments := by
  cases h with
  | member hmem => exact ⟨arguments, offset, fragments, hsplit, hmem⟩
  | @inner outer _ houter hmem =>
    unfold pieces at hmem
    split at hmem
    · simp at hmem
    · next head hhead =>
      split at hmem
      · simp at hmem
      · next inner hinner => exact ⟨head.arguments, head.offset, inner, hinner, hmem⟩

/-- The arguments of a nested call are not at fault for a bracket that is left open. -/
theorem isInnerFault_of_nested {arguments source : List Char} {offset : Int} {fragments : List Fragment}
    {fragment : Fragment} {head : Head} {fault : ReadingFault}
    (hsplit : split arguments source offset = .ok fragments) (hmem : fragment ∈ fragments)
    (hread : Head.read fragment.text source fragment.position = .ok head)
    (h : split head.arguments source head.offset = .error fault) :
    IsInnerFault (Head.sourceOr source head.arguments) fault := by
  obtain ⟨hsolid, hcoheres⟩ := coheres_of_split hsplit fragment hmem
  exact isInnerFault_of_closed (matches_of_read hsolid hcoheres.closed hread).2 h

end Fragment

namespace Call

variable {source : List Char} {fault : ExpressionFault}

/-- An expression with a bracket that is left open cannot be split itself: the arguments of all other
opened texts are part of arguments that were split. -/
theorem FaultsAt.split_of_unclosedOpen (h : FaultsAt source (.expression fault))
    (hopen : fault.defect = .malformed .unclosedOpen) : ∃ head,
      Head.read source source 0 = .ok head ∧
      Fragment.split head.arguments source head.offset = .error (.expression fault) := by
  cases h with
  | @opening text offset hopens henter =>
    rcases bind_eq_error_iff.mp henter with hread | ⟨head, hhead, hrest⟩
    · rcases Head.read_cases text source offset with ⟨head, hhead, -⟩ | ⟨-, hblank⟩ | ⟨-, hother⟩
      · exact absurd (hhead.symm.trans hread) (by simp)
      · obtain rfl := ReadingFault.expression.inj (Except.error.inj (hblank.symm.trans hread))
        simp at hopen
      · obtain rfl := ReadingFault.expression.inj (Except.error.inj (hother.symm.trans hread))
        simp at hopen
    · rcases bind_eq_error_iff.mp hrest with hsplit | ⟨fragments, -, hopened⟩
      · cases hopens with
        | root => exact ⟨head, hhead, hsplit⟩
        | nested hvisits hpending _ =>
          obtain ⟨-, houter, hmem⟩ := splits_of_visits hvisits _ (hpending ▸ List.mem_cons_self)
          obtain ⟨_, -, hrest⟩ := bind_eq_ok_iff.mp houter
          obtain ⟨_, hfragments, hopened⟩ := bind_eq_ok_iff.mp hrest
          obtain rfl := Except.ok.inj hopened
          obtain ⟨what, position, hfault, hwhat⟩ :=
            Fragment.isInnerFault_of_nested hfragments hmem hhead hsplit
          obtain rfl := ReadingFault.expression.inj hfault
          obtain rfl : what = .unclosedOpen := Defect.malformed.inj hopen
          simp at hwhat
      · contradiction
  | literal _ _ hread =>
    obtain ⟨kind, rfl⟩ := Literal.fault_of_read hread
    simp at hopen

/-- The arguments of a whole expression with a bracket that is left open end before its last closing
bracket, and the bracket is reported there. -/
theorem exists_last_closing {head : Head} (hread : Head.read source source 0 = .ok head)
    (hsplit : Fragment.split head.arguments source head.offset = .error (.expression fault))
    (hopen : fault.defect = .malformed .unclosedOpen) : ∃ front back,
      source = front ++ ')' :: back ∧ ')' ∉ back ∧ fault.position = front.length := by
  obtain ⟨k, what, i, hfault, hat⟩ := Fragment.exists_faultAt_of_split hsplit
  obtain rfl := ReadingFault.expression.inj hat
  obtain rfl : what = .unclosedOpen := Defect.malformed.inj hopen
  rcases Fragment.faultAt?_cases hfault with ⟨-, rfl, -⟩ | hother
  · cases Head.read_eq_ok_iff.mp hread with
    | bare =>
      rw [Fragment.split, if_pos allBlank_nil] at hsplit
      contradiction
    | @bracketed before name gap inside after hbefore hname hgap hafter htext =>
      refine ⟨before ++ name ++ gap ++ '(' :: inside, after, by simpa using htext.symm, ?_, ?_⟩
      · exact fun hmem => absurd (List.all_eq_true.mp hafter _ hmem) (by decide)
      · simp only [List.length_append, List.length_cons]
        omega
  · simp at hother

/-- A bracket that is left open is reported only where the arguments of the whole expression are split, and
at the last closing bracket of the expression. Once arguments are split, those of the calls among them, at
any depth, can be split or are at fault for a closing bracket or a blank piece: each argument is read by
itself as it is in the arguments around it, down to its brackets. -/
theorem unclosedOpen_only_outermost :
    (∀ (expression : String) (fault : ExpressionFault),
      parse expression = .error (.expression fault) → fault.defect = .malformed .unclosedOpen →
      (∃ head, Head.read expression.toList expression.toList 0 = .ok head ∧
        Fragment.split head.arguments expression.toList head.offset = .error (.expression fault)) ∧
      ∃ front back, expression.toList = front ++ ')' :: back ∧ ')' ∉ back ∧
        fault.position = front.length) ∧
    ∀ (arguments source : List Char) (offset : Int) (fragments : List Fragment),
      Fragment.split arguments source offset = .ok fragments →
      (∀ fragment ∈ fragments, Fragment.Coheres arguments source offset fragment) ∧
      ∀ nested, Fragment.Within source fragments nested →
        ∀ head, Head.read nested.text source nested.position = .ok head →
          ∀ fault, Fragment.split head.arguments source head.offset = .error fault →
            Fragment.IsInnerFault (Head.sourceOr source head.arguments) fault := by
  refine ⟨fun expression fault hparse hopen => ?_, fun arguments source offset fragments hsplit =>
    ⟨fun fragment hmem => (Fragment.coheres_of_split hsplit fragment hmem).2,
      fun nested hwithin head hread fault hfault => ?_⟩⟩
  · obtain ⟨head, hread, hsplit⟩ := (faultsAt_of_read hparse).split_of_unclosedOpen hopen
    exact ⟨⟨head, hread, hsplit⟩, exists_last_closing hread hsplit hopen⟩
  · obtain ⟨_, _, _, houter, hmem⟩ := hwithin.exists_split hsplit
    exact Fragment.isInnerFault_of_nested houter hmem hread hfault

/-- The outer bracket is the one that is left open, though the inner one is the only one that is closed; a
blank piece in a nested call is at fault when it is its turn. -/
theorem parse_open_outer :
    parse "A(B(1)" = .error (.expression ⟨.malformed .unclosedOpen, "A(B(1)", 5⟩) ∧
    (∃ front back, "A(B(1)".toList = front ++ ')' :: back ∧ ')' ∉ back ∧ (5 : Int) = front.length) ∧
    Fragment.split "1,B('(',)".toList "A(1,B('(',))".toList 2 =
      .ok [⟨"1".toList, 2⟩, ⟨"B('(',)".toList, 4⟩] ∧
    Fragment.split "'(',".toList "A(1,B('(',))".toList 6 =
      .error (.expression ⟨.malformed .emptyArgument, "A(1,B('(',))", 10⟩) ∧
    Fragment.IsInnerFault "A(1,B('(',))".toList
      (.expression ⟨.malformed .emptyArgument, "A(1,B('(',))", 10⟩) := by
  have hparse : parse "A(B(1)" = .error (.expression ⟨.malformed .unclosedOpen, "A(B(1)", 5⟩) :=
    Option.some.inj ((readWithin_length _).symm.trans rfl)
  have hsplit : Fragment.split "1,B('(',)".toList "A(1,B('(',))".toList 2 =
      .ok [⟨"1".toList, 2⟩, ⟨"B('(',)".toList, 4⟩] := rfl
  have hinner : Fragment.split "'(',".toList "A(1,B('(',))".toList 6 =
      .error (.expression ⟨.malformed .emptyArgument, "A(1,B('(',))", 10⟩) := rfl
  have hread : Head.read "B('(',)".toList "A(1,B('(',))".toList 4 = .ok ⟨['B'], "'(',".toList, 6⟩ :=
    rfl
  refine ⟨hparse, (unclosedOpen_only_outermost.1 _ _ hparse rfl).2, hsplit, hinner, ?_⟩
  exact (unclosedOpen_only_outermost.2 _ _ _ _ hsplit).2 ⟨"B('(',)".toList, 4⟩
    (.member (by simp)) _ hread _ hinner

end Call

end DriverPolicy
