import DriverPolicy.Proofs.Expression.Pieces

/-!
# Arguments by index

The scan of arguments goes from character to character and carries a state. What it comes to can also
be said of the whole text at once, by the indices of its characters: which of them stand in quotations,
how many brackets are open before each, which commas are separators, and at which index a fault is
first seen. Nothing in these definitions refers to the scan.

At every index the state of the scan is what the definitions say of that index, so the two agree on
every text.
-/

namespace DriverPolicy

namespace Fragment

/-- The quotations of a text, of which the first character has the index `first`, by the indices of
their two quotes. A quote outside of the quotations before it opens one if the same quote stands behind
it; the next such quote closes it. -/
def quotationsFrom (first : Nat) : List Char → List (Nat × Nat)
  | [] => []
  | c :: rest =>
    if isQuote c ∧ c ∈ rest then
      (first, first + 1 + rest.idxOf c) ::
        quotationsFrom (first + 2 + rest.idxOf c) (rest.drop (rest.idxOf c + 1))
    else quotationsFrom (first + 1) rest
termination_by text => text.length
decreasing_by
  · simp only [List.length_drop, List.length_cons]
    omega
  · simp

/-- Whether an index lies in one of some quotations. -/
def liesIn (quotations : List (Nat × Nat)) (i : Nat) : Bool :=
  quotations.any fun quotation => quotation.1 ≤ i && i ≤ quotation.2

/-- Whether a character stands at an index outside of all quotations of a text. -/
def standsBare (text : List Char) (c : Char) (i : Nat) : Bool :=
  text[i]? = some c && !liesIn (quotationsFrom 0 text) i

/-- The opening brackets before an index less the closing ones, quotations aside. -/
def depthAt (text : List Char) (i : Nat) : Int :=
  (List.range i).countP (standsBare text '(') - ((List.range i).countP (standsBare text ')') : Int)

/-- Whether a comma that separates arguments stands at an index. -/
def isSeparator (text : List Char) (i : Nat) : Bool :=
  standsBare text ',' i && depthAt text i = 0

/-- The indices of the separators before an index. -/
def separatorsBefore (text : List Char) (stop : Nat) : List Nat :=
  (List.range stop).filter (isSeparator text)

/-- The indices of the separators of a text. -/
def separators (text : List Char) : List Nat := separatorsBefore text text.length

/-- Where the piece begins that ends at an index: behind the last separator before it, or at the
beginning of the text. -/
def pieceStart (text : List Char) (stop : Nat) : Nat :=
  (separatorsBefore text stop).getLast?.elim 0 (· + 1)

/-- The piece that ends at an index. -/
def pieceAt (text : List Char) (stop : Nat) : List Char :=
  (text.take stop).drop (pieceStart text stop)

/-- Whether a piece is closed at an index: at a separator and at the end of the text. -/
def endsPiece (text : List Char) (i : Nat) : Bool := isSeparator text i || i = text.length

/-- The argument of the piece that ends at an index: the piece without the blanks around it, at the
position of its first character that is not blank. -/
def argumentAt (text : List Char) (offset : Int) (stop : Nat) : Fragment :=
  ⟨trim (pieceAt text stop),
    offset + (pieceStart text stop + (pieceAt text stop).findIdx fun c => !isBlank c : Nat)⟩

/-- The fault that is seen at an index, and the index it is reported at: a closing bracket where none is
open, a bracket that is open at the end, or a blank piece that is closed. -/
def faultAt? (text : List Char) (i : Nat) : Option (Malformation × Nat) :=
  if standsBare text ')' i && depthAt text i = 0 then some (.unbalancedClose, i)
  else if i = text.length && 0 < depthAt text i then some (.unclosedOpen, i)
  else if endsPiece text i && allBlank (pieceAt text i) then
    some (.emptyArgument, pieceStart text i)
  else none

/-- The arguments of a text by its indices, unless a fault is seen at one of them: the first one, from
left to right, is the outcome. The index behind the last character counts. -/
def splitByIndex (text source : List Char) (offset : Int) : Except ReadingFault (List Fragment) :=
  if allBlank text then .ok []
  else
    match (List.range (text.length + 1)).findSome? (faultAt? text) with
    | some (what, i) => malformed what (Head.sourceOr source text) (offset + i)
    | none => .ok ((separators text ++ [text.length]).map (argumentAt text offset))

/-- The characters of a text that are not blank. -/
def withoutBlanks (text : List Char) : List Char := text.filter fun c => !isBlank c

/-- What some indices of a text come to: the first fault that is seen at one of them, or the arguments of
the pieces that end at them. -/
def outcomeOver (text against : List Char) (offset : Int) (indices : List Nat) :
    Except ReadingFault (List Fragment) :=
  match indices.findSome? (faultAt? text) with
  | some (what, i) => malformed what against (offset + i)
  | none => .ok ((indices.filter (endsPiece text)).map (argumentAt text offset))

variable {text against : List Char} {offset : Int} {k : Nat}

/-- No quotation begins before the text. -/
theorem le_of_liesIn {first i : Nat} (h : liesIn (quotationsFrom first text) i) : first ≤ i := by
  fun_induction quotationsFrom first text with
  | case1 => simp [liesIn] at h
  | case2 first c rest hquotation ih =>
    simp only [liesIn, List.any_cons, Bool.or_eq_true, Bool.and_eq_true, decide_eq_true_eq] at h ih
    rcases h with h | h
    · exact h.1
    · have := ih h
      omega
  | case3 first c rest hquotation ih =>
    have := ih h
    omega

/-- The scan marks the characters that lie in quotations. -/
theorem getElem?_shield (first : Nat) (text : List Char) (j : Nat) :
    (shield none text)[j]? =
      text[j]?.map fun c => (c, liesIn (quotationsFrom first text) (first + j)) := by
  fun_induction quotationsFrom first text generalizing j with
  | case1 => simp [shield]
  | case2 first c rest hquotation ih =>
    obtain ⟨content, tail, rfl, hfresh⟩ := List.eq_append_cons_of_mem hquotation.2
    have hindex : (content ++ c :: tail).idxOf c = content.length := by
      rw [List.idxOf_append_of_notMem hfresh, List.idxOf_cons_self, Nat.add_zero]
    have htail : (content ++ c :: tail).drop (content.length + 1) = tail := by
      rw [List.append_cons, List.drop_left' (by simp)]
    rw [hindex, htail] at ih ⊢
    have hmarked := shield_quotation hquotation.1 hfresh tail
    obtain ⟨quoted, hquoted⟩ : ∃ quoted, quoted = c :: content ++ [c] := ⟨_, rfl⟩
    have htext : c :: (content ++ c :: tail) = quoted ++ tail := by simp [hquoted]
    have hlength : quoted.length = content.length + 2 := by simp [hquoted]
    rw [List.cons_append, htext, ← hquoted] at hmarked
    rw [htext, hmarked]
    by_cases hj : j < quoted.length
    · have hin : first + j ≤ first + 1 + content.length := by omega
      rw [List.getElem?_append_left (by simpa using hj), List.getElem?_append_left hj]
      simp [liesIn, hin]
    · obtain ⟨i, rfl⟩ : ∃ i, j = quoted.length + i := ⟨j - quoted.length, by omega⟩
      have hout : ¬first + (quoted.length + i) ≤ first + 1 + content.length := by omega
      have hsum : first + 2 + content.length + i = first + (quoted.length + i) := by omega
      rw [List.getElem?_append_right (by simp), List.getElem?_append_right (by omega),
        List.length_map, Nat.add_sub_cancel_left, ih, hsum]
      simp [liesIn, hout]
  | case3 first c rest hquotation ih =>
    have hmarked : shield none (c :: rest) = (c, false) :: shield none rest := by
      have hnone : ¬(isQuote c && rest.contains c) := by simpa using hquotation
      rw [shield]
      simp only [hnone]
      rfl
    rw [hmarked]
    cases j with
    | zero =>
      have hout : ¬liesIn (quotationsFrom (first + 1) rest) first := fun h => by
        have := le_of_liesIn h
        omega
      simpa using hout
    | succ j => rw [List.getElem?_cons_succ, ih, List.getElem?_cons_succ, Nat.add_right_comm]; rfl

/-- From an index on the scan marks the character there and those behind it. -/
theorem drop_shield {c : Char} (hc : text[k]? = some c) : (shield none text).drop k =
    (c, liesIn (quotationsFrom 0 text) k) :: (shield none text).drop (k + 1) := by
  have hmarked := getElem?_shield 0 text k
  rw [hc, Nat.zero_add] at hmarked
  obtain ⟨hlt, heq⟩ := List.getElem?_eq_some_iff.mp hmarked
  rw [List.drop_eq_getElem_cons hlt, heq]

/-- What stands at an index is the character there if no quotation holds it. -/
theorem standsBare_eq {c : Char} (hc : text[k]? = some c) (d : Char) :
    standsBare text d k = (c = d && !liesIn (quotationsFrom 0 text) k) := by
  simp [standsBare, hc]

/-- No bracket is open before the text. -/
theorem depthAt_zero (text : List Char) : depthAt text 0 = 0 := by simp [depthAt]

/-- An opening bracket opens one more, a closing bracket closes one. -/
theorem depthAt_succ (text : List Char) (i : Nat) : depthAt text (i + 1) = depthAt text i +
    (if standsBare text '(' i then 1 else 0) - (if standsBare text ')' i then 1 else 0) := by
  simp only [depthAt, List.range_succ, List.countP_append, List.countP_singleton]
  split <;> split <;> omega

/-- The first piece begins with the text. -/
theorem pieceStart_zero (text : List Char) : pieceStart text 0 = 0 := by
  simp [pieceStart, separatorsBefore]

/-- A new piece begins behind a separator. -/
theorem pieceStart_succ (text : List Char) (i : Nat) :
    pieceStart text (i + 1) = if isSeparator text i then i + 1 else pieceStart text i := by
  simp only [pieceStart, separatorsBefore, List.range_succ, List.filter_append]
  by_cases h : isSeparator text i <;> simp [h]

/-- No piece begins behind its end. -/
theorem pieceStart_le (text : List Char) (i : Nat) : pieceStart text i ≤ i := by
  induction i with
  | zero => exact Nat.le_of_eq (pieceStart_zero text)
  | succ i ih =>
    rw [pieceStart_succ]
    split <;> omega

/-- Behind a separator the piece is empty. -/
theorem pieceAt_succ_of_isSeparator (h : isSeparator text k) : pieceAt text (k + 1) = [] := by
  rw [pieceAt, pieceStart_succ, if_pos h]
  exact List.drop_eq_nil_of_le (List.length_take_le _ _)

/-- A character that is no separator belongs to the piece. -/
theorem pieceAt_succ {c : Char} (hc : text[k]? = some c) (h : isSeparator text k = false) :
    pieceAt text (k + 1) = pieceAt text k ++ [c] := by
  have hle := pieceStart_le text k
  have hlt := (List.getElem?_eq_some_iff.mp hc).1
  rw [pieceAt, pieceStart_succ, if_neg (by simp [h]), List.take_add_one, hc, pieceAt,
    List.drop_append_of_le_length (by rw [List.length_take]; omega)]
  rfl

/-- The piece reaches from where it begins to where it ends. -/
theorem length_pieceAt (hk : k ≤ text.length) :
    pieceStart text k + (pieceAt text k).length = k := by
  have hle := pieceStart_le text k
  rw [pieceAt, List.length_drop, List.length_take]
  omega

/-- A piece that is not blank is closed as its argument. -/
theorem close_pieceAt (text against : List Char) (offset : Int) (stop : Nat) :
    close against (pieceAt text stop) (offset + pieceStart text stop) =
      if allBlank (pieceAt text stop) then
        malformed .emptyArgument against (offset + pieceStart text stop)
      else .ok (argumentAt text offset stop) := by
  have hfirst : ((pieceAt text stop).takeWhile isBlank).length =
      (pieceAt text stop).findIdx fun c => !isBlank c := by
    rw [List.takeWhile_eq_take_findIdx_not, List.length_take]
    exact Nat.min_eq_left List.findIdx_le_length
  unfold close ofRaw?
  by_cases hblank : allBlank (pieceAt text stop)
  · rw [if_pos hblank, if_pos hblank]
  · rw [if_neg hblank, if_neg hblank, hfirst, argumentAt, Int.natCast_add, Int.add_assoc]

/-- A fault that is seen at the first index is the outcome. -/
theorem outcomeOver_fault {what : Malformation} {i : Nat} (h : faultAt? text k = some (what, i))
    (indices : List Nat) :
    outcomeOver text against offset (k :: indices) = malformed what against (offset + i) := by
  simp [outcomeOver, h]

/-- Where a piece ends and no bracket is at fault, the piece is closed before the other indices. -/
theorem outcomeOver_close (hend : endsPiece text k)
    (hclose : ¬(standsBare text ')' k ∧ depthAt text k = 0))
    (hopen : ¬(k = text.length ∧ 0 < depthAt text k)) (indices : List Nat) :
    outcomeOver text against offset (k :: indices) = (do
      let fragment ← close against (pieceAt text k) (offset + pieceStart text k)
      let fragments ← outcomeOver text against offset indices
      return fragment :: fragments) := by
  rw [close_pieceAt]
  by_cases hblank : allBlank (pieceAt text k)
  · have hfault : faultAt? text k = some (.emptyArgument, pieceStart text k) := by
      simp [faultAt?, hclose, hopen, hend, hblank]
    rw [if_pos hblank, outcomeOver_fault hfault]
    rfl
  · have hfault : faultAt? text k = none := by simp [faultAt?, hclose, hopen, hblank]
    rw [if_neg hblank, ok_bind]
    simp only [outcomeOver, List.findSome?_cons, hfault, List.filter_cons_of_pos hend, List.map_cons]
    cases indices.findSome? (faultAt? text) <;> rfl

/-- Before the end of the text nothing is seen at an index where no separator stands and no closing
bracket that has no partner. -/
theorem outcomeOver_pass (hk : k < text.length)
    (hclose : ¬(standsBare text ')' k ∧ depthAt text k = 0)) (hsep : isSeparator text k = false)
    (indices : List Nat) :
    outcomeOver text against offset (k :: indices) = outcomeOver text against offset indices := by
  have hne : k ≠ text.length := Nat.ne_of_lt hk
  have hend : endsPiece text k = false := by simp [endsPiece, hsep, hne]
  have hfault : faultAt? text k = none := by simp [faultAt?, hend, hne, hclose]
  simp [outcomeOver, hfault, hend]

/-- What the scan comes to from an index on, in the state that the text says it is in there: the piece
that ends at the index is being read. -/
def scanFrom (text against : List Char) (offset : Int) (depth k : Nat) :
    Except ReadingFault (List Fragment) :=
  cut against depth (offset + pieceStart text k) (pieceAt text k).reverse ((shield none text).drop k)

/-- The characters of the piece lead to the index where it ends. -/
theorem position_of_piece (hk : k ≤ text.length) :
    offset + pieceStart text k + (pieceAt text k).reverse.length = offset + k := by
  have := length_pieceAt hk
  rw [List.length_reverse]
  omega

/-- At the end of the text a bracket is open, or the last piece is closed. -/
theorem scanFrom_length {depth : Nat} (hdepth : depthAt text text.length = depth) :
    scanFrom text against offset depth text.length =
      outcomeOver text against offset [text.length] := by
  have hbehind (c : Char) : standsBare text c text.length = false := by simp [standsBare]
  rw [scanFrom, List.drop_eq_nil_of_le (Nat.le_of_eq (length_shield none text)), cut,
    position_of_piece (Nat.le_refl _), List.reverse_reverse]
  by_cases hopen : 0 < depth
  · have hfault : faultAt? text text.length = some (.unclosedOpen, text.length) := by
      simp [faultAt?, hbehind, hdepth, hopen]
    rw [if_pos hopen, outcomeOver_fault hfault]
  · have hend : endsPiece text text.length := by simp [endsPiece]
    rw [if_neg hopen, outcomeOver_close hend (by simp [hbehind]) (by simp [hdepth, hopen])]
    rfl

/-- The scan stops at a closing bracket where none is open. -/
theorem scanFrom_unbalanced (hclose : standsBare text ')' k) :
    scanFrom text against offset 0 k = malformed .unbalancedClose against (offset + k) := by
  obtain ⟨hc, hbare⟩ : text[k]? = some ')' ∧ liesIn (quotationsFrom 0 text) k = false := by
    simpa [standsBare] using hclose
  have hlt := (List.getElem?_eq_some_iff.mp hc).1
  rw [scanFrom, drop_shield hc, cut, hbare, position_of_piece (Nat.le_of_lt hlt)]
  rfl

/-- At a separator the scan closes the piece and begins the next one. -/
theorem scanFrom_separator (hsep : isSeparator text k) :
    scanFrom text against offset 0 k = (do
      let fragment ← close against (pieceAt text k) (offset + pieceStart text k)
      let fragments ← scanFrom text against offset 0 (k + 1)
      return fragment :: fragments) := by
  obtain ⟨⟨hc, hbare⟩, -⟩ : (text[k]? = some ',' ∧ liesIn (quotationsFrom 0 text) k = false) ∧
      depthAt text k = 0 := by
    simpa [isSeparator, standsBare] using hsep
  have hlt := (List.getElem?_eq_some_iff.mp hc).1
  have hnext : offset + k + 1 = offset + (k + 1 : Nat) := by omega
  rw [scanFrom, scanFrom, drop_shield hc, cut, hbare, position_of_piece (Nat.le_of_lt hlt),
    List.reverse_reverse, pieceStart_succ, if_pos hsep, pieceAt_succ_of_isSeparator hsep, hnext]
  rfl

/-- Any other character becomes part of the piece, and brackets are counted. -/
theorem scanFrom_pass {depth depth' : Nat} (hk : k < text.length) (hsep : isSeparator text k = false)
    (hclose : ¬(standsBare text ')' k ∧ depthAt text k = 0)) (hdepth : depthAt text k = depth)
    (hdepth' : depthAt text (k + 1) = depth') :
    scanFrom text against offset depth k = scanFrom text against offset depth' (k + 1) := by
  obtain ⟨c, hc⟩ : ∃ c, text[k]? = some c := ⟨_, List.getElem?_eq_getElem hk⟩
  have hbare (d : Char) := standsBare_eq hc d
  have hstart : pieceStart text (k + 1) = pieceStart text k := by
    rw [pieceStart_succ, if_neg (by simp [hsep])]
  rw [depthAt_succ, hdepth] at hdepth'
  rw [scanFrom, scanFrom, drop_shield hc, cut, hstart, pieceAt_succ hc hsep, List.reverse_append,
    List.reverse_singleton, List.singleton_append]
  by_cases hquoted : liesIn (quotationsFrom 0 text) k
  · simp only [hbare, hquoted, Bool.not_true, Bool.and_false, Bool.false_eq_true, if_false] at hdepth'
    obtain rfl : depth = depth' := by omega
    rw [if_pos hquoted]
  simp only [isSeparator, hbare, hquoted, Bool.not_false, Bool.and_true, decide_eq_true_eq,
    hdepth] at hdepth' hclose hsep
  rw [if_neg hquoted]
  by_cases hopens : c = '('
  · obtain rfl : depth + 1 = depth' := by
      subst hopens
      simp at hdepth'
      omega
    rw [if_pos hopens]
  by_cases hcloses : c = ')'
  · obtain ⟨hpos, rfl⟩ : depth ≠ 0 ∧ depth - 1 = depth' := by
      subst hcloses
      simp at hdepth' hclose
      omega
    rw [if_neg hopens, if_pos hcloses, if_neg hpos]
  · obtain rfl : depth = depth' := by
      rw [if_neg hopens, if_neg hcloses] at hdepth'
      omega
    have hcomma : ¬(c = ',' && depth = 0) := by simpa using hsep
    rw [if_neg hopens, if_neg hcloses, if_neg hcomma]

/-- No more brackets are closed than are open, as long as none is closed where none is open. -/
theorem depthAt_succ_nonneg (h : 0 ≤ depthAt text k)
    (hclose : ¬(standsBare text ')' k ∧ depthAt text k = 0)) : 0 ≤ depthAt text (k + 1) := by
  rw [depthAt_succ]
  by_cases hbracket : standsBare text ')' k
  · have hne : depthAt text k ≠ 0 := fun hzero => hclose ⟨hbracket, hzero⟩
    rw [if_pos hbracket]
    split <;> omega
  · rw [if_neg hbracket]
    split <;> omega

/-- From every index on the scan comes to the outcome of the indices from there to the end. -/
theorem scanFrom_eq_outcomeOver {depth : Nat} (hk : k ≤ text.length)
    (hdepth : depthAt text k = depth) : scanFrom text against offset depth k =
      outcomeOver text against offset (List.range' k (text.length + 1 - k)) := by
  induction hn : text.length - k generalizing k depth with
  | zero =>
    obtain rfl : k = text.length := by omega
    rw [Nat.add_sub_cancel_left]
    exact scanFrom_length hdepth
  | succ n ih =>
    have hlt : k < text.length := by omega
    have hrange : text.length + 1 - k = text.length + 1 - (k + 1) + 1 := by omega
    rw [hrange, List.range'_succ]
    by_cases hclose : standsBare text ')' k ∧ depthAt text k = 0
    · obtain rfl : depth = 0 := by omega
      have hfault : faultAt? text k = some (.unbalancedClose, k) := by simp [faultAt?, hclose]
      rw [outcomeOver_fault hfault, scanFrom_unbalanced hclose.1]
    obtain ⟨depth', hdepth'⟩ := Int.eq_ofNat_of_zero_le (depthAt_succ_nonneg (by omega) hclose)
    have hrest := ih (by omega) hdepth' (by omega)
    by_cases hsep : isSeparator text k
    · have hend : endsPiece text k := by simp [endsPiece, hsep]
      obtain ⟨⟨hbare, -⟩, hzero⟩ : (text[k]? = some ',' ∧ _) ∧ depthAt text k = 0 := by
        simpa [isSeparator, standsBare] using hsep
      obtain rfl : depth = 0 := by omega
      obtain rfl : depth' = 0 := by
        rw [depthAt_succ, hzero, standsBare_eq hbare, standsBare_eq hbare] at hdepth'
        simpa using hdepth'.symm
      rw [outcomeOver_close hend hclose (by omega), scanFrom_separator hsep, hrest]
    · have hsep : isSeparator text k = false := Bool.not_eq_true _ ▸ hsep
      rw [outcomeOver_pass hlt hclose hsep, scanFrom_pass hlt hsep hclose hdepth hdepth', hrest]

/-- So cutting the whole text comes to the outcome of all its indices. -/
theorem cut_eq_outcomeOver (text against : List Char) (offset : Int) :
    cut against 0 offset [] (shield none text) =
      outcomeOver text against offset (List.range (text.length + 1)) := by
  have hscan := @scanFrom_eq_outcomeOver text against offset 0 0 (Nat.zero_le _) (depthAt_zero text)
  have hstart : pieceAt text 0 = [] := by simp [pieceAt]
  rw [scanFrom, pieceStart_zero, hstart, List.reverse_nil, List.drop_zero, Nat.sub_zero,
    ← List.range_eq_range'] at hscan
  simpa using hscan

/-- Pieces end at the separators and at the end of the text. -/
theorem filter_endsPiece (text : List Char) :
    (List.range (text.length + 1)).filter (endsPiece text) = separators text ++ [text.length] := by
  have hbefore : (List.range text.length).filter (endsPiece text) = separators text := by
    refine List.filter_congr fun i hi => ?_
    have hne : i ≠ text.length := Nat.ne_of_lt (List.mem_range.mp hi)
    simp [endsPiece, hne]
  have hend : endsPiece text text.length := by simp [endsPiece]
  rw [List.range_succ, List.filter_append, hbefore, List.filter_cons_of_pos hend, List.filter_nil]

/-- The characters of two texts in a row that are not blank. -/
theorem withoutBlanks_append (front back : List Char) :
    withoutBlanks (front ++ back) = withoutBlanks front ++ withoutBlanks back :=
  List.filter_append front back

/-- Nothing is left of blanks. -/
theorem withoutBlanks_of_allBlank {blanks : List Char} (h : allBlank blanks) :
    withoutBlanks blanks = [] :=
  List.filter_eq_nil_iff.mpr fun c hc => by simp [List.all_eq_true.mp h c hc]

/-- Of a text that is cut into pieces no more is lost than blanks and the commas between the pieces. -/
theorem Cuts.filter_eq {start : Int} {marked : List (Char × Bool)} {fragments : List Fragment}
    (h : Cuts start marked fragments) : withoutBlanks (marked.map Prod.fst) =
      [','].intercalate (fragments.map fun fragment => withoutBlanks fragment.text) := by
  have htrimmed {raw : List Char} {start : Int} {fragment : Fragment}
      (h : TrimmedFrom raw start fragment) : withoutBlanks raw = withoutBlanks fragment.text := by
    obtain ⟨before, after, hbefore, hafter, rfl, -⟩ := h.placed
    rw [withoutBlanks_append, withoutBlanks_append, withoutBlanks_of_allBlank hbefore,
      withoutBlanks_of_allBlank hafter, List.nil_append, List.append_nil]
  induction h with
  | last h => rw [htrimmed h, List.map_singleton, List.intercalate_singleton]
  | @more start piece rest fragment fragments h hrest ih =>
    have hcomma (rest : List Char) : withoutBlanks (',' :: rest) = ',' :: withoutBlanks rest :=
      List.filter_cons_of_pos (by decide)
    rw [List.map_append, withoutBlanks_append, htrimmed h, List.map_cons, hcomma, ih, List.map_cons]
    cases hrest with
    | last => rfl
    | more => simp [List.intercalate_cons_cons]

/-- Splitting a text gives what its indices say: the pieces between consecutive separators, or the first
fault. There is one argument more than there are separators, and all that is not blank is found in the
arguments again, the separators aside. -/
theorem split_eq_splitByIndex (text source : List Char) (offset : Int) :
    split text source offset = splitByIndex text source offset ∧
    ∀ fragments, allBlank text = false → split text source offset = .ok fragments →
      fragments.length = (separators text).length + 1 ∧
      withoutBlanks text =
        [','].intercalate (fragments.map fun fragment => withoutBlanks fragment.text) := by
  have heq : split text source offset = splitByIndex text source offset := by
    unfold split splitByIndex
    split
    · rfl
    · rw [cut_eq_outcomeOver, outcomeOver, filter_endsPiece]
  refine ⟨heq, fun fragments hblank hsplit => ⟨?_, ?_⟩⟩
  · rw [heq, splitByIndex, if_neg (by simp [hblank])] at hsplit
    split at hsplit
    · contradiction
    · rw [← Except.ok.inj hsplit, List.length_map, List.length_append, List.length_singleton]
  · have houtcome := cutOutcome_split source offset (by simp [hblank] : ¬allBlank text)
    rw [hsplit] at houtcome
    have hfilter := Cuts.filter_eq houtcome
    rwa [map_fst_shield] at hfilter

/-- A comma inside a string, one inside brackets and a quote without a partner separate nothing. -/
theorem split_lone_quote :
    allBlank " f(\"',(\", (x,y)) , 'z ".toList = false ∧
    split " f(\"',(\", (x,y)) , 'z ".toList [] 2 =
      .ok [⟨"f(\"',(\", (x,y))".toList, 3⟩, ⟨"'z".toList, 21⟩] ∧
    2 = (separators " f(\"',(\", (x,y)) , 'z ".toList).length + 1 := by
  have hblank : allBlank " f(\"',(\", (x,y)) , 'z ".toList = false := by decide
  have hsplit : split " f(\"',(\", (x,y)) , 'z ".toList [] 2 =
      .ok [⟨"f(\"',(\", (x,y))".toList, 3⟩, ⟨"'z".toList, 21⟩] := rfl
  exact ⟨hblank, hsplit, ((split_eq_splitByIndex _ _ _).2 _ hblank hsplit).1⟩

end Fragment

end DriverPolicy
