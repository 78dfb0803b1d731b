import DriverPolicy.Expression.Fragment
import DriverPolicy.Proofs.Attempt
import DriverPolicy.Proofs.Text.Trim

/-!
# Scanning arguments piece by piece

The scan that cuts arguments marks quotations and counts brackets. Some texts leave it as they
found it: their quotations are closed and their brackets are paired, so the scan passes over
them to what follows. Such texts can be put one after the other and between brackets, and a
quotation is one of them whatever it holds. The scan therefore cuts a list of such texts, with
commas between them, at these commas only.
-/

namespace DriverPolicy

/-- Whether a character means nothing to the scan: no quote, no bracket and no comma. -/
def isOrdinary (c : Char) : Bool := !isQuote c && c ≠ '(' && c ≠ ')' && c ≠ ','

/-- No quote is a blank. -/
theorem isQuote_of_isBlank {c : Char} (h : isBlank c) : isQuote c = false :=
  of_isBlank (p := fun c => isQuote c = false) (by decide) h

/-- No blank is a quote. -/
theorem isBlank_of_isQuote {c : Char} (h : isQuote c) : isBlank c = false :=
  Bool.eq_false_iff.mpr fun hblank => by simp [isQuote_of_isBlank hblank] at h

/-- Every blank is ordinary. -/
theorem isOrdinary_of_isBlank {c : Char} (h : isBlank c) : isOrdinary c :=
  of_isBlank (p := fun c => isOrdinary c = true) (by decide) h

/-- So is each of several blanks. -/
theorem isOrdinary_of_allBlank {blanks : List Char} (h : allBlank blanks) :
    ∀ c ∈ blanks, isOrdinary c :=
  fun c hc => isOrdinary_of_isBlank (List.all_eq_true.mp h c hc)

/-- Every name character is ordinary. -/
theorem isOrdinary_of_isNameChar {c : Char} (h : isNameChar c) : isOrdinary c := by
  rcases Bool.or_eq_true _ _ ▸ h with hletter | hpoint
  · exact of_isLetter (p := fun c => isOrdinary c = true) (by decide) hletter
  · rw [beq_iff_eq.mp hpoint]
    decide

/-- Every digit is ordinary. -/
theorem isOrdinary_of_isDigit {c : Char} (h : isDigit c) : isOrdinary c := by
  have hne (d : Char) (hd : isDigit d = false) : c ≠ d := by
    rintro rfl
    simp [hd] at h
  simp [isOrdinary, isQuote, hne '"' (by decide), hne '\'' (by decide), hne '(' (by decide),
    hne ')' (by decide), hne ',' (by decide)]

/-- An ordinary character is no quote. -/
theorem isQuote_of_isOrdinary {c : Char} (h : isOrdinary c) : isQuote c = false := by
  simp only [isOrdinary, Bool.and_eq_true, Bool.not_eq_true'] at h
  exact h.1.1.1

namespace Fragment

/-- There is nothing to mark in the empty text. -/
theorem shield_nil (open? : Option Char) : shield open? [] = [] := by
  simp [shield]

/-- Marking keeps the characters. -/
theorem map_fst_shield (open? : Option Char) (text : List Char) :
    (shield open? text).map Prod.fst = text := by
  induction text generalizing open? with
  | nil => rw [shield_nil, List.map_nil]
  | cons c rest ih =>
    unfold shield
    split
    · rw [List.map_cons, ih]
    · split <;> rw [List.map_cons, ih]

/-- A character that opens no quotation is marked as such. -/
theorem shield_cons_of_not_isQuote {c : Char} (h : isQuote c = false) (rest : List Char) :
    shield none (c :: rest) = (c, false) :: shield none rest := by
  simp [shield, h]

/-- Inside a quotation all is quoted up to the closing quote. -/
theorem shield_some_append {quote : Char} {content : List Char} (h : quote ∉ content)
    (rest : List Char) : shield (some quote) (content ++ quote :: rest) =
      (content ++ [quote]).map (·, true) ++ shield none rest := by
  induction content with
  | nil => simp [shield]
  | cons c content ih =>
    simp only [List.mem_cons, not_or] at h
    simp [shield, Ne.symm h.1, ih h.2]

/-- A quotation is marked as one. -/
theorem shield_quotation {quote : Char} (hquote : isQuote quote) {content : List Char}
    (h : quote ∉ content) (rest : List Char) :
    shield none (quote :: content ++ quote :: rest) =
      (quote :: content ++ [quote]).map (·, true) ++ shield none rest := by
  rw [List.cons_append, shield]
  simp [hquote, shield_some_append h]

/-- A text is marked the same whatever follows, if no quote that has no partner in the text finds one
behind it. `open?` has its partner in the text. -/
theorem shield_append {open? : Option Char} {text rest : List Char}
    (hopen : ∀ quote ∈ open?, quote ∈ text)
    (h : ∀ c, (c, false) ∈ shield open? text → isQuote c → c ∉ rest) :
    shield open? (text ++ rest) = shield open? text ++ shield none rest := by
  induction text generalizing open? with
  | nil =>
    cases open? with
    | none => rfl
    | some quote => exact absurd (hopen quote rfl) List.not_mem_nil
  | cons c text ih =>
    rw [List.cons_append]
    cases open? with
    | some quote =>
      simp only [shield, List.mem_cons, Prod.mk.injEq, Bool.false_eq_true, and_false, false_or] at h ⊢
      split at h
      · next hclose => rw [if_pos hclose, ih (by simp) h, List.cons_append]
      · next hclose =>
        -- the quotation goes on, and the quote that ends it is still to come
        have hmem : quote ∈ text := (List.mem_cons.mp (hopen quote rfl)).resolve_left (Ne.symm hclose)
        rw [if_neg hclose, ih (by simpa using hmem) h, List.cons_append]
    | none =>
      by_cases hquotation : isQuote c && text.contains c
      · obtain ⟨hquote, hmem⟩ := Bool.and_eq_true_iff.mp hquotation
        have hlonger : isQuote c && (text ++ rest).contains c := by
          rw [hquote, List.contains_append, hmem]
          rfl
        simp only [shield, hquotation, hlonger, ↓reduceIte, List.mem_cons, Prod.mk.injEq,
          Bool.false_eq_true, and_false, false_or] at h ⊢
        rw [ih (by simpa using hmem) h, List.cons_append]
      · simp only [shield, hquotation, Bool.false_eq_true, ↓reduceIte, List.mem_cons] at h ⊢
        have hlonger : ¬(isQuote c && (text ++ rest).contains c) := by
          -- a quote that has no partner in the text has none behind it either
          intro hboth
          obtain ⟨hquote, hmem⟩ := Bool.and_eq_true_iff.mp hboth
          rw [hquote, Bool.true_and] at hquotation
          rw [List.contains_append, Bool.or_eq_true] at hmem
          exact h c (Or.inl rfl) hquote (List.contains_iff_mem.mp (hmem.resolve_left hquotation))
        rw [if_neg hlonger, ih (by simp) fun d hd => h d (Or.inr hd), List.cons_append]

/-- Whether every quote of a text belongs to a quotation. -/
def QuotesPaired (text : List Char) : Prop := ∀ m ∈ shield none text, isQuote m.1 → m.2

instance (text : List Char) : Decidable (QuotesPaired text) :=
  inferInstanceAs (Decidable (∀ m ∈ shield none text, isQuote m.1 → m.2))

/-- A text without quotes is marked the same whatever follows. -/
theorem shield_append_of_unquoted {text : List Char} (h : ∀ c ∈ text, isQuote c = false)
    (rest : List Char) : shield none (text ++ rest) = shield none text ++ shield none rest := by
  refine shield_append (by simp) fun c hc hquote => ?_
  have hmem : c ∈ text := by
    rw [← map_fst_shield none text]
    exact List.mem_map_of_mem hc
  simp [h c hmem] at hquote

namespace QuotesPaired

variable {text : List Char}

/-- Such a text is marked the same whatever follows. -/
theorem shield_append (h : QuotesPaired text) (rest : List Char) :
    shield none (text ++ rest) = shield none text ++ shield none rest :=
  Fragment.shield_append (by simp) fun _ hc hquote => absurd (h _ hc hquote) Bool.false_ne_true

/-- What stands between texts without quotes has its quotes paired if the whole has. -/
theorem of_between {before after : List Char} (h : QuotesPaired (before ++ (text ++ after)))
    (hbefore : ∀ c ∈ before, isQuote c = false) (hafter : ∀ c ∈ after, isQuote c = false) :
    QuotesPaired text := by
  have hmarked : shield none (text ++ after) = shield none text ++ shield none after := by
    refine Fragment.shield_append (by simp) fun c _ hquote hmem => ?_
    simp [hafter c hmem] at hquote
  rw [QuotesPaired, shield_append_of_unquoted hbefore, hmarked] at h
  exact fun m hm => h m (List.mem_append_right _ (List.mem_append_left _ hm))

end QuotesPaired

/-- Quoted characters belong to the piece that is being read. -/
theorem cut_quoted (source : List Char) (depth : Nat) (start : Int) (piece text : List Char)
    (rest : List (Char × Bool)) :
    cut source depth start piece (text.map (·, true) ++ rest) =
      cut source depth start (text.reverse ++ piece) rest := by
  induction text generalizing piece with
  | nil => rfl
  | cons c text ih => simp [cut, ih]

/-- An ordinary character belongs to the piece that is being read. -/
theorem cut_ordinary {c : Char} (h : isOrdinary c) (source : List Char) (depth : Nat) (start : Int)
    (piece : List Char) (rest : List (Char × Bool)) :
    cut source depth start piece ((c, false) :: rest) =
      cut source depth start (c :: piece) rest := by
  simp only [isOrdinary, Bool.and_eq_true, decide_eq_true_eq] at h
  simp [cut, h]

/-- Inside further brackets, characters that can be cut to the end belong to the piece that is being
read, and the brackets open in front of them are closed behind them. -/
theorem cut_inside_of_cut {source : List Char} {depth : Nat} {start : Int} {piece : List Char}
    {marked : List (Char × Bool)} {fragments : List Fragment}
    (h : cut source depth start piece marked = .ok fragments) (outside : Nat)
    (source' : List Char) (start' : Int) (piece' : List Char) (rest : List (Char × Bool)) :
    cut source' (depth + (outside + 1)) start' piece' (marked ++ rest) =
      cut source' (outside + 1) start' ((marked.map Prod.fst).reverse ++ piece') rest := by
  induction marked generalizing depth start piece piece' fragments with
  | nil =>
    unfold cut at h
    split at h
    · contradiction
    · next hdepth =>
      obtain rfl : depth = 0 := by omega
      simp
  | cons m marked ih =>
    obtain ⟨c, isQuoted⟩ := m
    have hpiece : ((c, isQuoted) :: marked).map Prod.fst = c :: marked.map Prod.fst := rfl
    rw [hpiece, List.reverse_cons, List.append_assoc, List.singleton_append, List.cons_append, cut]
    unfold cut at h
    split at h
    · next hquoted => rw [if_pos hquoted, ih h]
    · next hquoted =>
      rw [if_neg hquoted]
      split at h
      · next hopen => rw [if_pos hopen, Nat.add_right_comm, ih h]
      · next hopen =>
        rw [if_neg hopen]
        split at h
        · next hclose =>
          split at h
          · contradiction
          · next hdepth =>
            have hinside : depth + (outside + 1) - 1 = depth - 1 + (outside + 1) := by omega
            rw [if_pos hclose, if_neg (by omega), hinside, ih h]
        · next hclose =>
          have hdeep : ¬(c = ',' && depth + (outside + 1) = 0) := by simp
          rw [if_neg hclose, if_neg hdeep]
          split at h
          · next hcomma =>
            -- a comma that ends a piece outside further brackets is one of the piece inside them
            obtain ⟨-, rfl⟩ : c = ',' ∧ depth = 0 := by simpa using hcomma
            obtain ⟨_, -, hrest⟩ := bind_eq_ok_iff.mp h
            obtain ⟨_, hrest, -⟩ := bind_eq_ok_iff.mp hrest
            rw [ih hrest]
          · exact ih h _

/-- A text that leaves the scan as it found it: its quotations are closed, and `depth` brackets
are open behind it as they are before it. -/
structure Level (depth : Nat) (text : List Char) : Prop where
  settled : ∀ rest, shield none (text ++ rest) = shield none text ++ shield none rest
  passed : ∀ (source : List Char) (start : Int) (piece : List Char) (rest : List (Char × Bool)),
    cut source depth start piece (shield none text ++ rest) =
      cut source depth start (text.reverse ++ piece) rest

namespace Level

variable {depth : Nat} {text : List Char}

/-- The empty text leaves the scan as it found it. -/
theorem nil : Level depth [] := ⟨fun _ => rfl, fun _ _ _ _ => rfl⟩

/-- Two such texts in a row are one. -/
theorem append {front back : List Char} (hfront : Level depth front) (hback : Level depth back) :
    Level depth (front ++ back) where
  settled rest := by
    rw [List.append_assoc, hfront.settled, hback.settled, hfront.settled, List.append_assoc]
  passed source start piece rest := by
    rw [hfront.settled, List.append_assoc, hfront.passed, hback.passed, List.reverse_append,
      List.append_assoc]

/-- So is an ordinary character. -/
theorem ordinary {c : Char} (h : isOrdinary c) : Level depth [c] := by
  have hquote : isQuote c = false := isQuote_of_isOrdinary h
  constructor
  · intro rest
    simp only [List.cons_append, List.nil_append, shield_cons_of_not_isQuote hquote, shield_nil]
  · intro source start piece rest
    rw [shield_cons_of_not_isQuote hquote]
    exact cut_ordinary h source depth start piece rest

/-- So is a text of ordinary characters. -/
theorem of_all (h : ∀ c ∈ text, isOrdinary c) : Level depth text := by
  induction text with
  | nil => exact nil
  | cons c text ih =>
    exact (ordinary (h c List.mem_cons_self)).append
      (ih fun d hd => h d (List.mem_cons_of_mem c hd))

/-- So are blanks. -/
theorem of_allBlank (h : allBlank text) : Level depth text :=
  of_all fun c hc => isOrdinary_of_isBlank (List.all_eq_true.mp h c hc)

/-- So is such a text with blanks around it. -/
theorem pad {before after : List Char} (h : Level depth text) (hbefore : allBlank before)
    (hafter : allBlank after) : Level depth (before ++ text ++ after) :=
  ((of_allBlank hbefore).append h).append (of_allBlank hafter)

/-- So is a quotation, whatever it holds besides its quote. -/
theorem quotation {quote : Char} (hquote : isQuote quote) {content : List Char}
    (h : quote ∉ content) : Level depth (quote :: content ++ [quote]) := by
  have hmarked := shield_quotation hquote h []
  rw [shield_nil, List.append_nil] at hmarked
  constructor
  · intro rest
    rw [hmarked, List.append_assoc]
    exact shield_quotation hquote h rest
  · intro source start piece rest
    rw [hmarked, cut_quoted]

/-- Inside brackets, so is a comma. -/
theorem comma : Level (depth + 1) [','] := by
  constructor
  · intro rest
    simp [shield, isQuote]
  · intro source start piece rest
    simp [shield, isQuote, cut]

/-- So are brackets around a text that leaves the scan as it found it inside them. -/
theorem bracketed {inside : List Char} (h : Level (depth + 1) inside) :
    Level depth ('(' :: inside ++ [')']) := by
  have hopen (rest : List Char) : shield none ('(' :: rest) = ('(', false) :: shield none rest :=
    shield_cons_of_not_isQuote (by decide) rest
  have hclose (rest : List Char) : shield none (')' :: rest) = (')', false) :: shield none rest :=
    shield_cons_of_not_isQuote (by decide) rest
  constructor
  · intro rest
    simp only [List.cons_append, List.append_assoc, List.nil_append, hopen, hclose, h.settled,
      shield_nil]
  · intro source start piece rest
    simp only [List.cons_append, hopen, h.settled, hclose, List.append_assoc, shield_nil]
    simp [cut, h.passed]

/-- So is a text that is split on its own, once it stands inside brackets, if its quotes are paired. -/
theorem of_split {source : List Char} {offset : Int} {fragments : List Fragment}
    (hpaired : QuotesPaired text) (hsplit : split text source offset = .ok fragments) :
    Level (depth + 1) text := by
  unfold split at hsplit
  split at hsplit
  · next hblank => exact of_allBlank hblank
  · refine ⟨hpaired.shield_append, fun source' start piece rest => ?_⟩
    have hinside := cut_inside_of_cut hsplit depth source' start piece rest
    rwa [Nat.zero_add, map_fst_shield] at hinside

/-- What is left when a text is the last piece: the piece is closed. -/
theorem cut_last (h : Level 0 text) (source : List Char) (start : Int) :
    cut source 0 start [] (shield none text) = (do
      let last ← close source text start
      return [last]) := by
  have hpassed := h.passed source start [] []
  rw [List.append_nil, List.append_nil] at hpassed
  rw [hpassed, cut, List.reverse_reverse]
  rfl

/-- What is left when a comma follows a text: the piece is closed and the next one begins. -/
theorem cut_comma (h : Level 0 text) (source : List Char) (start : Int) (rest : List Char) :
    cut source 0 start [] (shield none (text ++ ',' :: rest)) = (do
      let fragment ← close source text start
      let fragments ← cut source 0 (start + text.length + 1) [] (shield none rest)
      return fragment :: fragments) := by
  rw [h.settled, h.passed, List.append_nil, shield_cons_of_not_isQuote (by decide)]
  simp [cut]

end Level

/-- A piece with blanks around a solid text is closed as the solid text. -/
theorem close_solid {text before after : List Char} (h : Solid text) (hbefore : allBlank before)
    (hafter : allBlank after) (source : List Char) (position : Int) :
    close source (before ++ text ++ after) position = .ok ⟨text, position + before.length⟩ := by
  have hblank : allBlank (before ++ text ++ after) = false := by
    simp [allBlank_append, h.not_allBlank]
  rw [close, ofRaw?, hblank, h.trim_eq hbefore hafter, h.takeWhile_blank hbefore]
  rfl

/-- A solid text that leaves the scan as it found it is the only argument. -/
theorem split_solid {text : List Char} (hlevel : Level 0 text) (h : Solid text)
    (source : List Char) (offset : Int) : split text source offset = .ok [⟨text, offset⟩] := by
  have hclose := close_solid h allBlank_nil allBlank_nil (Head.sourceOr source text) offset
  rw [List.nil_append, List.append_nil] at hclose
  rw [split, if_neg (by simp [h.not_allBlank]), hlevel.cut_last, hclose]
  simp

end Fragment

end DriverPolicy
