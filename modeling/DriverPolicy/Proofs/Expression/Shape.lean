import DriverPolicy.Expression.Literal
import DriverPolicy.Proofs.Text.Trim

/-!
# The outer shape of written calls

A call that is written as a name and a bracketed text, with blanks where blanks may stand, has
that name and that text for its outer shape; one that is written as a bare name has no text
between brackets. Nothing is asked of the text inside the brackets.

No other text has an outer shape. One that is not blank is at fault behind its lead, the longest
start that is made of blanks, name characters and blanks again.
-/

namespace DriverPolicy

/-- The characters of a name: at least one, and nothing but letters and points. -/
structure IsName (name : List Char) : Prop where
  nonempty : name ≠ []
  chars : ∀ c ∈ name, isNameChar c

instance (name : List Char) : Decidable (IsName name) :=
  decidable_of_iff (name ≠ [] ∧ name.all isNameChar)
    ⟨fun h => ⟨h.1, List.all_eq_true.mp h.2⟩, fun h => ⟨h.nonempty, List.all_eq_true.mpr h.chars⟩⟩

/-- A bare name is a name. -/
theorem IsName.of_isBareName {name : List Char} (h : isBareName name) : IsName name := by
  cases name with
  | nil => simp [isBareName] at h
  | cons c rest =>
    simp only [isBareName, Bool.and_eq_true, List.all_eq_true] at h
    refine ⟨List.cons_ne_nil c rest, fun d hd => ?_⟩
    rcases List.mem_cons.mp hd with rfl | hrest
    · simp [isNameChar, h.1]
    · exact h.2 d hrest

namespace IsName

variable {name : List Char}

/-- No character of a name is blank. -/
theorem solid (h : IsName name) : Solid name :=
  .of_all h.nonempty fun c hc => isBlank_of_isNameChar (h.chars c hc)

/-- A name ends where a character follows that cannot stand in one. -/
theorem takeWhile_append (h : IsName name) {rest : List Char}
    (hrest : ∀ c ∈ rest.head?, isNameChar c = false) :
    (name ++ rest).takeWhile isNameChar = name ∧ (name ++ rest).dropWhile isNameChar = rest :=
  skip_append h.chars hrest

end IsName

/-- A name cannot go on where blanks or a character of no name follows. -/
theorem isNameChar_head?_blank {gap rest : List Char} (hgap : allBlank gap)
    (hrest : ∀ c ∈ rest.head?, isNameChar c = false) :
    ∀ c ∈ (gap ++ rest).head?, isNameChar c = false := by
  intro c hc
  cases gap with
  | nil => exact hrest c hc
  | cons d gap =>
    obtain rfl : d = c := by simpa using hc
    exact isNameChar_of_isBlank (List.all_eq_true.mp hgap d List.mem_cons_self)

/-- A text of blanks, name characters and blanks again, any number of each. -/
inductive IsLead : List Char → Prop
  | intro {before name gap : List Char} (hbefore : allBlank before)
      (hname : ∀ c ∈ name, isNameChar c) (hgap : allBlank gap) :
      IsLead (before ++ (name ++ gap))

/-- The longest lead that a text starts with. -/
structure LongestLead (text lead : List Char) : Prop where
  starts : lead <+: text
  isLead : IsLead lead
  longest : ∀ other, other <+: text → IsLead other → other.length ≤ lead.length

namespace Head

/-- The text between brackets is all up to the last bracket, blanks behind it aside. -/
theorem bracketed?_eq (inside : List Char) {after : List Char} (hafter : allBlank after) :
    bracketed? ('(' :: (inside ++ ')' :: after)) = some inside := by
  have hreverse : (inside ++ ')' :: after).reverse.dropWhile isBlank = ')' :: inside.reverse := by
    rw [List.reverse_append, List.reverse_cons, List.append_assoc,
      dropWhile_blank_append (by rwa [allBlank_reverse])]
    exact List.dropWhile_cons_of_neg (by decide)
  simp only [bracketed?, hreverse, List.reverse_reverse]

variable {before name gap after : List Char}

/-- The outer shape of a call that is written with brackets. -/
theorem read_bracketed (hbefore : allBlank before) (hname : IsName name) (hgap : allBlank gap)
    (hafter : allBlank after) (inside source : List Char) (offset : Int) :
    read (before ++ (name ++ (gap ++ '(' :: (inside ++ ')' :: after)))) source offset =
      .ok ⟨name, inside, offset + (before.length + name.length + gap.length) + 1⟩ := by
  obtain ⟨rest, hrest⟩ : ∃ rest, rest = '(' :: (inside ++ ')' :: after) := ⟨_, rfl⟩
  rw [← hrest]
  have hstop : ∀ c ∈ (gap ++ rest).head?, isNameChar c = false :=
    isNameChar_head?_blank hgap fun c hc => by
      obtain rfl : '(' = c := by simpa [hrest] using hc
      decide
  obtain ⟨htake, hdrop⟩ := hname.takeWhile_append hstop
  have hunblanked : (before ++ (name ++ (gap ++ rest))).dropWhile isBlank =
      name ++ (gap ++ rest) := by
    rw [dropWhile_blank_append hbefore, hname.solid.dropWhile_blank]
  have hgapped : (gap ++ rest).dropWhile isBlank = rest := by
    rw [dropWhile_blank_append hgap]
    rw [hrest]
    exact List.dropWhile_cons_of_neg (by decide)
  have hblank : allBlank (before ++ (name ++ (gap ++ rest))) = false := by
    simp [allBlank_append, hname.solid.not_allBlank]
  have hlength : prefixLength (before ++ (name ++ (gap ++ rest))) =
      before.length + name.length + gap.length := by
    simp only [prefixLength, hunblanked, hdrop, hgapped, List.length_append]
    omega
  have hinside : bracketed? rest = some inside := hrest ▸ bracketed?_eq inside hafter
  simp only [read, hblank, hunblanked, htake, hdrop, hgapped, hinside, hlength]
  simp [hname.nonempty, hrest]

/-- The outer shape of a call that is written as a bare name. -/
theorem read_bare (hbefore : allBlank before) (hname : IsName name) (hafter : allBlank after)
    (source : List Char) (offset : Int) :
    read (before ++ (name ++ after)) source offset =
      .ok ⟨name, [], offset + (before ++ (name ++ after)).length⟩ := by
  have hstop : ∀ c ∈ after.head?, isNameChar c = false := by
    simpa using @isNameChar_head?_blank after [] hafter (by simp)
  obtain ⟨htake, hdrop⟩ := hname.takeWhile_append hstop
  have hunblanked : (before ++ (name ++ after)).dropWhile isBlank = name ++ after := by
    rw [dropWhile_blank_append hbefore, hname.solid.dropWhile_blank]
  have hblank : allBlank (before ++ (name ++ after)) = false := by
    simp [allBlank_append, hname.solid.not_allBlank]
  simp only [read, hblank, hunblanked, htake, hdrop, dropWhile_blank_eq_nil hafter]
  simp [hname.nonempty]

/-- The start of a text that is skipped with blanks, name characters and blanks again. -/
def lead (text : List Char) : List Char :=
  text.takeWhile isBlank ++ ((text.dropWhile isBlank).takeWhile isNameChar ++
    ((text.dropWhile isBlank).dropWhile isNameChar).takeWhile isBlank)

/-- What is left of a text behind its lead. -/
def behindLead (text : List Char) : List Char :=
  ((text.dropWhile isBlank).dropWhile isNameChar).dropWhile isBlank

/-- A text is its lead and what is left behind it. -/
theorem lead_append_behindLead (text : List Char) : lead text ++ behindLead text = text := by
  simp only [lead, behindLead, List.append_assoc, List.takeWhile_append_dropWhile]

/-- The lead has the length that `prefixLength` computes. -/
theorem length_lead (text : List Char) : (lead text).length = prefixLength text := by
  have hlength := congrArg List.length (lead_append_behindLead text)
  rw [List.length_append] at hlength
  change _ = text.length - (behindLead text).length
  omega

/-- No more is left of a text than what stands behind any lead that it starts with. -/
theorem length_behindLead_le {lead : List Char} (h : IsLead lead) (rest : List Char) :
    (behindLead (lead ++ rest)).length ≤ rest.length := by
  have hshrink (p : Char → Bool) (text : List Char) : (text.dropWhile p).length ≤ text.length :=
    (List.dropWhile_sublist p).length_le
  obtain ⟨hbefore, hname, hgap⟩ := h
  rename_i before name gap
  rw [behindLead, List.append_assoc, dropWhile_blank_append hbefore, List.append_assoc]
  cases name with
  | nil =>
    -- the blanks are all skipped at once, and then whatever may be skipped of the rest
    rw [List.nil_append, dropWhile_blank_append hgap]
    exact Nat.le_trans (hshrink _ _) (Nat.le_trans (hshrink _ _) (hshrink _ _))
  | cons c name =>
    have hc := isBlank_of_isNameChar (hname c List.mem_cons_self)
    rw [List.cons_append, List.dropWhile_cons_of_neg (by simp [hc]), ← List.cons_append,
      List.dropWhile_append_of_pos hname]
    cases gap with
    | nil => exact Nat.le_trans (hshrink _ _) (hshrink _ _)
    | cons d gap =>
      have hd := isNameChar_of_isBlank (List.all_eq_true.mp hgap d List.mem_cons_self)
      rw [List.cons_append, List.dropWhile_cons_of_neg (by simp [hd]), ← List.cons_append,
        dropWhile_blank_append hgap]
      exact hshrink _ _

/-- No start of a text that is a lead is longer than the one that is skipped. -/
theorem longestLead (text : List Char) : LongestLead text (lead text) where
  starts := ⟨behindLead text, lead_append_behindLead text⟩
  isLead :=
    .intro List.all_takeWhile (List.all_eq_true.mp List.all_takeWhile) List.all_takeWhile
  longest other hstarts hother := by
    obtain ⟨rest, htext⟩ := hstarts
    have hlength := congrArg List.length (htext.trans (lead_append_behindLead text).symm)
    have hrest := length_behindLead_le hother rest
    rw [htext] at hrest
    simp only [List.length_append] at hlength
    omega

/-- A text with brackets around another one. -/
theorem exists_of_bracketed? {text inside : List Char} (h : bracketed? text = some inside) :
    ∃ after, allBlank after ∧ text = '(' :: (inside ++ ')' :: after) := by
  unfold bracketed? at h
  split at h
  · next rest =>
    split at h
    · next front hfront =>
      obtain rfl := Option.some.inj h
      have hrest := congrArg List.reverse
        (@List.takeWhile_append_dropWhile _ isBlank rest.reverse)
      rw [hfront, List.reverse_append, List.reverse_cons, List.reverse_reverse,
        List.append_assoc, List.singleton_append] at hrest
      refine ⟨(rest.reverse.takeWhile isBlank).reverse, ?_, ?_⟩
      · rw [allBlank_reverse]
        exact List.all_takeWhile
      · exact congrArg _ hrest.symm
    · contradiction
  · contradiction

/-- The outer shape of a text: a name with blanks around it, or a name and, behind blanks, a text
between brackets that no more than blanks follow. -/
inductive Shows (text : List Char) (offset : Int) : Head → Prop
  | bare {before name after : List Char} (hbefore : allBlank before) (hname : IsName name)
      (hafter : allBlank after) (htext : before ++ (name ++ after) = text) :
      Shows text offset ⟨name, [], offset + text.length⟩
  | bracketed {before name gap inside after : List Char} (hbefore : allBlank before)
      (hname : IsName name) (hgap : allBlank gap) (hafter : allBlank after)
      (htext : before ++ (name ++ (gap ++ '(' :: (inside ++ ')' :: after))) = text) :
      Shows text offset ⟨name, inside, offset + (before.length + name.length + gap.length) + 1⟩

/-- Reading the outer shape of a text comes to what the text shows, or to a fault: the text is
blank, or it goes on behind its lead. -/
theorem read_cases (text source : List Char) (offset : Int) :
    (∃ head, read text source offset = .ok head ∧ Shows text offset head) ∨
      allBlank text ∧ read text source offset =
        malformed .emptyExpression (sourceOr source text) offset ∨
      behindLead text ≠ [] ∧ read text source offset =
        malformed (.notACall (String.ofList (trim text))) (sourceOr source text)
          (offset + (lead text).length) := by
  have hname : ∀ c ∈ (text.dropWhile isBlank).takeWhile isNameChar, isNameChar c :=
    List.all_eq_true.mp List.all_takeWhile
  have htext := lead_append_behindLead text
  have hlength := length_lead text
  by_cases hblank : allBlank text
  · exact Or.inr (Or.inl ⟨hblank, by simp [read, hblank]⟩)
  by_cases hnone : (text.dropWhile isBlank).takeWhile isNameChar = []
  · refine Or.inr (Or.inr ⟨fun hnil => ?_, by simp [read, hblank, hnone, hlength]⟩)
    -- without a name the lead is blank, and so is the text if nothing follows
    rw [hnil, List.append_nil, lead, hnone, List.nil_append] at htext
    rw [← htext, allBlank_append] at hblank
    exact hblank (by simp [allBlank])
  have hisName : IsName ((text.dropWhile isBlank).takeWhile isNameChar) := ⟨hnone, hname⟩
  rw [lead, List.length_append, List.length_append] at hlength
  cases hrest : behindLead text with
  | nil =>
    rw [hrest, List.append_nil, lead] at htext
    refine Or.inl ⟨_, ?_, .bare List.all_takeWhile hisName List.all_takeWhile htext⟩
    rw [behindLead] at hrest
    simp [read, hblank, hnone, hrest]
  | cons c rest =>
    cases hinside : bracketed? (c :: rest) with
    | none =>
      refine Or.inr (Or.inr ⟨List.cons_ne_nil c rest, ?_⟩)
      rw [behindLead] at hrest
      simp [read, hblank, hnone, hrest, hinside, length_lead]
    | some inside =>
      obtain ⟨after, hafter, hbehind⟩ := exists_of_bracketed? hinside
      rw [hrest, hbehind, lead, List.append_assoc, List.append_assoc] at htext
      refine Or.inl ⟨_, ?_, .bracketed List.all_takeWhile hisName List.all_takeWhile hafter htext⟩
      rw [behindLead] at hrest
      have hoffset : offset + ((text.takeWhile isBlank).length +
          ((text.dropWhile isBlank).takeWhile isNameChar).length +
          (((text.dropWhile isBlank).dropWhile isNameChar).takeWhile isBlank).length) + 1 =
          offset + prefixLength text + 1 := by omega
      rw [hoffset]
      simp [read, hblank, hnone, hrest, hinside]

/-- What a text shows is read as its outer shape, and nothing else is. -/
theorem read_eq_ok_iff {text source : List Char} {offset : Int} {head : Head} :
    read text source offset = .ok head ↔ Shows text offset head := by
  constructor
  · intro h
    rcases read_cases text source offset with ⟨shown, hread, hshows⟩ | ⟨-, hread⟩ | ⟨-, hread⟩
    · exact Except.ok.inj (hread.symm.trans h) ▸ hshows
    · exact absurd (hread.symm.trans h) (by simp [malformed])
    · exact absurd (hread.symm.trans h) (by simp [malformed])
  · rintro (⟨hbefore, hname, hafter, rfl⟩ | ⟨hbefore, hname, hgap, hafter, rfl⟩)
    · exact read_bare hbefore hname hafter source offset
    · exact read_bracketed hbefore hname hgap hafter _ source offset

end Head

end DriverPolicy
