import DriverPolicy.Proofs.Expression.Shape

/-!
# The parts of a call

A text is a call if it can be divided into blanks, a name and blanks, and, at will, a bracketed text
that blanks follow. There is no more than one such division, because no blank and no character of a name
is a bracket: the first opening bracket of the text and the last closing one are the brackets of the
division. The outer shape of a text is read off its division; a text that has none is blank or goes on
behind its longest lead.
-/

namespace DriverPolicy

/-- The parts of a call. -/
structure HeadParts where
  /-- The blanks before the name. -/
  before : List Char
  /-- The name. -/
  name : List Char
  /-- The blanks behind the name. -/
  gap : List Char
  /-- The text between the brackets and the blanks behind them, if there are brackets. -/
  bracketed? : Option (List Char × List Char)
deriving DecidableEq, Repr

namespace HeadParts

/-- What stands behind the name and the blanks there: nothing, or the brackets with their text. -/
def tail (parts : HeadParts) : List Char :=
  match parts.bracketed? with
  | none => []
  | some (inside, after) => '(' :: (inside ++ ')' :: after)

/-- A text is made of the parts of a call, each of its kind. -/
structure IsDivisionOf (parts : HeadParts) (text : List Char) : Prop where
  before_blank : allBlank parts.before
  isName : IsName parts.name
  gap_blank : allBlank parts.gap
  after_blank : ∀ inside after, parts.bracketed? = some (inside, after) → allBlank after
  text_eq : parts.before ++ (parts.name ++ (parts.gap ++ parts.tail)) = text

/-- The outer shape that parts have at an offset: without brackets the arguments are empty and stand at
the end of the text. -/
def head (parts : HeadParts) (offset : Int) : Head :=
  match parts.bracketed? with
  | none => ⟨parts.name, [], offset + (parts.before ++ (parts.name ++ parts.gap)).length⟩
  | some (inside, _) =>
    ⟨parts.name, inside, offset + ((parts.before ++ (parts.name ++ parts.gap)).length + 1)⟩

variable {parts other : HeadParts} {text : List Char}

/-- What stands behind the blanks that follow the name begins with no blank and no name character. -/
theorem head?_tail (parts : HeadParts) :
    ∀ c ∈ parts.tail.head?, isBlank c = false ∧ isNameChar c = false := by
  intro c hc
  unfold tail at hc
  split at hc
  · simp at hc
  · obtain rfl : '(' = c := by simpa using hc
    decide

namespace IsDivisionOf

/-- The parts are what is skipped of the text, one class of characters after the other. -/
theorem skipped (h : parts.IsDivisionOf text) :
    text.takeWhile isBlank = parts.before ∧
      (text.dropWhile isBlank).takeWhile isNameChar = parts.name ∧
      ((text.dropWhile isBlank).dropWhile isNameChar).takeWhile isBlank = parts.gap ∧
      Head.behindLead text = parts.tail := by
  have hstop : ∀ c ∈ (parts.gap ++ parts.tail).head?, isNameChar c = false :=
    isNameChar_head?_blank h.gap_blank fun c hc => (parts.head?_tail c hc).2
  have hname : ∀ c ∈ (parts.name ++ (parts.gap ++ parts.tail)).head?, isBlank c = false := by
    obtain ⟨d, rest, hfirst, hd⟩ := h.isName.solid.first
    simp [hfirst, hd]
  obtain ⟨hbefore, hunblanked⟩ := skip_append (List.all_eq_true.mp h.before_blank) hname
  obtain ⟨htake, hdrop⟩ := h.isName.takeWhile_append hstop
  obtain ⟨hgap, htail⟩ := skip_append (List.all_eq_true.mp h.gap_blank)
    fun c hc => (parts.head?_tail c hc).1
  rw [h.text_eq] at hbefore hunblanked
  rw [Head.behindLead, hbefore, hunblanked, htake, hdrop, hgap, htail]
  exact ⟨rfl, rfl, rfl, rfl⟩

/-- The brackets and what stands behind them are divided in one way. -/
theorem bracketed?_eq (h : parts.IsDivisionOf text) (hother : other.IsDivisionOf text)
    (htail : parts.tail = other.tail) : parts.bracketed? = other.bracketed? := by
  cases hparts : parts.bracketed? with
  | none =>
    cases hothers : other.bracketed? with
    | none => rfl
    | some _ => simp [tail, hparts, hothers] at htail
  | some bracketed =>
    obtain ⟨inside, after⟩ := bracketed
    cases hothers : other.bracketed? with
    | none => simp [tail, hparts, hothers] at htail
    | some bracketed' =>
      obtain ⟨inside', after'⟩ := bracketed'
      simp only [tail, hparts, hothers] at htail
      -- both texts between brackets are what is read as one
      have hread := Head.bracketed?_eq inside (h.after_blank inside after hparts)
      rw [htail, Head.bracketed?_eq inside' (hother.after_blank inside' after' hothers)] at hread
      obtain rfl := Option.some.inj hread
      obtain rfl : after = after' := by simpa using htail
      rfl

/-- A text is divided in no more than one way. -/
theorem unique (h : parts.IsDivisionOf text) (hother : other.IsDivisionOf text) : parts = other := by
  obtain ⟨hbefore, hname, hgap, htail⟩ := h.skipped
  obtain ⟨hbefore', hname', hgap', htail'⟩ := hother.skipped
  have hbracketed := h.bracketed?_eq hother (htail.symm.trans htail')
  cases parts
  cases other
  simp only [mk.injEq]
  exact ⟨hbefore.symm.trans hbefore', hname.symm.trans hname', hgap.symm.trans hgap', hbracketed⟩

/-- No bracket stands before the opening one or behind the closing one. -/
theorem outermost {inside after : List Char} (h : parts.IsDivisionOf text)
    (hbracketed : parts.bracketed? = some (inside, after)) :
    '(' ∉ parts.before ++ (parts.name ++ parts.gap) ∧ ')' ∉ after := by
  have hblank {blanks : List Char} (h : allBlank blanks) {c : Char} (hc : isBlank c = false) :
      c ∉ blanks := fun hmem => by simp [List.all_eq_true.mp h c hmem] at hc
  have hname : '(' ∉ parts.name := fun hmem => absurd (h.isName.chars _ hmem) (by decide)
  simp only [List.mem_append, not_or]
  exact ⟨⟨hblank h.before_blank (by decide), hname, hblank h.gap_blank (by decide)⟩,
    hblank (h.after_blank inside after hbracketed) (by decide)⟩

end IsDivisionOf

/-- What a text shows is the outer shape of its division. -/
theorem shows_iff {offset : Int} {shown : Head} : Head.Shows text offset shown ↔
    ∃ parts : HeadParts, parts.IsDivisionOf text ∧ parts.head offset = shown := by
  constructor
  · intro h
    cases h with
    | @bare before name after hbefore hname hafter htext =>
      refine ⟨⟨before, name, after, none⟩, ⟨hbefore, hname, hafter, by simp, ?_⟩, ?_⟩
      · simpa [tail] using htext
      · simp [head, ← htext]
    | @bracketed before name gap inside after hbefore hname hgap hafter htext =>
      refine ⟨⟨before, name, gap, some (inside, after)⟩, ⟨hbefore, hname, hgap, ?_, htext⟩, ?_⟩
      · rintro _ _ ⟨⟩
        exact hafter
      · simp only [head, List.length_append, Head.mk.injEq, true_and]
        omega
  · rintro ⟨⟨before, name, gap, bracketed⟩, h, rfl⟩
    obtain ⟨hbefore, hname, hgap, hafter, htext⟩ := h
    cases bracketed with
    | none =>
      simp only [tail, List.append_nil] at htext
      simp only [head, htext]
      exact .bare hbefore hname hgap htext
    | some bracketed =>
      obtain ⟨inside, after⟩ := bracketed
      have hstart : offset + ((before ++ (name ++ gap)).length + 1) =
          offset + (before.length + name.length + gap.length) + 1 := by
        simp only [List.length_append]
        omega
      simp only [head, hstart]
      exact .bracketed hbefore hname hgap (hafter inside after rfl) htext

end HeadParts

/-- Any two longest leads of a text have the same length. -/
theorem LongestLead.length_eq {text lead other : List Char} (h : LongestLead text lead)
    (hother : LongestLead text other) : lead.length = other.length :=
  Nat.le_antisymm (hother.longest lead h.starts h.isLead) (h.longest other hother.starts hother.isLead)

namespace Head

/-- What a text comes to when it is read for the outer shape of a call: the shape of its division, if it
has one; a fault at the offset, if it is blank; else a fault behind its longest lead, which is not the
whole text. -/
inductive ComesTo (text source : List Char) (offset : Int) : Except ReadingFault Head → Prop
  | divided {parts : HeadParts} (hparts : parts.IsDivisionOf text) :
      ComesTo text source offset (.ok (parts.head offset))
  | blank (hblank : allBlank text) :
      ComesTo text source offset (malformed .emptyExpression (sourceOr source text) offset)
  | elsewhere {lead : List Char} (hblank : allBlank text = false)
      (hnone : ∀ parts : HeadParts, ¬parts.IsDivisionOf text) (hlead : LongestLead text lead)
      (hshort : lead.length < text.length) :
      ComesTo text source offset (malformed (.notACall (String.ofList (trim text)))
        (sourceOr source text) (offset + lead.length))

variable {text source : List Char} {offset : Int}

/-- A text is read as nothing else than what it comes to. -/
theorem ComesTo.read_eq {outcome : Except ReadingFault Head}
    (h : ComesTo text source offset outcome) : read text source offset = outcome := by
  cases h with
  | divided hparts => exact read_eq_ok_iff.mpr (HeadParts.shows_iff.mpr ⟨_, hparts, rfl⟩)
  | blank hblank => simp [read, hblank]
  | @elsewhere lead hblank hnone hlead hshort =>
    rcases read_cases text source offset with ⟨shown, -, hshows⟩ | ⟨hall, -⟩ | ⟨-, hread⟩
    · obtain ⟨parts, hparts, -⟩ := HeadParts.shows_iff.mp hshows
      exact absurd hparts (hnone parts)
    · simp [hblank] at hall
    · rw [hread, hlead.length_eq (longestLead text)]

/-- A text comes to what it is read as. -/
theorem comesTo_read (text source : List Char) (offset : Int) :
    ComesTo text source offset (read text source offset) := by
  rcases read_cases text source offset with ⟨shown, hread, hshows⟩ | ⟨hblank, hread⟩ | ⟨hbehind, hread⟩
  · obtain ⟨parts, hparts, rfl⟩ := HeadParts.shows_iff.mp hshows
    exact hread ▸ .divided hparts
  · exact hread ▸ .blank hblank
  · have hnone (parts : HeadParts) : ¬parts.IsDivisionOf text := fun hparts => by
      simp [(ComesTo.divided hparts).read_eq, malformed] at hread
    have hblank : allBlank text = false := Bool.eq_false_iff.mpr fun hall => by
      simp [read, hall, malformed] at hread
    have hlength := congrArg List.length (lead_append_behindLead text)
    have hpositive := List.length_pos_iff.mpr hbehind
    rw [List.length_append] at hlength
    exact hread ▸ .elsewhere hblank hnone (longestLead text) (by omega)

/-- Reading the outer shape of a text gives what the text comes to and nothing else. A text is divided
in no more than one way. Without brackets the arguments are empty and stand at the end of the text. The
brackets are the first opening and the last closing one of the text, and the arguments are all that
stands between them, behind the first. -/
theorem read_eq_iff_comesTo (text source : List Char) (offset : Int) :
    (∀ outcome, read text source offset = outcome ↔ ComesTo text source offset outcome) ∧
    (∀ parts other : HeadParts, parts.IsDivisionOf text → other.IsDivisionOf text → parts = other) ∧
    ∀ parts : HeadParts, parts.IsDivisionOf text →
      (parts.bracketed? = none →
        read text source offset = .ok ⟨parts.name, [], offset + text.length⟩) ∧
      ∀ inside after, parts.bracketed? = some (inside, after) → ∃ front : List Char,
        '(' ∉ front ∧ ')' ∉ after ∧ text = front ++ '(' :: (inside ++ ')' :: after) ∧
        read text source offset = .ok ⟨parts.name, inside, offset + (front.length + 1)⟩ := by
  refine ⟨fun outcome => ⟨fun h => h ▸ comesTo_read text source offset, ComesTo.read_eq⟩,
    fun _ _ hparts hother => hparts.unique hother,
    fun parts hparts => ⟨fun hbare => ?_, fun inside after hbracketed => ?_⟩⟩
  · have htext := hparts.text_eq
    rw [HeadParts.tail, hbare, List.append_nil] at htext
    rw [(ComesTo.divided hparts).read_eq, HeadParts.head, hbare, htext]
  · obtain ⟨hfront, hafter⟩ := hparts.outermost hbracketed
    refine ⟨parts.before ++ (parts.name ++ parts.gap), hfront, hafter, ?_, ?_⟩
    · rw [← hparts.text_eq, HeadParts.tail, hbracketed]
      simp only [List.append_assoc]
    · rw [(ComesTo.divided hparts).read_eq, HeadParts.head, hbracketed]

/-- The first opening and the last closing bracket count, whatever stands between them. -/
theorem read_between_brackets :
    (⟨"\n".toList, "a.B".toList, " ".toList, some ("x)\n(\")".toList, " ".toList)⟩ :
      HeadParts).IsDivisionOf "\na.B (x)\n(\")) ".toList ∧
    read "\na.B (x)\n(\")) ".toList [] 0 = .ok ⟨"a.B".toList, "x)\n(\")".toList, 6⟩ := by
  have hdivision : (⟨"\n".toList, "a.B".toList, " ".toList, some ("x)\n(\")".toList, " ".toList)⟩ :
      HeadParts).IsDivisionOf "\na.B (x)\n(\")) ".toList :=
    ⟨by decide, by decide, by decide, by rintro _ _ ⟨⟩; decide, by decide⟩
  obtain ⟨front, -, -, htext, hread⟩ :=
    ((read_eq_iff_comesTo _ [] 0).2.2 _ hdivision).2 _ _ rfl
  obtain rfl : "\na.B ".toList = front := List.append_cancel_right htext
  exact ⟨hdivision, hread⟩

end Head

end DriverPolicy
