import DriverPolicy.Proofs.Expression.Elsewhere
import DriverPolicy.Proofs.Expression.Rendering

/-!
# Calls of accepted texts

Texts that read as calls on their own can be put between brackets, with commas between them, and
read as the arguments of a call. The scan of the whole passes over each of them, because what could
be split on its own has its brackets paired, and quotes that have their partners in one text look
for none in the next. Each text is then read as it is alone: neither its position nor the
expression that it stands in has a part in what it means.

Two kinds of text are excepted. A quote without a partner may find one in the next text, and a bare
name that begins with a point is no call among arguments.
-/

namespace DriverPolicy

/-- Two outcomes have the same value, or both are faults. -/
abbrev SameValue {α : Type} (x y : Except ReadingFault α) : Prop :=
  Correspond Eq (fun _ _ => True) x y

/-- Two outcomes are outer shapes with the same name and the same text between the brackets, or both
are faults. -/
abbrev SameShape (x y : Except ReadingFault Head) : Prop :=
  Correspond (fun a b => a.name = b.name ∧ a.arguments = b.arguments) (fun _ _ => True) x y

/-- Texts of the same outer shape mean the same call wherever they stand. -/
theorem Call.meaning_of_sameShape {text text' source source' : List Char} {offset offset' : Int}
    (h : SameShape (Head.read text source offset) (Head.read text' source' offset')) :
    SameValue (meaning source text offset) (meaning source' text' offset') := by
  rw [meaning_eq, meaning_eq]
  refine h.bind fun head head' _ _ ⟨hname, harguments⟩ => ?_
  obtain ⟨distance, hoffset⟩ : ∃ distance, head'.offset = head.offset - distance :=
    ⟨head.offset - head'.offset, by omega⟩
  rw [← harguments, ← hname, hoffset]
  have hmeaning : SameMoved distance
      (Fragment.split head.arguments source head.offset >>= List.mapM (Argument.meaning source))
      (Fragment.split head.arguments source' (head.offset - distance) >>=
        List.mapM (Argument.meaning source')) := by
    refine (Fragment.split_moved ..).bind fun fragments _ _ _ hmoved => ?_
    subst hmoved
    exact Argument.mapM_meaning_moved fun fragment _ => meaning_moved ..
  rw [← bind_assoc, ← bind_assoc]
  refine (hmeaning.mono (fun _ _ => id) fun _ _ _ => trivial).bind fun arguments _ _ _ hsame => ?_
  exact .ok (hsame ▸ rfl)

namespace Head.Shows

variable {text before name gap inside after : List Char} {offset : Int} {head : Head}

/-- A bare name is what is left without the blanks around it. -/
theorem trim_bare (hbefore : allBlank before) (hname : IsName name) (hafter : allBlank after) :
    trim (before ++ (name ++ after)) = name := by
  rw [← List.append_assoc]
  exact hname.solid.trim_eq hbefore hafter

/-- So is a call with brackets. -/
theorem trim_bracketed (hbefore : allBlank before) (hname : IsName name) (hafter : allBlank after) :
    trim (before ++ (name ++ (gap ++ '(' :: (inside ++ ')' :: after)))) =
      name ++ (gap ++ '(' :: (inside ++ [')'])) := by
  have hsolid : Solid (name ++ (gap ++ '(' :: (inside ++ [')']))) := by
    simpa using hname.solid.append (gap ++ '(' :: inside) (.singleton (by decide))
  simpa using hsolid.trim_eq hbefore hafter

/-- Without the blanks around it a text shows the same name and arguments. -/
theorem read_trim (h : Head.Shows text offset head) (source source' : List Char) (offset' : Int) :
    SameShape (Head.read text source offset) (Head.read (trim text) source' offset') := by
  cases h with
  | @bare before name after hbefore hname hafter htext =>
    subst htext
    have hbare := Head.read_bare allBlank_nil hname allBlank_nil source' offset'
    rw [List.nil_append, List.append_nil] at hbare
    rw [trim_bare hbefore hname hafter, hbare, Head.read_bare hbefore hname hafter]
    exact .ok ⟨rfl, rfl⟩
  | @bracketed before name gap inside after hbefore hname hgap hafter htext =>
    subst htext
    have hbracketed := Head.read_bracketed allBlank_nil hname hgap allBlank_nil inside source' offset'
    rw [List.nil_append] at hbracketed
    rw [trim_bracketed hbefore hname hafter, hbracketed,
      Head.read_bracketed hbefore hname hgap hafter]
    exact .ok ⟨rfl, rfl⟩

/-- Among arguments it is a nested call, unless it is a bare name that begins with a point. -/
theorem isCallFragment_trim (h : Head.Shows text offset head)
    (hpoint : ¬(IsName (trim text) ∧ (trim text).head? = some '.')) :
    isCallFragment (trim text) := by
  cases h with
  | @bare before name after hbefore hname hafter htext =>
    rw [← htext, trim_bare hbefore hname hafter] at hpoint ⊢
    obtain ⟨c, rest, rfl⟩ := List.exists_cons_of_ne_nil hname.nonempty
    have hletter : isLetter c := by
      have hchar := hname.chars c List.mem_cons_self
      have hne : c ≠ '.' := fun hc => hpoint ⟨hname, by rw [hc]; rfl⟩
      simpa [isNameChar, hne] using hchar
    have hrest : rest.all isNameChar :=
      List.all_eq_true.mpr fun d hd => hname.chars d (List.mem_cons_of_mem c hd)
    simp [isCallFragment, isBareName, hletter, hrest]
  | bracketed hbefore hname hgap hafter htext =>
    rw [← htext, trim_bracketed hbefore hname hafter]
    exact hname.isCallFragment_append (by simp)

/-- The scan passes over it, if its quotes are paired and its arguments can be split. -/
theorem level (h : Head.Shows text offset head) (hpaired : Fragment.QuotesPaired text)
    {source : List Char} {fragments : List Fragment}
    (hsplit : Fragment.split head.arguments source head.offset = .ok fragments) :
    Fragment.Level 0 text := by
  cases h with
  | bare hbefore hname hafter htext =>
    have hlevel := (hname.level 0).pad hbefore hafter
    rwa [List.append_assoc, htext] at hlevel
  | @bracketed before name gap inside after hbefore hname hgap hafter htext =>
    have hunquoted {blanks : List Char} (hblanks : allBlank blanks) : ∀ c ∈ blanks, isQuote c = false :=
      fun c hc => isQuote_of_isBlank (List.all_eq_true.mp hblanks c hc)
    have hfront : ∀ c ∈ before ++ (name ++ (gap ++ ['('])), isQuote c = false := by
      simp only [List.mem_append, List.mem_singleton]
      rintro c (hc | hc | hc | rfl)
      · exact hunquoted hbefore c hc
      · exact isQuote_of_isOrdinary (isOrdinary_of_isNameChar (hname.chars c hc))
      · exact hunquoted hgap c hc
      · decide
    have hback : ∀ c ∈ ')' :: after, isQuote c = false :=
      List.forall_mem_cons.mpr ⟨by decide, hunquoted hafter⟩
    have hinside : Fragment.QuotesPaired inside := by
      refine Fragment.QuotesPaired.of_between ?_ hfront hback
      simpa [← htext] using hpaired
    have hlevel := (Fragment.Level.of_allBlank hbefore).append ((hname.level 0).append
      ((Fragment.Level.of_allBlank hgap).append ((Fragment.Level.of_split hinside hsplit).bracketed.append
        (.of_allBlank hafter))))
    simpa [← htext] using hlevel

end Head.Shows

/-- What makes a text an argument that means a call: the scan of arguments passes over it, it is not
blank, and without the blanks around it it means the call. -/
structure Composes (text : List Char) (call : Call) : Prop where
  level : Fragment.Level 0 text
  not_blank : allBlank text = false
  means (source : List Char) (position : Int) :
    Argument.meaning source ⟨trim text, position⟩ = .ok call.toArgument

namespace Composes

/-- A text that means a call on its own means it as an argument, if its quotes are paired and it is
not a bare name that begins with a point. -/
theorem of_meaning {text source : List Char} {offset : Int} {call : Call}
    (h : Call.meaning source text offset = .ok call) (hpaired : Fragment.QuotesPaired text)
    (hpoint : ¬(IsName (trim text) ∧ (trim text).head? = some '.')) : Composes text call := by
  rw [Call.meaning_eq] at h
  obtain ⟨head, hhead, hrest⟩ := bind_eq_ok_iff.mp h
  obtain ⟨fragments, hsplit, -⟩ := bind_eq_ok_iff.mp hrest
  rw [← Call.meaning_eq] at h
  have hshows := Head.read_eq_ok_iff.mp hhead
  refine ⟨hshows.level hpaired hsplit, ?_, fun source' position => ?_⟩
  · rw [← Bool.not_eq_true]
    intro hblank
    simp [Head.read, hblank, malformed] at hhead
  · have hmeaning := Call.meaning_of_sameShape (hshows.read_trim source source' position)
    rw [h] at hmeaning
    obtain ⟨other, hother, rfl⟩ := hmeaning.exists_of_ok
    rw [Argument.meaning, Argument.readWith, if_pos (hshows.isCallFragment_trim hpoint), hother]
    rfl

/-- A text that is not blank is closed as itself without the blanks around it. -/
theorem close_eq {text : List Char} {call : Call} (h : Composes text call) (source : List Char)
    (position : Int) : Fragment.close source text position =
      .ok ⟨trim text, position + (text.takeWhile isBlank).length⟩ := by
  rw [Fragment.close, Fragment.ofRaw?, if_neg (by simp [h.not_blank])]

variable {texts : List (List Char)} {calls : List Call}

/-- Such texts with commas between them are cut into arguments that mean their calls. -/
theorem cut_eq (h : List.Forall₂ Composes texts calls) (hne : texts ≠ []) (source against : List Char)
    (start : Int) : ∃ fragments,
      Fragment.cut against 0 start [] (shield none ([','].intercalate texts)) = .ok fragments ∧
        fragments.mapM (Argument.meaning source) = .ok (calls.map Call.toArgument) := by
  induction h generalizing start with
  | nil => exact absurd rfl hne
  | @cons text call texts calls hfirst hrest ih =>
    cases hrest with
    | nil =>
      refine ⟨[⟨trim text, start + (text.takeWhile isBlank).length⟩], ?_, ?_⟩
      · rw [List.intercalate_singleton, hfirst.level.cut_last, hfirst.close_eq]
        rfl
      · simp [hfirst.means source]
    | @cons next _ rest _ hnext hrest =>
      obtain ⟨fragments, hcut, hmeaning⟩ := ih (List.cons_ne_nil _ _) (start + text.length + 1)
      refine ⟨⟨trim text, start + (text.takeWhile isBlank).length⟩ :: fragments, ?_, ?_⟩
      · rw [List.intercalate_cons_cons, List.append_assoc, List.singleton_append,
          hfirst.level.cut_comma, hfirst.close_eq, ok_bind, hcut]
        rfl
      · simp [hfirst.means source, hmeaning]

/-- So is the text between the brackets of a call that is made of them. -/
theorem split_eq (h : List.Forall₂ Composes texts calls) (source : List Char) (offset : Int) :
    ∃ fragments, Fragment.split ([','].intercalate texts) source offset = .ok fragments ∧
      fragments.mapM (Argument.meaning source) = .ok (calls.map Call.toArgument) := by
  cases h with
  | nil => exact ⟨[], rfl, rfl⟩
  | @cons text call texts calls hfirst hrest =>
    have hblank : allBlank ([','].intercalate (text :: texts)) = false := by
      cases texts with
      | nil => rw [List.intercalate_singleton, hfirst.not_blank]
      | cons => simp [List.intercalate_cons_cons, allBlank_append, hfirst.not_blank]
    rw [Fragment.split, if_neg (by simp [hblank])]
    exact cut_eq (.cons hfirst hrest) (List.cons_ne_nil _ _) _ _ _

end Composes

namespace Call

/-- Accepted texts compose: a name with such texts between brackets reads as the call of that name
with their calls as its arguments, if no text has a quote without a partner or is a bare name that
begins with a point. -/
theorem parse_of_arguments {name : String} {texts : List String} {calls : List Call}
    (hname : IsName name.toList)
    (haccepted : List.Forall₂ (fun text call => parse text = .ok call) texts calls)
    (hpaired : ∀ text ∈ texts, Fragment.QuotesPaired text.toList)
    (hpoint : ∀ text ∈ texts,
      ¬(IsName (trim text.toList) ∧ (trim text.toList).head? = some '.')) :
    parse (name ++ "(" ++ ",".intercalate texts ++ ")") = .ok ⟨name, calls.map toArgument⟩ := by
  have hcomposes : List.Forall₂ Composes (texts.map String.toList) calls := by
    rw [List.forall₂_map_left_iff]
    refine List.Forall₂.imp ?_ ((List.forall₂_and_left _ _).mpr
      ⟨fun text hmem => And.intro (hpaired text hmem) (hpoint text hmem), haccepted⟩)
    rintro text call ⟨⟨hquotes, hbare⟩, hparse⟩
    rw [parse, read_eq_meaning] at hparse
    exact .of_meaning hparse hquotes hbare
  have hmeaning := meaning_bracketed allBlank_nil hname allBlank_nil allBlank_nil
    (Composes.split_eq hcomposes (name ++ "(" ++ ",".intercalate texts ++ ")").toList) 0
  rw [parse, read_eq_meaning]
  simpa using hmeaning

/-- A bare name and a call with a bracket and a comma inside a string compose. -/
theorem parse_of_arguments_quoted :
    parse "b" = .ok ⟨"b", []⟩ ∧
    parse " C('),', 2)" = .ok ⟨"C", [.literal (.string "),"), .literal (.int 2)]⟩ ∧
    parse ("A." ++ "(" ++ ",".intercalate ["b", " C('),', 2)"] ++ ")") =
      .ok ⟨"A.", [.call "b" [], .call "C" [.literal (.string "),"), .literal (.int 2)]]⟩ := by
  have hbare : parse "b" = .ok ⟨"b", []⟩ := Option.some.inj ((readWithin_length _).symm.trans rfl)
  have hquoted : parse " C('),', 2)" = .ok ⟨"C", [.literal (.string "),"), .literal (.int 2)]⟩ :=
    Option.some.inj ((readWithin_length _).symm.trans rfl)
  exact ⟨hbare, hquoted, parse_of_arguments (by decide) (.cons hbare (.cons hquoted .nil))
    (by decide) (by decide)⟩

end Call

end DriverPolicy
