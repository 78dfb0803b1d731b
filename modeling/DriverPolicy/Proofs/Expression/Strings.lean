import DriverPolicy.Proofs.Expression.Outcome
import DriverPolicy.Proofs.Expression.Places
import DriverPolicy.Proofs.Expression.Rendering

/-!
# The strings of a tree

Among the arguments that are no nested calls, those with a quote anywhere are the strings, and their
values have lost all their quotes. A quotation is therefore read as what stands between its quotes if no
further quote stands there, of whichever kind; quotes of the other kind are lost, and text next to a
quotation is kept.
-/

namespace DriverPolicy

/-- A text without its quotes. -/
def withoutQuotes (text : List Char) : List Char := text.filter fun c => !isQuote c

/-- Nothing is lost of a text if and only if it has no quotes. -/
theorem withoutQuotes_eq_self_iff {text : List Char} :
    withoutQuotes text = text ↔ ∀ c ∈ text, isQuote c = false := by
  simp [withoutQuotes]

/-- Of a quotation the quotes around it are lost, and all others. -/
theorem withoutQuotes_quotation {quote : Char} (hquote : isQuote quote) (content : List Char) :
    withoutQuotes (quote :: content ++ [quote]) = withoutQuotes content := by
  simp [withoutQuotes, hquote]

/-- A piece of text that is a string with a given value: no nested call, and with a quote somewhere. -/
structure Fragment.IsString (piece : Fragment) (value : List Char) : Prop where
  literal : isCallFragment piece.text = false
  quoted : piece.text.any isQuote
  value_eq : withoutQuotes piece.text = value

namespace Literal

/-- A literal is read as a string if and only if it has a quote; the value has none of its quotes. -/
theorem read_eq_string_iff {text source : List Char} {position : Int} {value : String} :
    read text source position = .ok (.string value) ↔
      text.any isQuote ∧ withoutQuotes text = value.toList := by
  rw [read_eq_ite]
  by_cases hquoted : text.any isQuote
  · simp [hquoted, withoutQuotes, ← String.toList_inj]
  · have hnumber {α : Type} (x : Except ReadingFault α) {kind : α → Literal}
        (hkind : ∀ a, kind a ≠ .string value) : x.map kind ≠ .ok (.string value) := fun h => by
      obtain ⟨a, -, ha⟩ := map_eq_ok_iff.mp h
      exact hkind a ha
    simp only [hquoted, Bool.false_eq_true, false_and, iff_false, ↓reduceIte]
    split
    · exact hnumber _ (by simp)
    split
    · exact hnumber _ (by simp)
    split <;> exact hnumber _ (by simp)

end Literal

namespace Fragment

variable {source : List Char} {piece : Fragment} {value : String}

/-- A piece of text means a string if and only if it is one. -/
theorem meaning_eq_string_iff :
    Argument.meaning source piece = .ok (.literal (.string value)) ↔ piece.IsString value.toList := by
  rw [Argument.meaning, Argument.readWith]
  by_cases hcall : isCallFragment piece.text
  · rw [if_pos hcall, map_eq_ok_iff]
    refine iff_of_false ?_ fun h => absurd (hcall.symm.trans h.literal) (by decide)
    rintro ⟨call, -, hargument⟩
    simp [Call.toArgument] at hargument
  · rw [if_neg hcall, map_eq_ok_iff]
    constructor
    · rintro ⟨_, hread, ⟨⟩⟩
      obtain ⟨hquoted, hvalue⟩ := Literal.read_eq_string_iff.mp hread
      exact ⟨Bool.not_eq_true _ ▸ hcall, hquoted, hvalue⟩
    · intro h
      exact ⟨_, Literal.read_eq_string_iff.mpr ⟨h.quoted, h.value_eq⟩, rfl⟩

/-- A quotation is a string. -/
theorem isString_quotation {quote : Char} (hquote : isQuote quote) (content : List Char)
    (position : Int) :
    (⟨quote :: content ++ [quote], position⟩ : Fragment).IsString (withoutQuotes content) where
  literal := isCallFragment_cons (Or.inr hquote) _
  quoted := by simp [hquote]
  value_eq := withoutQuotes_quotation hquote content

/-- A text with the outer shape of a call is no string. -/
theorem not_isString_of_shows {text value : List Char} {offset : Int} {head : Head}
    (h : Head.Shows text offset head) (position : Int) :
    ¬(⟨text, position⟩ : Fragment).IsString value := by
  intro hstring
  obtain ⟨-, hunquoted⟩ := h.bare_of_isCallFragment hstring.literal
  exact absurd (hunquoted.symm.trans hstring.quoted) Bool.false_ne_true

end Fragment

namespace Call

/-- A name and a quotation between brackets are a call with one string. -/
theorem parse_quotation {name : List Char} (hname : IsName name) {quote : Char} (hquote : isQuote quote)
    {content : List Char} (h : quote ∉ content) :
    parse (String.ofList (name ++ '(' :: (quote :: content ++ [quote] ++ [')']))) =
      .ok ⟨String.ofList name, [.literal (.string (String.ofList (withoutQuotes content)))]⟩ := by
  have hsolid : Solid (quote :: content ++ [quote]) :=
    .between (isBlank_of_isQuote hquote) (isBlank_of_isQuote hquote) content
  have hmeaning (source : List Char) (position : Int) :
      Argument.meaning source ⟨quote :: content ++ [quote], position⟩ =
        .ok (.literal (.string (String.ofList (withoutQuotes content)))) := by
    rw [Fragment.meaning_eq_string_iff, String.toList_ofList]
    exact Fragment.isString_quotation hquote content position
  have hinside (source : List Char) (offset : Int) : ∃ fragments,
      Fragment.split (quote :: content ++ [quote]) source offset = .ok fragments ∧
        fragments.mapM (Argument.meaning source) =
          .ok [.literal (.string (String.ofList (withoutQuotes content)))] :=
    ⟨_, Fragment.split_solid (.quotation hquote h) hsolid source offset,
      mapM_eq_ok_iff.mpr (.cons (hmeaning source offset) .nil)⟩
  rw [parse, read_eq_meaning, String.toList_ofList]
  exact meaning_bracketed allBlank_nil hname allBlank_nil allBlank_nil (hinside _) 0

/-- The strings of an accepted expression are the arguments that are strings in its text: at every place
of the tree there is a string if and only if a piece of text stands there that has a quote and is no
nested call, and the value is the piece without its quotes. A quotation between the brackets of a name
is one string. Without its quotes a quotation is what stands between them if and only if no other quote
stands there. -/
theorem strings_of_parse :
    (∀ (expression : String) (call : Call), parse expression = .ok call →
      ∀ (place : List Nat) (value : String),
        call.toArgument.at? place = some (.literal (.string value)) ↔
          ∃ piece, (⟨expression.toList, 0⟩ : Fragment).at? expression.toList place = some piece ∧
            piece.IsString value.toList) ∧
    (∀ (name : List Char) (quote : Char) (content : List Char), IsName name → isQuote quote →
      quote ∉ content →
      parse (String.ofList (name ++ '(' :: (quote :: content ++ [quote] ++ [')']))) =
        .ok ⟨String.ofList name, [.literal (.string (String.ofList (withoutQuotes content)))]⟩) ∧
    ∀ (quote : Char) (content : List Char), isQuote quote →
      (withoutQuotes (quote :: content ++ [quote]) = content ↔ ∀ c ∈ content, isQuote c = false) := by
  refine ⟨fun expression call h place value => ?_, fun name quote content hname hquote hcontent =>
    parse_quotation hname hquote hcontent, fun quote content hquote => ?_⟩
  · cases place with
    | nil =>
      -- the whole expression is a call and no string
      rw [parse, read_eq_meaning, meaning_eq] at h
      obtain ⟨head, hhead, -⟩ := bind_eq_ok_iff.mp h
      have hnone : ¬(⟨expression.toList, 0⟩ : Fragment).IsString value.toList :=
        Fragment.not_isString_of_shows (Head.read_eq_ok_iff.mp hhead) 0
      simp [Argument.at?, Fragment.at?, toArgument, hnone]
    | cons i place =>
      simp only [meansAt_of_parse h i place _, Fragment.meaning_eq_string_iff]
  · rw [withoutQuotes_quotation hquote, withoutQuotes_eq_self_iff]

/-- A string of a nested call, and a quotation with a quote of the other kind inside. -/
theorem strings_of_parse_nested :
    parse "A(B(x\"d,c\"),2)" = .ok ⟨"A", [.call "B" [.literal (.string "xd,c")], .literal (.int 2)]⟩ ∧
    (∃ piece, (⟨"A(B(x\"d,c\"),2)".toList, 0⟩ : Fragment).at? "A(B(x\"d,c\"),2)".toList [0, 0] =
      some piece ∧ piece.IsString "xd,c".toList) ∧
    IsName "A".toList ∧ isQuote '"' ∧ '"' ∉ "it's".toList ∧
    parse (String.ofList ("A".toList ++ '(' :: ('"' :: "it's".toList ++ ['"'] ++ [')']))) =
      .ok ⟨"A", [.literal (.string "its")]⟩ ∧
    withoutQuotes ('"' :: "it's".toList ++ ['"']) ≠ "it's".toList := by
  have hparse : parse "A(B(x\"d,c\"),2)" =
      .ok ⟨"A", [.call "B" [.literal (.string "xd,c")], .literal (.int 2)]⟩ :=
    Option.some.inj ((readWithin_length _).symm.trans rfl)
  have hname : IsName "A".toList := by decide
  have hcontent : '"' ∉ "it's".toList := by decide
  obtain ⟨hstrings, hquotation, hlost⟩ := strings_of_parse
  refine ⟨hparse, (hstrings _ _ hparse [0, 0] "xd,c").mp rfl, hname, rfl, hcontent,
    hquotation _ _ _ hname rfl hcontent, fun h => ?_⟩
  have hquote : isQuote '\'' = false := (hlost '"' "it's".toList rfl).mp h '\'' (by decide)
  contradiction

/-- Strings are not all quotations, and a quotation is not always read as what stands between its
quotes: text next to a quotation is part of the string, and a quote of the other kind is lost. -/
theorem parse_quote_inside :
    (parse "A(x\"dc1\")" = .ok ⟨"A", [.literal (.string "xdc1")]⟩ ∧
      (⟨"A(x\"dc1\")".toList, 0⟩ : Fragment).at? "A(x\"dc1\")".toList [0] =
        some ⟨"x\"dc1\"".toList, 2⟩ ∧
      ¬∃ quote content, isQuote quote ∧ "x\"dc1\"".toList = quote :: content ++ [quote]) ∧
    parse "A(\"it's\")" = .ok ⟨"A", [.literal (.string "its")]⟩ ∧
    (⟨"A(\"it's\")".toList, 0⟩ : Fragment).at? "A(\"it's\")".toList [0] =
      some ⟨'"' :: "it's".toList ++ ['"'], 2⟩ ∧
    isQuote '"' ∧ '"' ∉ "it's".toList ∧ "its" ≠ "it's" := by
  refine ⟨⟨Option.some.inj ((readWithin_length _).symm.trans rfl), rfl, ?_⟩,
    Option.some.inj ((readWithin_length _).symm.trans rfl), rfl, rfl, by decide, by decide⟩
  rintro ⟨quote, content, hquote, htext⟩
  obtain rfl : 'x' = quote := (List.cons.inj htext).1
  contradiction

end Call

end DriverPolicy
