import DriverPolicy.Proofs.Expression.Rendering
import DriverPolicy.Proofs.Expression.Strings

/-!
# Trees that are read are well-formed

Whatever an expression looks like, the tree that it is read as has proper names and values at every place:
a name consists of letters and points, a string has lost its quotes, and a number is one of its kind. Each
place of the tree is what one piece of the text means, so this is a statement about single pieces. A tree
without numbers with a point can therefore be written in the plainest way, and that text is read as the
same tree again.
-/

namespace DriverPolicy

/-- Whether a literal is well-formed: a string has no quotes, an integer is in the range of its kind, a
number with a point is finite, and a float is not changed by rounding it to 32 bits. -/
def Literal.IsWellFormed : Literal → Prop
  | string s => ∀ c ∈ s.toList, isQuote c = false
  | float x => x.isFinite ∧ x.toSingle = x
  | double x => x.isFinite
  | long n => longRange.1 ≤ n ∧ n ≤ longRange.2
  | int n => intRange.1 ≤ n ∧ n ≤ intRange.2

/-- Whether what an argument shows at its own place is well-formed: its value if it is a literal, its name
if it is a call. -/
def Argument.IsWellFormed : Argument → Prop
  | literal value => value.IsWellFormed
  | call name _ => IsName name.toList

/-- Whether an argument is a number with a point. -/
def Argument.IsReal : Argument → Prop
  | literal (.float _) => True
  | literal (.double _) => True
  | _ => False

namespace Literal

variable {text source : List Char} {position : Int}

/-- A float that is read is one of 32 bits. -/
theorem toSingle_of_read {x : Binary} (h : read text source position = .ok (.float x)) :
    x.toSingle = x := by
  rw [read_eq_ite] at h
  split at h
  · simp at h
  split at h
  · obtain ⟨_, -, hkind⟩ := map_eq_ok_iff.mp h
    contradiction
  split at h
  · obtain ⟨y, hread, hkind⟩ := map_eq_ok_iff.mp h
    obtain rfl := float.inj hkind
    unfold readFloat at hread
    split at hread
    · split at hread
      · next hfits =>
        obtain rfl := Except.ok.inj hread
        exact Binary.toSingle_toSingle hfits
      · contradiction
    · contradiction
  split at h
  · obtain ⟨_, -, hkind⟩ := map_eq_ok_iff.mp h
    contradiction
  · obtain ⟨_, -, hkind⟩ := map_eq_ok_iff.mp h
    contradiction

/-- A literal that is read is well-formed. -/
theorem isWellFormed_of_read {value : Literal} (h : read text source position = .ok value) :
    value.IsWellFormed := by
  have hsound : value.IsSound := by
    rcases read_cases text source position with ⟨other, hread, hsound⟩ | ⟨kind, hread⟩ | ⟨count, hlong⟩
    · exact Except.ok.inj (hread.symm.trans h) ▸ hsound
    · exact absurd (hread.symm.trans h) nofun
    · exact absurd ((hlong.read_eq source position).symm.trans h) (by simp)
  cases value with
  | string s =>
    obtain ⟨-, hvalue⟩ := read_eq_string_iff.mp h
    intro c hc
    rw [← hvalue, withoutQuotes, List.mem_filter] at hc
    simpa using hc.2
  | float x => exact ⟨hsound, toSingle_of_read h⟩
  | double x => exact hsound
  | long n => exact hsound
  | int n => exact hsound

end Literal

/-- A call that a text means has a name of letters and points. -/
theorem Call.isName_of_meaning {source text : List Char} {offset : Int} {call : Call}
    (h : meaning source text offset = .ok call) : IsName call.name.toList := by
  rw [meaning_eq] at h
  obtain ⟨head, hhead, h⟩ := bind_eq_ok_iff.mp h
  obtain ⟨fragments, -, h⟩ := bind_eq_ok_iff.mp h
  obtain ⟨arguments, -, h⟩ := bind_eq_ok_iff.mp h
  obtain rfl := Except.ok.inj h
  rw [String.toList_ofList]
  cases Head.read_eq_ok_iff.mp hhead with
  | bare _ hname => exact hname
  | bracketed _ hname => exact hname

/-- What a piece of text means is well-formed at its own place. -/
theorem Argument.isWellFormed_of_meaning {source : List Char} {piece : Fragment} {argument : Argument}
    (h : meaning source piece = .ok argument) : argument.IsWellFormed := by
  rw [meaning, readWith] at h
  split at h
  · obtain ⟨call, hmeaning, rfl⟩ := map_eq_ok_iff.mp h
    exact Call.isName_of_meaning hmeaning
  · obtain ⟨value, hread, rfl⟩ := map_eq_ok_iff.mp h
    exact Literal.isWellFormed_of_read hread

/-- A tree that is read is well-formed at every place. -/
theorem Call.isWellFormed_of_parse {expression : String} {call : Call} (h : parse expression = .ok call)
    {place : List Nat} {found : Argument} (hfound : call.toArgument.at? place = some found) :
    found.IsWellFormed := by
  cases place with
  | nil =>
    obtain rfl := Option.some.inj hfound
    rw [parse, read_eq_meaning] at h
    exact isName_of_meaning h
  | cons i place =>
    obtain ⟨piece, -, hmeaning⟩ := (meansAt_of_parse h i place found).mp hfound
    exact Argument.isWellFormed_of_meaning hmeaning

mutual

/-- An argument is plain if it is well-formed at every place and no number with a point at any. -/
theorem Argument.isPlain_of_at? {argument : Argument}
    (h : ∀ place found, argument.at? place = some found → found.IsWellFormed ∧ ¬found.IsReal) :
    argument.IsPlain := by
  cases argument with
  | literal value =>
    obtain ⟨hwell, hreal⟩ := h [] _ rfl
    rw [Argument.IsPlain]
    cases value with
    | string s => exact hwell
    | float x => exact absurd trivial hreal
    | double x => exact absurd trivial hreal
    | long n => exact hwell
    | int n => exact hwell
  | call name arguments =>
    rw [Argument.IsPlain]
    refine ⟨(h [] _ rfl).1, Argument.allPlain_of_at? fun argument hmem place found hfound => ?_⟩
    obtain ⟨i, hi, rfl⟩ := List.getElem_of_mem hmem
    refine h (i :: place) found ?_
    rw [Argument.at?, List.getElem?_eq_getElem hi]
    exact hfound

/-- Arguments are plain if they are so at every place. -/
theorem Argument.allPlain_of_at? {arguments : List Argument}
    (h : ∀ argument ∈ arguments, ∀ place found, argument.at? place = some found →
      found.IsWellFormed ∧ ¬found.IsReal) : Argument.AllPlain arguments := by
  cases arguments with
  | nil => exact trivial
  | cons argument rest =>
    rw [List.forall_mem_cons] at h
    rw [Argument.AllPlain]
    exact ⟨Argument.isPlain_of_at? h.1, Argument.allPlain_of_at? h.2⟩

end

/-- Each of plain arguments is plain. -/
theorem Argument.AllPlain.of_mem {arguments : List Argument} (h : Argument.AllPlain arguments) :
    ∀ argument ∈ arguments, argument.IsPlain := by
  induction arguments with
  | nil => simp
  | cons argument rest ih => exact List.forall_mem_cons.mpr ⟨h.1, ih h.2⟩

/-- A plain argument is well-formed at every place and no number with a point at any. -/
theorem Argument.IsPlain.of_at? {argument found : Argument} {place : List Nat} (h : argument.IsPlain)
    (hfound : argument.at? place = some found) : found.IsWellFormed ∧ ¬found.IsReal := by
  induction place generalizing argument with
  | nil =>
    obtain rfl := Option.some.inj hfound
    cases argument with
    | call name arguments => exact ⟨h.1, id⟩
    | literal value =>
      cases value with
      | string s => exact ⟨h, id⟩
      | float x => exact h.elim
      | double x => exact h.elim
      | long n => exact ⟨h, id⟩
      | int n => exact ⟨h, id⟩
  | cons i place ih =>
    cases argument with
    | literal value => simp [Argument.at?] at hfound
    | call name arguments =>
      obtain ⟨argument, hargument, hfound⟩ := Option.bind_eq_some_iff.mp hfound
      exact ih (h.2.of_mem argument (List.mem_of_getElem? hargument)) hfound

namespace Call

/-- Every tree that is read is well-formed at every place. If there is no number with a point at any, its
plainest text is read as the same tree. -/
theorem parse_written {expression : String} {call : Call} (h : parse expression = .ok call) :
    (∀ place found, call.toArgument.at? place = some found → found.IsWellFormed) ∧
    ((∀ place found, call.toArgument.at? place = some found → ¬found.IsReal) →
      parse call.written = .ok call) := by
  refine ⟨fun place found => isWellFormed_of_parse h, fun hreal => ?_⟩
  have hplain : call.IsPlain := Argument.isPlain_of_at? fun place found hfound =>
    ⟨isWellFormed_of_parse h hfound, hreal place found hfound⟩
  exact (parse_of_writtenAs hplain).2 _ (writtenAs_written hplain)

/-- A string with text beside quotes that have no partners, and a long with a zero in front, are written
back in another way. -/
theorem parse_written_unpaired :
    parse "A(x\"y', (LONG)-07 ,b)" =
      .ok ⟨"A", [.literal (.string "xy"), .literal (.long (-7)), .call "b" []]⟩ ∧
    written ⟨"A", [.literal (.string "xy"), .literal (.long (-7)), .call "b" []]⟩ =
      "A(\"xy\",(long)-7,b())" ∧
    parse "A(\"xy\",(long)-7,b())" =
      .ok ⟨"A", [.literal (.string "xy"), .literal (.long (-7)), .call "b" []]⟩ := by
  have hparse : parse "A(x\"y', (LONG)-07 ,b)" =
      .ok ⟨"A", [.literal (.string "xy"), .literal (.long (-7)), .call "b" []]⟩ :=
    Option.some.inj ((readWithin_length _).symm.trans rfl)
  have hwritten : written ⟨"A", [.literal (.string "xy"), .literal (.long (-7)), .call "b" []]⟩ =
      "A(\"xy\",(long)-7,b())" := by decide
  have hplain : IsPlain ⟨"A", [.literal (.string "xy"), .literal (.long (-7)), .call "b" []]⟩ := by decide
  refine ⟨hparse, hwritten, ?_⟩
  rw [← hwritten]
  exact (parse_written hparse).2 fun place found hfound => (Argument.IsPlain.of_at? hplain hfound).2

end Call

end DriverPolicy
