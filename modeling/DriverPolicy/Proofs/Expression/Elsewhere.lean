import DriverPolicy.Proofs.Expression.Descent

/-!
# Texts that stand elsewhere

A text means the same wherever it stands. Nothing in the reading of a call looks at the expression around
it; the expression only gives the faults something to be reported against. If a text is read at another
position, and for another expression, its shape, its arguments and their literals have the same texts and
values, and every position in what comes out has moved by the same distance.
-/

namespace DriverPolicy

/-- Faults of the same kind, of which the second stands `distance` before the first. They may be reported
against different expressions. -/
inductive ReadingFault.Moved (distance : Int) : ReadingFault → ReadingFault → Prop
  | expression (defect : Defect) (source source' : String) (position : Int) :
      Moved distance (.expression ⟨defect, source, position⟩)
        (.expression ⟨defect, source', position - distance⟩)
  | tooManyDigits (count : Nat) : Moved distance (.tooManyDigits count) (.tooManyDigits count)

/-- Two outcomes have the same value, or are faults of the same kind of which the second stands `distance`
before the first. -/
abbrev SameMoved {α : Type} (distance : Int) (x y : Except ReadingFault α) : Prop :=
  Correspond Eq (ReadingFault.Moved distance) x y

/-- An argument that stands `distance` earlier. -/
def Fragment.moved (distance : Int) (fragment : Fragment) : Fragment :=
  { fragment with position := fragment.position - distance }

/-- An outer shape that stands `distance` earlier. -/
def Head.moved (distance : Int) (head : Head) : Head := { head with offset := head.offset - distance }

variable {distance : Int}

/-- A malformation is the same elsewhere. -/
theorem malformed_moved {α β : Type} {R : α → β → Prop} (malformation : Malformation)
    (source source' : List Char) {position position' : Int} (h : position - distance = position') :
    Correspond R (ReadingFault.Moved distance) (malformed malformation source position)
      (malformed malformation source' position') := by
  subst h
  exact .error (.expression ..)

/-- A text has the same outer shape elsewhere. -/
theorem Head.read_moved (text source source' : List Char) (offset : Int) :
    Correspond (fun a b => a.moved distance = b) (ReadingFault.Moved distance)
      (read text source offset) (read text source' (offset - distance)) := by
  unfold read
  dsimp only
  split
  · exact malformed_moved _ _ _ rfl
  split
  · exact malformed_moved _ _ _ (by omega)
  split
  · refine .ok ?_
    simp only [moved, Head.mk.injEq, true_and]
    omega
  split
  · refine .ok ?_
    simp only [moved, Head.mk.injEq, true_and]
    omega
  · exact malformed_moved _ _ _ (by omega)

namespace Fragment

/-- A piece is closed as the same text elsewhere. -/
theorem close_moved (raw source source' : List Char) {position position' : Int}
    (h : position - distance = position') :
    Correspond (fun a b => a.moved distance = b) (ReadingFault.Moved distance)
      (close source raw position) (close source' raw position') := by
  unfold close ofRaw?
  by_cases hblank : allBlank raw
  · rw [if_pos hblank, if_pos hblank]
    exact malformed_moved _ _ _ h
  · rw [if_neg hblank, if_neg hblank]
    refine .ok ?_
    simp only [moved, Fragment.mk.injEq, true_and]
    omega

/-- Marked characters are cut into the same texts elsewhere. -/
theorem cut_moved (source source' : List Char) (depth : Nat) {start start' : Int} (piece : List Char)
    (marked : List (Char × Bool)) (h : start - distance = start') :
    Correspond (fun a b => a.map (moved distance) = b) (ReadingFault.Moved distance)
      (cut source depth start piece marked) (cut source' depth start' piece marked) := by
  induction marked generalizing depth start start' piece with
  | nil =>
    unfold cut
    split
    · exact malformed_moved _ _ _ (by omega)
    · refine (close_moved piece.reverse source source' h).bind fun a b _ _ hlast => .ok ?_
      rw [List.map_singleton, hlast]
  | cons m marked ih =>
    obtain ⟨c, isQuoted⟩ := m
    unfold cut
    split
    · exact ih _ _ h
    split
    · exact ih _ _ h
    split
    · split
      · exact malformed_moved _ _ _ (by omega)
      · exact ih _ _ h
    split
    · refine (close_moved piece.reverse source source' h).bind fun a b _ _ hfirst => ?_
      have hnext : start + piece.length + 1 - distance = start' + piece.length + 1 := by omega
      refine (ih 0 [] hnext).bind fun as bs _ _ hrest => .ok ?_
      rw [List.map_cons, hfirst, hrest]
    · exact ih _ _ h

/-- The text between brackets has the same arguments elsewhere. -/
theorem split_moved (arguments source source' : List Char) (offset : Int) :
    Correspond (fun a b => a.map (moved distance) = b) (ReadingFault.Moved distance)
      (split arguments source offset) (split arguments source' (offset - distance)) := by
  unfold split
  split
  · exact .ok rfl
  · exact cut_moved _ _ _ _ _ rfl

end Fragment

namespace Literal

/-- A number that is none is none elsewhere. -/
theorem badNumber_moved {α : Type} (body : List Char) (kind : ArgumentKind) (source source' : List Char)
    (position : Int) : SameMoved distance (badNumber body kind source position : Except ReadingFault α)
      (badNumber body kind source' (position - distance)) :=
  .error (.expression ..)

/-- A literal has the same value elsewhere. -/
theorem read_moved (text source source' : List Char) (position : Int) :
    SameMoved distance (read text source position) (read text source' (position - distance)) := by
  have hdouble (body : List Char) : SameMoved distance (readDouble body source position)
      (readDouble body source' (position - distance)) := by
    unfold readDouble
    split
    · split
      · exact .ok rfl
      · exact badNumber_moved ..
    · exact badNumber_moved ..
  have hfloat (body : List Char) : SameMoved distance (readFloat body source position)
      (readFloat body source' (position - distance)) := by
    unfold readFloat
    split
    · split
      · exact .ok rfl
      · exact badNumber_moved ..
    · exact badNumber_moved ..
  have hinteger (range : Int × Int) (kind : ArgumentKind) (body : List Char) :
      SameMoved distance (readIntegerIn range kind body source position)
        (readIntegerIn range kind body source' (position - distance)) := by
    unfold readIntegerIn
    split
    · exact badNumber_moved ..
    · split
      · exact .error (.tooManyDigits _)
      · dsimp only
        split
        · exact .ok rfl
        · exact badNumber_moved ..
  unfold read
  dsimp only
  split
  · exact .ok rfl
  split
  · exact (hdouble _).bind fun a b _ _ h => .ok (h ▸ rfl)
  split
  · exact (hfloat _).bind fun a b _ _ h => .ok (h ▸ rfl)
  split
  · exact (hinteger ..).bind fun a b _ _ h => .ok (h ▸ rfl)
  · exact (hinteger ..).bind fun a b _ _ h => .ok (h ▸ rfl)

end Literal

/-- An argument means the same elsewhere if its text does when it is a call. -/
theorem Argument.meaning_moved {text source source' : List Char} {position : Int}
    (h : SameMoved distance (Call.meaning source text position)
      (Call.meaning source' text (position - distance))) :
    SameMoved distance (meaning source ⟨text, position⟩) (meaning source' ⟨text, position - distance⟩) := by
  unfold meaning readWith
  dsimp only
  split
  · exact h.map fun _ _ => congrArg _
  · exact (Literal.read_moved ..).map fun _ _ => congrArg _

/-- So do several arguments, one by one. -/
theorem Argument.mapM_meaning_moved {fragments : List Fragment} {source source' : List Char}
    (h : ∀ fragment ∈ fragments, SameMoved distance (Call.meaning source fragment.text fragment.position)
      (Call.meaning source' fragment.text (fragment.position - distance))) :
    SameMoved distance (fragments.mapM (meaning source))
      ((fragments.map (Fragment.moved distance)).mapM (meaning source')) := by
  have hpairs : List.Forall₂ (fun a b => a ∈ fragments ∧ a.moved distance = b) fragments
      (fragments.map (Fragment.moved distance)) := by
    rw [List.forall₂_map_right_iff]
    exact List.forall₂_same.mpr fun fragment hmem => ⟨hmem, rfl⟩
  have hvalues : Correspond (List.Forall₂ Eq) (ReadingFault.Moved distance)
      (fragments.mapM (meaning source)) ((fragments.map (Fragment.moved distance)).mapM (meaning source')) := by
    refine .mapM hpairs fun fragment _ ⟨hmem, hmoved⟩ => ?_
    subst hmoved
    exact meaning_moved (h fragment hmem)
  rwa [List.forall₂_eq_eq_eq] at hvalues

/-- A text means the same call elsewhere. -/
theorem Call.meaning_moved (text source source' : List Char) (offset : Int) :
    SameMoved distance (meaning source text offset) (meaning source' text (offset - distance)) := by
  induction hn : text.length using Nat.strongRecOn generalizing text offset with
  | ind n ih =>
    rw [meaning_eq, meaning_eq]
    refine (Head.read_moved ..).bind fun head _ hhead _ hmoved => ?_
    subst hmoved
    refine (Fragment.split_moved head.arguments source source' head.offset).bind
      fun fragments _ hsplit _ hmoved => ?_
    subst hmoved
    -- arguments are shorter than the call, so they mean the same elsewhere
    refine (Argument.mapM_meaning_moved fun fragment hmem =>
      ih _ (hn ▸ Fragment.length_lt_of_mem_split hhead hsplit hmem) _ _ rfl).bind
        fun arguments _ _ _ hsame => .ok ?_
    rw [hsame]
    rfl

end DriverPolicy
