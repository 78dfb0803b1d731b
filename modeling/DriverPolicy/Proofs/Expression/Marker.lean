import DriverPolicy.Proofs.Expression.MarkerWord

/-!
# The marker of a number

A number may have a marker in front: a word for its kind between brackets, in any case and with
blanks around it. Splitting a marker off takes away exactly that, and the blanks behind it. Where
nothing is split off, the text starts with no marker.
-/

namespace DriverPolicy

/-- A marker: one of the words, spelled in any case, between brackets and with blanks around it. -/
inductive IsMarker : List Char → Prop
  | intro {word before spelled after : List Char} (hword : word ∈ markerWords)
      (hbefore : allBlank before)
      (hspelled : List.Forall₂ (fun letter c => matchesMarkerLetter letter c) word spelled)
      (hafter : allBlank after) : IsMarker ('(' :: (before ++ (spelled ++ (after ++ [')']))))

/-- What is left of a text without its marker and the blanks behind it: the whole text if it starts
with no marker. -/
inductive LessMarker (text : List Char) : List Char → Prop
  | unmarked (h : ∀ marker rest, IsMarker marker → marker ++ rest ≠ text) : LessMarker text text
  | marked {marker gap body : List Char} (hmarker : IsMarker marker) (hgap : allBlank gap)
      (hbody : body = [] ∨ Solid body) (htext : marker ++ (gap ++ body) = text) :
      LessMarker text body

/-- What is taken off the start of a text is a marker. -/
theorem exists_of_takeMarker? {text name body : List Char}
    (h : takeMarker? text = some (name, body)) : ∃ marker, IsMarker marker ∧ marker ++ body = text := by
  unfold takeMarker? at h
  split at h
  · next rest =>
    obtain ⟨word, hword, hfound⟩ := List.exists_of_findSome?_eq_some h
    split at hfound
    · next spelled after htake =>
      split at hfound
      · next left hclose =>
        obtain ⟨-, rfl⟩ := Prod.mk.inj (Option.some.inj hfound)
        obtain ⟨hspelled, hinside⟩ := takeWord_eq_some_iff.mp htake
        have hmarker : IsMarker ('(' :: (rest.takeWhile isBlank ++
            (spelled ++ (after.takeWhile isBlank ++ [')'])))) :=
          .intro hword List.all_takeWhile hspelled List.all_takeWhile
        refine ⟨_, hmarker, ?_⟩
        rw [List.cons_append, List.append_assoc, List.append_assoc, List.append_assoc,
          List.singleton_append, ← hclose, List.takeWhile_append_dropWhile, hinside,
          List.takeWhile_append_dropWhile]
      · contradiction
    · contradiction
  · contradiction

/-- A text that starts with a marker has one taken off. -/
theorem takeMarker?_ne_none {marker : List Char} (h : IsMarker marker) (rest : List Char) :
    takeMarker? (marker ++ rest) ≠ none := by
  obtain ⟨hword, hbefore, hspelled, hafter⟩ := h
  have htake := takeMarker?_spelled hword hbefore hspelled hafter rest
  simpa using Option.ne_none_iff_exists'.mpr ⟨_, htake⟩

/-- No blanks follow at the end of a solid text. -/
theorem Solid.eq_nil_of_append {front after : List Char} (h : Solid (front ++ after))
    (hafter : allBlank after) : after = [] := by
  rcases List.eq_nil_or_concat after with rfl | ⟨rest, c, rfl⟩
  · rfl
  · obtain ⟨start, d, htext, hd⟩ := h.last
    rw [List.concat_eq_append, ← List.append_assoc] at htext
    obtain ⟨-, hlast⟩ := List.append_inj' htext rfl
    obtain rfl : c = d := by simpa using hlast
    simp [allBlank, hd] at hafter

/-- Splitting a marker off an argument leaves the argument less its marker. -/
theorem lessMarker_splitMarker {text : List Char} (h : Solid text) :
    LessMarker text (splitMarker text).2 := by
  rw [splitMarker]
  split
  · next name body htake =>
    obtain ⟨marker, hmarker, rfl⟩ := exists_of_takeMarker? htake
    by_cases hblank : allBlank body
    · obtain rfl := h.eq_nil_of_append hblank
      exact .marked hmarker allBlank_nil (Or.inl rfl) rfl
    · obtain ⟨hsolid, after, hafter, hbody⟩ := exists_eq_trim_append (Bool.not_eq_true _ ▸ hblank)
      rw [hbody, ← List.append_assoc] at h
      obtain rfl := h.eq_nil_of_append hafter
      rw [List.append_nil] at hbody
      exact .marked hmarker List.all_takeWhile (Or.inr hsolid) (by rw [← hbody])
  · next hnone =>
    refine .unmarked fun marker rest hmarker htext => ?_
    rw [← htext] at hnone
    exact takeMarker?_ne_none hmarker rest hnone

end DriverPolicy
