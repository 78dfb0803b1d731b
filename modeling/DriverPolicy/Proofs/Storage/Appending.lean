import DriverPolicy.Storage.FileTree
import DriverPolicy.Proofs.Attempt

/-!
# Appending to files

Something can be appended where a file is, and where one can be made. Appending changes one place, at
which no directory is, so that every way leads where it led before: wherever something could be
appended, more can be.
-/

namespace DriverPolicy.FileTree

variable {tree : FileTree} {path : Path} {place : Place}

/-- A path leads to where a file is, or where one can be made. -/
def Takes (tree : FileTree) (path : Path) : Prop :=
  ∃ place, tree.placeOf path = .ok place ∧ tree.node? place ≠ some .directory

/-- The root is a directory. -/
theorem ne_root (h : tree.node? place ≠ some .directory) : place ≠ [] := by
  rintro rfl
  exact h rfl

/-- What is put where there is no directory stands there, and everything else stands where it was. -/
theorem node?_put (h : tree.node? place ≠ some .directory) (node : FileNode) (other : Place) :
    (tree.put place node).node? other = if other = place then some node else tree.node? other := by
  by_cases hplace : other = place
  · subst hplace
    have hnone : (tree.nodes.filter (·.1 ≠ other)).find? (·.1 = other) = none := by simp
    rw [if_pos rfl, node?, if_neg (ne_root h), put, List.find?_append, hnone]
    simp
  · have hsame : (tree.nodes.filter (·.1 ≠ place)).find? (·.1 = other) =
        tree.nodes.find? (·.1 = other) := by
      rw [List.find?_filter]
      congr 1
      funext entry
      by_cases heq : entry.1 = other <;> simp [heq, hplace]
    rw [if_neg hplace, node?, node?, put, List.find?_append, hsame]
    simp [Ne.symm hplace]

/-- A way leads where it led after a file was put where there is no directory. -/
theorem follow_put (h : tree.node? place ≠ some .directory) (bytes : ByteArray) (time : Int)
    {start finish : Place} {names : List String} (hfollow : tree.follow start names = .ok finish) :
    (tree.put place (.file bytes time)).follow start names = .ok finish := by
  induction names generalizing start with
  | nil => exact hfollow
  | cons name rest ih =>
    rw [follow] at hfollow ⊢
    split
    · next hup =>
      rw [if_pos hup] at hfollow
      exact ih hfollow
    · next hup =>
      rw [if_neg hup] at hfollow
      dsimp only at hfollow ⊢
      split
      · next hlong => simp [hlong] at hfollow
      · next hlong =>
        rw [if_neg hlong] at hfollow
        split
        · next hlast => rwa [if_pos hlast] at hfollow
        · next hlast =>
          rw [if_neg hlast] at hfollow
          split at hfollow
          · next hdirectory =>
            -- a directory on the way is not where the file is put
            have hother : start ++ [name] ≠ place := by
              rintro rfl
              exact h hdirectory
            rw [node?_put h, if_neg hother, hdirectory]
            exact ih hfollow
          · contradiction
          · contradiction

/-- Where a file is or can be made, something can be appended. -/
theorem Takes.exists_append (h : tree.Takes path) (bytes : ByteArray) (time : Int) :
    ∃ after, tree.append path bytes time = .ok after := by
  obtain ⟨place, hplace, hnode⟩ := h
  rw [append, hplace, ok_bind]
  split
  · contradiction
  · exact ⟨_, rfl⟩
  · exact ⟨_, rfl⟩

/-- What was appended to is a file, at a place where no directory was. -/
theorem append_eq_ok {after : FileTree} {bytes : ByteArray} {time : Int}
    (h : tree.append path bytes time = .ok after) :
    ∃ place content, tree.placeOf path = .ok place ∧ tree.node? place ≠ some .directory ∧
      after = tree.put place (.file content time) := by
  obtain ⟨place, hplace, hput⟩ := bind_eq_ok_iff.mp h
  refine ⟨place, ?_⟩
  split at hput
  · contradiction
  · next hfile => exact ⟨_, hplace, by simp [hfile], (Except.ok.inj hput).symm⟩
  · next hnone => exact ⟨_, hplace, by simp [hnone], (Except.ok.inj hput).symm⟩

/-- After something was appended, more can be appended wherever it could be before. -/
theorem Takes.of_append (h : tree.Takes path) {other : Path} {after : FileTree} {bytes : ByteArray}
    {time : Int} (happend : tree.append other bytes time = .ok after) : after.Takes path := by
  obtain ⟨finish, hfinish, hfree⟩ := h
  obtain ⟨place, content, -, hnode, rfl⟩ := append_eq_ok happend
  refine ⟨finish, ?_, ?_⟩
  · obtain ⟨hcheck, hpath, hfollow⟩ := bind_eq_ok_iff.mp hfinish
    rw [placeOf, hpath, ok_bind]
    exact mapError_eq_ok_iff.mpr (follow_put hnode content time (mapError_eq_ok_iff.mp hfollow))
  · rw [node?_put hnode]
    split
    · exact nofun
    · exact hfree

end DriverPolicy.FileTree
