import DriverPolicy.Proofs.Settings.Reading
import DriverPolicy.Proofs.Toml.Overlong
import Mathlib.Data.List.Induction
import Mathlib.Data.List.Infix

/-!
# Remembered configuration files

A session writes, removes and loads files in any order, and may forget what it remembers of them. As
long as the time of modification of a file tells its content, what is remembered makes no difference:
loading answers as if nothing was. For each remembered file was as it is remembered at some time in
the course of the session.
-/

namespace DriverPolicy

/-- What can happen to files and to what is remembered of them. -/
inductive FileStep where
  | write (path : Path) (bytes : ByteArray) (time : Int)
  | remove (path : Path)
  | load (path : Path) (strict : Bool)
  | forget

/-- Files, and what is remembered of them. -/
structure FileSession where
  /-- The files. -/
  tree : FileTree
  /-- What is remembered. -/
  state : LoadingState

namespace FileSession

/-- The session after a step. Writing and removing change nothing if they fail. -/
def advance (session : FileSession) : FileStep → FileSession
  | .write path bytes time =>
    { session with tree := (session.tree.write path bytes time).toOption.getD session.tree }
  | .remove path => { session with tree := (session.tree.remove path).toOption.getD session.tree }
  | .load path strict =>
    { session with state := ((loadConfigFile session.tree path strict).outcome session.state).2 }
  | .forget => { session with state := (Loading.forgetAll.outcome session.state).2 }

/-- The session after steps that begin with files of which nothing is remembered. -/
def after (tree : FileTree) (steps : List FileStep) : FileSession :=
  steps.foldl advance ⟨tree, .empty⟩

/-- The trees of files in the course of steps. -/
def trees (tree : FileTree) (steps : List FileStep) : List FileTree :=
  steps.inits.map fun earlier => (after tree earlier).tree

/-- What loading a file answers now. -/
def answer (session : FileSession) (path : Path) (strict : Bool) : Except ConfigFailure TomlTable :=
  ((loadConfigFile session.tree path strict).outcome session.state).1.map LoadedTable.table

/-- In the course of steps, the time of modification of a file tells its content. -/
def TimeTells (tree : FileTree) (steps : List FileStep) (path : Path) : Prop :=
  ∀ earlier ∈ trees tree steps, ∀ later ∈ trees tree steps, ∀ time,
    earlier.modified path = .ok time → later.modified path = .ok time →
      earlier.content path = later.content path

variable {tree : FileTree} {steps : List FileStep} {path : Path}

/-- The last step comes after the others. -/
theorem after_concat (tree : FileTree) (steps : List FileStep) (step : FileStep) :
    after tree (steps ++ [step]) = (after tree steps).advance step :=
  List.foldl_concat ..

/-- The tree after all steps is the last one of their course. -/
theorem tree_after_mem_trees (tree : FileTree) (steps : List FileStep) :
    (after tree steps).tree ∈ trees tree steps :=
  List.mem_map_of_mem ((List.mem_inits _ _).mpr List.prefix_rfl)

/-- More steps go on with the course of the others. -/
theorem mem_trees_concat {now : FileTree} (h : now ∈ trees tree steps) (step : FileStep) :
    now ∈ trees tree (steps ++ [step]) := by
  obtain ⟨earlier, hearlier, rfl⟩ := List.mem_map.mp h
  refine List.mem_map_of_mem ((List.mem_inits _ _).mpr ?_)
  exact ((List.mem_inits _ _).mp hearlier).trans (List.prefix_append ..)

/-- A step adds nothing to what is remembered that is not as in the tree. -/
theorem mem_remembered_advance {session : FileSession} {step : FileStep} {file : RememberedFile}
    (h : file ∈ (session.advance step).state.remembered) :
    file ∈ session.state.remembered ∨ file.AsIn session.tree := by
  cases step with
  | write path bytes time => exact Or.inl h
  | remove path => exact Or.inl h
  | load path strict => exact (loadConfigFile_spec ..).2 file h
  | forget => exact absurd h List.not_mem_nil

/-- Each file is remembered as it was at some time in the course of the steps. -/
theorem exists_asIn_of_remembered {file : RememberedFile}
    (h : file ∈ (after tree steps).state.remembered) : ∃ earlier ∈ trees tree steps,
      file.AsIn earlier := by
  induction steps using List.reverseRecOn with
  | nil => exact absurd h List.not_mem_nil
  | append_singleton steps step ih =>
    rw [after_concat] at h
    rcases mem_remembered_advance h with hold | hnow
    · obtain ⟨earlier, hearlier, hasIn⟩ := ih hold
      exact ⟨earlier, mem_trees_concat hearlier step, hasIn⟩
    · exact ⟨_, mem_trees_concat (tree_after_mem_trees tree steps) step, hnow⟩

/-- If the time of modification of a file tells its content, then what is remembered of it makes no
difference. -/
theorem answer_after (h : TimeTells tree steps path) (strict : Bool) :
    (after tree steps).answer path strict =
      (after tree steps).tree.modifiedIfPresent path >>= fun _ =>
        leniently strict ((after tree steps).tree.tableIn path) := by
  rw [answer, (loadConfigFile_spec ..).1]
  cases hnow : (after tree steps).tree.modifiedIfPresent path with
  | error failure => rfl
  | ok modified =>
    rw [ok_bind, ok_bind]
    cases hrecall : (after tree steps).state.recall path modified with
    | none => rfl
    | some file =>
      have hfile := List.find?_some hrecall
      simp only [Bool.and_eq_true, decide_eq_true_eq] at hfile
      obtain ⟨rfl, rfl⟩ := hfile
      obtain ⟨earlier, hearlier, hmodified, htable⟩ :=
        exists_asIn_of_remembered (List.mem_of_find?_eq_some hrecall)
      have hsame := FileTree.tableIn_eq_of_time hmodified hnow
        (h earlier hearlier _ (tree_after_mem_trees tree steps))
      rw [← hsame, htable]
      rfl

/-- If the time of modification of a file tells its content in the course of steps, then loading it
answers as if nothing was remembered, and answers as promised if and only if the file can be examined
or is missing, and no integer in it has too many digits. -/
theorem answer_after_eq_promised_iff (tree : FileTree) (steps : List FileStep) (path : Path)
    (strict : Bool) (h : TimeTells tree steps path) :
    (after tree steps).answer path strict =
        (⟨(after tree steps).tree, .empty⟩ : FileSession).answer path strict ∧
      ((after tree steps).answer path strict = (after tree steps).tree.promised path strict ↔
        (after tree steps).tree.Examinable path ∧ ¬ (after tree steps).tree.HoldsOverlong path) := by
  rw [answer_after h, FileTree.read_eq_promised_iff]
  refine ⟨?_, Iff.rfl⟩
  rw [answer, (loadConfigFile_spec ..).1]
  rfl

/-- A file that was loaded, became malformed and was loaded again, of which nothing is promised but
the empty table. -/
theorem answer_after_malformed :
    let path : Path := ⟨.root, ["config.toml"]⟩
    let steps : List FileStep := [.write path "a = 1".toUTF8 1001, .load path true,
      .write path "a =".toUTF8 1002, .load path false]
    TimeTells ⟨[], []⟩ steps path ∧
      (after ⟨[], []⟩ steps).answer path false =
        (⟨(after ⟨[], []⟩ steps).tree, .empty⟩ : FileSession).answer path false := by
  intro path steps
  have hsame : ∀ earlier ∈ trees ⟨[], []⟩ steps, ∀ later ∈ trees ⟨[], []⟩ steps,
      earlier.modified path = later.modified path →
        earlier.content path = later.content path := by
    decide +kernel
  have h : TimeTells ⟨[], []⟩ steps path :=
    fun earlier hearlier later hlater time htime hlatest =>
      hsame earlier hearlier later hlater (htime.trans hlatest.symm)
  exact ⟨h, (answer_after_eq_promised_iff _ _ _ _ h).1⟩

/-- A file with one integer, of which all digits are ones. -/
def onesFile (count : Nat) : ByteArray :=
  (String.ofList ("n = ".toList ++ List.replicate count '1')).toUTF8

/-- If there are too many digits, the file is a faulty document. -/
theorem documentOf?_onesFile {count : Nat} (h : integerDigitLimit < count) :
    documentOf? (onesFile count) = some (.error (.tooManyDigits count)) := by
  have hreturn : '\r' ∉ (String.ofList ("n = ".toList ++ List.replicate count '1')).toList := by
    simp [List.mem_replicate]
  rw [documentOf?, onesFile, textOfFile?_toUTF8 hreturn, Option.map_some, String.toList_ofList,
    Toml.parse_ones h]

/-- A file that was written into an empty directory is there, and was not before. -/
theorem content_after_write (bytes : ByteArray) (time : Int) :
    let path : Path := ⟨.root, ["config.toml"]⟩
    let steps : List FileStep := [.write path bytes time]
    TimeTells ⟨[], []⟩ steps path ∧
      (after ⟨[], []⟩ steps).tree.modifiedIfPresent path = .ok (some time) ∧
      (after ⟨[], []⟩ steps).tree.content path = .ok bytes := by
  intro path steps
  have hplace (tree : FileTree) : tree.placeOf path = .ok ["config.toml"] := by
    have hpath : FileTree.checkPath path.text = .ok () := by decide
    rw [FileTree.placeOf, hpath, ok_bind, FileTree.follow]
    rw [if_neg (by decide), if_neg (by decide), if_pos rfl]
    rfl
  have hmissing : (⟨[], []⟩ : FileTree).modified path = .error ⟨.notFound, path.text⟩ := by
    rw [FileTree.modified, FileTree.look, hplace]
    rfl
  have hwritten : (after ⟨[], []⟩ steps).tree =
      FileTree.put ⟨[], []⟩ ["config.toml"] (.file bytes time) := by
    change ((FileTree.write ⟨[], []⟩ path bytes time).toOption.getD _) = _
    rw [FileTree.write, hplace]
    rfl
  have htime : (after ⟨[], []⟩ steps).tree.modifiedIfPresent path = .ok (some time) := by
    rw [hwritten, FileTree.modifiedIfPresent, FileTree.modified, FileTree.look, hplace]
    rfl
  have hcontent : (after ⟨[], []⟩ steps).tree.content path = .ok bytes := by
    rw [hwritten, FileTree.content, FileTree.look, hplace]
    rfl
  have htrees : trees ⟨[], []⟩ steps = [⟨[], []⟩, (after ⟨[], []⟩ steps).tree] := rfl
  have htells : TimeTells ⟨[], []⟩ steps path := by
    intro earlier hearlier later hlater moment hbefore hafter
    rw [htrees, List.mem_pair] at hearlier hlater
    rcases hearlier with rfl | rfl <;> rcases hlater with rfl | rfl
    · rfl
    · simp [hmissing] at hbefore
    · simp [hmissing] at hafter
    · rfl
  exact ⟨htells, htime, hcontent⟩

/-- A file that comes to an integer with too many digits makes loading fail, strict or not. -/
theorem answer_after_write {bytes : ByteArray} {count : Nat} (time : Int) (strict : Bool)
    (h : documentOf? bytes = some (.error (.tooManyDigits count))) :
    let path : Path := ⟨.root, ["config.toml"]⟩
    let session := after ⟨[], []⟩ [.write path bytes time]
    session.answer path strict = .error (.setting (.tooManyDigits count)) ∧
      session.tree.promised path strict = if strict then .error (.unreadable path) else .ok [] := by
  intro path session
  obtain ⟨htells, htime, hcontent⟩ := content_after_write bytes time
  refine ⟨?_, ?_⟩
  · rw [answer_after htells, htime, ok_bind, FileTree.tableIn_eq, hcontent]
    dsimp only
    rw [h]
    rfl
  · rw [FileTree.promised, hcontent]
    dsimp only
    rw [h]

/-- A file with an integer of too many digits is not ignored without strictness. -/
theorem answer_after_overlong_integer :
    let path : Path := ⟨.root, ["config.toml"]⟩
    let steps : List FileStep := [.write path (onesFile 4301) 1001]
    TimeTells ⟨[], []⟩ steps path ∧
      (after ⟨[], []⟩ steps).answer path false = .error (.setting (.tooManyDigits 4301)) ∧
      (after ⟨[], []⟩ steps).tree.promised path false = .ok [] :=
  ⟨(content_after_write _ _).1,
    answer_after_write 1001 false (documentOf?_onesFile (by decide))⟩

end FileSession

end DriverPolicy
