import DriverPolicy.Proofs.Attempt
import DriverPolicy.Settings.Loading
import Mathlib.Data.List.Basic

/-!
# Reading configuration files

What reading a file gives is a matter of its content. A file is promised to give the table that it
shows, and one that cannot be read to be a failure or to count as an empty table, as is asked. This is
so except for some failures to examine a file and for integers of too many digits, which are not
taken for an unreadable file. Loading a file is reading it, unless it is remembered with its time of
modification.
-/

namespace DriverPolicy

/-- What work comes to in a state, and the state after it. -/
def Loading.outcome {α : Type} (work : Loading α) (state : LoadingState) :
    Except ConfigFailure α × LoadingState :=
  work.run.run state

/-- Without carriage returns there are no line ends to unify. -/
theorem unifyLineEnds_of_not_mem {text : List Char} (h : '\r' ∉ text) :
    unifyLineEnds text = text := by
  induction text with
  | nil => rfl
  | cons c rest ih =>
    obtain ⟨hc, hrest⟩ := List.ne_and_not_mem_of_not_mem_cons h
    rw [unifyLineEnds, ih hrest]
    · rintro rest rfl
      exact absurd rfl hc
    · rintro rfl
      exact absurd rfl hc

/-- The text of a file is the one that was written, if it has no carriage returns. -/
theorem textOfFile?_toUTF8 {text : String} (h : '\r' ∉ text.toList) :
    textOfFile? text.toUTF8 = some text := by
  have hread : String.fromUTF8? text.toUTF8 = some text := by
    simp only [String.fromUTF8?, String.toUTF8_eq_toByteArray, dif_pos text.isValidUTF8]
    rfl
  rw [textOfFile?, hread, Option.map_some, unifyLineEnds_of_not_mem h, String.ofList_toList]

/-- What the bytes of a file come to as a document; nothing if they are no text. -/
def documentOf? (bytes : ByteArray) : Option (Except TomlFault TomlTable) :=
  (textOfFile? bytes).map fun text => TomlTable.parse text.toList

namespace FileTree

/-- The table that reading a file gives. -/
def tableIn (tree : FileTree) (path : Path) : Except ConfigFailure TomlTable :=
  ((readTomlFile tree path).outcome .empty).1

/-- What loading a file ought to answer: the table that its content shows, the empty table for a
missing file, and for a file that cannot be read or shows no table a failure with strictness and the
empty table without. -/
def promised (tree : FileTree) (path : Path) (strict : Bool) : Except ConfigFailure TomlTable :=
  match tree.content path with
  | .error fault =>
    if fault.problem = .notFound then .ok []
    else if strict then .error (.unreadable path) else .ok []
  | .ok bytes =>
    match documentOf? bytes with
    | some (.ok table) => .ok table
    | _ => if strict then .error (.unreadable path) else .ok []

/-- A file can be examined, or is missing. -/
def Examinable (tree : FileTree) (path : Path) : Prop :=
  ∀ fault, tree.look path = .error fault → fault.problem = .notFound

/-- Reading a file comes to an integer with too many digits. -/
def HoldsOverlong (tree : FileTree) (path : Path) : Prop :=
  ∃ bytes count, tree.content path = .ok bytes ∧
    documentOf? bytes = some (.error (.tooManyDigits count))

variable {tree other : FileTree} {path : Path}

/-- What reading a file gives is a matter of its content. -/
theorem tableIn_eq (tree : FileTree) (path : Path) : tree.tableIn path =
    match tree.content path with
    | .error fault =>
      match fault.problem with
      | .notFound => .ok []
      | .nullCharacter => .error (.file fault)
      | _ => .error (.unreadable path)
    | .ok bytes =>
      match documentOf? bytes with
      | some (.ok table) => .ok table
      | some (.error (.tooManyDigits count)) => .error (.setting (.tooManyDigits count))
      | _ => .error (.unreadable path) := by
  simp only [tableIn, readTomlFile]
  cases tree.content path with
  | error fault =>
    dsimp only
    cases fault.problem <;> rfl
  | ok bytes =>
    dsimp only
    cases htext : textOfFile? bytes with
    | none =>
      simp only [documentOf?, htext]
      rfl
    | some text =>
      simp only [documentOf?, htext, Option.map_some]
      cases TomlTable.parse text.toList with
      | ok table => rfl
      | error fault => cases fault <;> rfl

/-- Where nothing can be looked at, no file is examined or read. -/
theorem modified_content_of_look_error {fault : FileFault} (h : tree.look path = .error fault) :
    tree.modified path = .error fault ∧ tree.content path = .error fault := by
  rw [modified, content, h]
  exact ⟨rfl, rfl⟩

/-- What can be looked at has a time of modification, and is a file or a directory. -/
theorem modified_content_of_look_ok {node : FileNode} (h : tree.look path = .ok node) :
    (∃ time, tree.modified path = .ok time) ∧
      ((∃ bytes, tree.content path = .ok bytes) ∨
        tree.content path = .error ⟨.isADirectory, path.text⟩) := by
  rw [modified, content, h]
  cases node with
  | directory => exact ⟨⟨_, rfl⟩, Or.inr rfl⟩
  | file bytes time => exact ⟨⟨_, rfl⟩, Or.inl ⟨_, rfl⟩⟩

/-- A missing file gives the empty table. -/
theorem tableIn_of_missing (h : tree.modifiedIfPresent path = .ok none) :
    tree.tableIn path = .ok [] := by
  rw [modifiedIfPresent] at h
  cases hlook : tree.look path with
  | ok node =>
    obtain ⟨⟨time, hmodified⟩, -⟩ := modified_content_of_look_ok hlook
    simp [hmodified] at h
  | error fault =>
    obtain ⟨hmodified, hcontent⟩ := modified_content_of_look_error hlook
    rw [hmodified] at h
    by_cases hproblem : fault.problem = .notFound
    · rw [tableIn_eq, hcontent]
      simp only [hproblem]
    · simp [hproblem] at h

/-- The time of modification of a file that is there. -/
theorem modified_of_modifiedIfPresent {time : Int}
    (h : tree.modifiedIfPresent path = .ok (some time)) : tree.modified path = .ok time := by
  rw [modifiedIfPresent] at h
  split at h
  · next hmodified =>
    rwa [← Option.some.inj (Except.ok.inj h)]
  · split at h <;> simp at h

/-- A file that is missing twice, or has the same time of modification twice, gives the same table
if the time tells its content. -/
theorem tableIn_eq_of_time {modified : Option Int}
    (htree : tree.modifiedIfPresent path = .ok modified)
    (hother : other.modifiedIfPresent path = .ok modified)
    (h : ∀ time, tree.modified path = .ok time → other.modified path = .ok time →
      tree.content path = other.content path) : tree.tableIn path = other.tableIn path := by
  cases modified with
  | none => rw [tableIn_of_missing htree, tableIn_of_missing hother]
  | some time =>
    have hcontent := h time (modified_of_modifiedIfPresent htree)
      (modified_of_modifiedIfPresent hother)
    rw [tableIn_eq, tableIn_eq, hcontent]

/-- Reading a file reports events and changes nothing else. -/
theorem outcome_readTomlFile (tree : FileTree) (path : Path) (state : LoadingState) :
    ∃ events, (readTomlFile tree path).outcome state =
      (tree.tableIn path, { state with events := state.events ++ events }) := by
  have hquiet (result : Except ConfigFailure TomlTable) : ∃ events, (result, state) =
      (result, { state with events := state.events ++ events }) := ⟨[], by rw [List.append_nil]⟩
  simp only [tableIn, readTomlFile]
  split
  · split
    · exact ⟨[_], rfl⟩
    · exact hquiet _
    · exact hquiet _
  · split
    · exact hquiet _
    · split
      · exact ⟨[_], rfl⟩
      · exact hquiet _
      · exact hquiet _

end FileTree

/-- Without strictness a file that cannot be read counts as an empty table. -/
def leniently (strict : Bool) : Except ConfigFailure TomlTable → Except ConfigFailure TomlTable
  | .error (.unreadable path) => if strict then .error (.unreadable path) else .ok []
  | other => other

/-- Reading a file of which nothing is remembered answers as promised if and only if the file can be
examined or is missing, and no integer in it has too many digits. -/
theorem FileTree.read_eq_promised_iff (tree : FileTree) (path : Path) (strict : Bool) :
    (tree.modifiedIfPresent path >>= fun _ => leniently strict (tree.tableIn path)) =
        tree.promised path strict ↔
      tree.Examinable path ∧ ¬ tree.HoldsOverlong path := by
  rw [FileTree.tableIn_eq]
  cases hlook : tree.look path with
  | error fault =>
    obtain ⟨hmodified, hcontent⟩ := modified_content_of_look_error hlook
    have hshort : ¬ tree.HoldsOverlong path := by
      rintro ⟨bytes, count, hbytes, -⟩
      rw [hcontent] at hbytes
      contradiction
    have hexaminable : tree.Examinable path ↔ fault.problem = .notFound := by
      simp [Examinable, hlook]
    rw [and_iff_left hshort, hexaminable]
    by_cases hproblem : fault.problem = .notFound
    · simp [modifiedIfPresent, promised, hmodified, hcontent, hproblem, leniently]
    · simp only [modifiedIfPresent, promised, hmodified, hcontent, hproblem, if_false, error_bind,
        iff_false]
      cases strict <;> simp
  | ok node =>
    have hexaminable : tree.Examinable path := by simp [Examinable, hlook]
    obtain ⟨⟨time, hmodified⟩, hcontent⟩ := modified_content_of_look_ok hlook
    have hpresent : tree.modifiedIfPresent path = .ok (some time) := by
      rw [modifiedIfPresent, hmodified]
    rw [and_iff_right hexaminable, hpresent, ok_bind, promised, HoldsOverlong]
    rcases hcontent with ⟨bytes, hbytes⟩ | hdirectory
    · rw [hbytes]
      simp only [Except.ok.injEq, exists_and_left, exists_eq_left']
      cases documentOf? bytes with
      | none => simp [leniently]
      | some document =>
        match document with
        | .ok table => simp [leniently]
        | .error .malformed => simp [leniently]
        | .error (.tooManyDigits count) => cases strict <;> simp [leniently]
    · rw [hdirectory]
      simp [leniently]

/-- What is remembered of a file with a time of modification. -/
def LoadingState.recall (state : LoadingState) (path : Path) (modified : Option Int) :
    Option RememberedFile :=
  state.remembered.find? fun file => file.path = path && file.modified = modified

/-- A file that is remembered with its time of modification is not read. Otherwise it is, and its
table is remembered in the place of what was remembered of it before. -/
theorem outcome_loadConfigFile (tree : FileTree) (path : Path) (strict : Bool)
    (state : LoadingState) : (loadConfigFile tree path strict).outcome state =
      match tree.modifiedIfPresent path with
      | .error failure => (.error failure, state)
      | .ok modified =>
        match state.recall path modified with
        | some file => (.ok ⟨file.table, file.reading⟩, state)
        | none =>
          match (readTomlFile tree path).outcome state with
          | (.ok table, next) =>
            (.ok ⟨table, next.readings⟩,
              { remembered := ⟨path, table, modified, next.readings⟩ ::
                  next.remembered.filter (·.path ≠ path),
                readings := next.readings + 1, events := next.events })
          | (.error (.unreadable place), next) =>
            if strict then
              (.error (.unreadable place),
                { next with remembered := next.remembered.filter (·.path ≠ path) })
            else
              (.ok ⟨[], next.readings⟩,
                { remembered := next.remembered.filter (·.path ≠ path)
                  readings := next.readings + 1
                  events := next.events ++
                    [.configIgnored (ConfigFailure.unreadable place).message] })
          | (.error failure, next) => (.error failure, next) := by
  simp only [Loading.outcome, loadConfigFile]
  cases tree.modifiedIfPresent path with
  | error failure => rfl
  | ok modified =>
    simp only [Loading.ofExcept]
    change (match state.recall path modified with
      | some file => pure (LoadedTable.mk file.table file.reading)
      | none => _ : Loading LoadedTable).run.run state = _
    cases state.recall path modified with
    | some file => rfl
    | none =>
      dsimp only
      cases hread : (readTomlFile tree path).run.run state with
      | mk result next =>
        simp only [ExceptT.run, StateT.run] at hread
        simp only [bind, ExceptT.bind, ExceptT.mk, ExceptT.run, StateT.run, StateT.bind, tryCatch,
          tryCatchThe, MonadExceptOf.tryCatch, ExceptT.tryCatch, hread]
        cases result with
        | ok table => rfl
        | error failure =>
          cases failure with
          | unreadable place => cases strict <;> rfl
          | _ => rfl

/-- A file is remembered as it is in a tree. -/
def RememberedFile.AsIn (file : RememberedFile) (tree : FileTree) : Prop :=
  tree.modifiedIfPresent file.path = .ok file.modified ∧ tree.tableIn file.path = .ok file.table

/-- Loading a file answers what is remembered of it with its time of modification, and otherwise what
reading it gives. What is remembered then was so before, or is as in the tree. -/
theorem loadConfigFile_spec (tree : FileTree) (path : Path) (strict : Bool)
    (state : LoadingState) :
    ((loadConfigFile tree path strict).outcome state).1.map LoadedTable.table =
        (tree.modifiedIfPresent path >>= fun modified =>
          match state.recall path modified with
          | some file => .ok file.table
          | none => leniently strict (tree.tableIn path)) ∧
      ∀ file ∈ ((loadConfigFile tree path strict).outcome state).2.remembered,
        file ∈ state.remembered ∨ file.AsIn tree := by
  rw [outcome_loadConfigFile]
  cases hmodified : tree.modifiedIfPresent path with
  | error failure => exact ⟨rfl, fun _ => Or.inl⟩
  | ok modified =>
    rw [ok_bind]
    dsimp only
    cases state.recall path modified with
    | some known => exact ⟨rfl, fun _ => Or.inl⟩
    | none =>
      obtain ⟨events, hread⟩ := FileTree.outcome_readTomlFile tree path state
      rw [hread]
      have hforgotten : ∀ file ∈ state.remembered.filter (·.path ≠ path),
          file ∈ state.remembered ∨ file.AsIn tree := fun _ h => Or.inl (List.mem_filter.mp h).1
      cases htable : tree.tableIn path with
      | ok table =>
        refine ⟨rfl, fun file h => ?_⟩
        rcases List.mem_cons.mp h with rfl | hold
        · exact Or.inr ⟨hmodified, htable⟩
        · exact hforgotten file hold
      | error failure =>
        cases failure with
        | unreadable place => cases strict <;> exact ⟨rfl, hforgotten⟩
        | _ => exact ⟨rfl, fun _ => Or.inl⟩

end DriverPolicy
