import DriverPolicy.Proofs.Settings.Failure

/-!
# What a configuration file says

Seven keys in two tables of a configuration file are documented, each with a type of its own. A file
is faulty if something else has the name of one of the tables, or if a key has a value of another
type than its own. Otherwise it says what the values of the keys say, and nothing else in it
matters.
-/

namespace DriverPolicy

/-- A path below wherever one is whose first name begins with a tilde. -/
def Path.BeginsWithTilde (path : Path) : Prop :=
  path.start = .here ∧ ∃ name ∈ path.names.head?, name.toList.head? = some '~'

/-- No home is looked for unless a path begins with a tilde. -/
theorem Homes.expand_of_not_tilde (homes : Homes) {path : Path} (h : ¬ path.BeginsWithTilde) :
    homes.expand path = .ok path := by
  rw [expand]
  split
  · next name rest hstart hnames =>
    split
    · next user hname => exact absurd ⟨hstart, name, by simp [hnames], by simp [hname]⟩ h
    · rfl
  · rfl

/-- A value is of a type that settings have in a file. No truth value is an integer, and no integer
is a truth value. -/
inductive TomlValue.HasType : TomlValue → SettingType → Prop
  | text (value : String) : HasType (.text value) .text
  | integer (value : Int) : HasType (.integer value) .integer
  | boolean (value : Bool) : HasType (.boolean value) .boolean

/-- The values of a type. -/
abbrev SettingType.Value : SettingType → Type
  | text => String
  | integer => Int
  | boolean => Bool

namespace TomlValue

/-- The value of a type that a value in a file is. -/
def as? : (type : SettingType) → TomlValue → Option type.Value
  | .text, .text value => some value
  | .integer, .integer value => some value
  | .boolean, .boolean value => some value
  | _, _ => none

/-- A value is one of a type if it is of the type. -/
theorem isSome_as? {type : SettingType} {value : TomlValue} :
    (value.as? type).isSome = true ↔ value.HasType type := by
  constructor
  · intro h
    cases type <;> cases value <;> first | contradiction | constructor
  · rintro (_ | _ | _) <;> rfl

/-- Only a text is the text that it is. -/
theorem as?_text_eq_some_iff {value : TomlValue} {text : String} :
    value.as? .text = some text ↔ value = .text text := by
  cases value <;> simp [as?]

end TomlValue

namespace Setting

/-- The table of a setting in a file. -/
def tableName : Setting → String
  | defaultNamespace => "resolver"
  | _ => "logging"

/-- The key of a setting in its table. -/
def key : Setting → String
  | defaultNamespace => "default_namespace"
  | level => "level"
  | file => "file"
  | format => "format"
  | includeStderr => "include_stderr"
  | maxBytes => "max_bytes"
  | backupCount => "backup_count"

/-- The type that the value of a setting has in a file. -/
def fileType : Setting → SettingType
  | includeStderr => .boolean
  | maxBytes | backupCount => .integer
  | _ => .text

/-- What a value in a file says about a setting. An empty path of a log file says nothing. -/
def ofToml? : (setting : Setting) → TomlValue → Option setting.Value
  | defaultNamespace, value => value.as? .text
  | level, value => value.as? .text
  | file, value => (value.as? .text).bind fun text => if text = "" then none else some (.parse text)
  | format, value => value.as? .text
  | includeStderr, value => value.as? .boolean
  | maxBytes, value => value.as? .integer
  | backupCount, value => value.as? .integer

end Setting

namespace TomlTable

/-- What has the name of a table in a file and is none. -/
def misplaced? (file : TomlTable) (name : String) : Option TomlValue :=
  match file.find? name with
  | some (.table _) => none
  | other => other

/-- The table of a name in a file; without one it counts as empty. -/
def fieldsOf (file : TomlTable) (name : String) : TomlTable :=
  match file.find? name with
  | some (.table fields) => fields
  | _ => []

/-- The value of the key of a setting. -/
def valueOf? (file : TomlTable) (setting : Setting) : Option TomlValue :=
  (file.fieldsOf setting.tableName).find? setting.key

/-- One of the two tables is something else, or a documented key has a value of another type than
its own. -/
def IsFaulty (file : TomlTable) : Prop :=
  (∃ name ∈ ["resolver", "logging"], ∃ value ∈ file.find? name, ∀ fields, value ≠ .table fields) ∨
    ∃ setting, ∃ value ∈ file.valueOf? setting, ¬ value.HasType setting.fileType

/-- Two files agree in what is documented: in what has the name of one of the two tables and is
none, and in the values of the documented keys. -/
structure SameDocumented (a b : TomlTable) : Prop where
  /-- What is in the place of a table is the same. -/
  misplaced : ∀ name ∈ ["resolver", "logging"], a.misplaced? name = b.misplaced? name
  /-- The documented keys have the same values. -/
  values : ∀ setting, a.valueOf? setting = b.valueOf? setting

/-- The log file of a file begins with a tilde when it is read as a path. -/
def NamesHome (file : TomlTable) : Prop :=
  ∃ text, file.valueOf? .file = some (.text text) ∧ (Path.parse text).BeginsWithTilde

/-- What is in the place of a table has its name and is none. -/
theorem misplaced?_eq_some_iff {file : TomlTable} {name : String} {value : TomlValue} :
    file.misplaced? name = some value ↔
      file.find? name = some value ∧ ∀ fields, value ≠ .table fields := by
  rw [misplaced?]
  split
  · next fields hfields =>
    rw [hfields]
    simp only [reduceCtorEq, Option.some.injEq, false_iff, not_and, not_forall, not_not]
    rintro rfl
    exact ⟨fields, rfl⟩
  · next htable =>
    refine ⟨fun h => ⟨h, ?_⟩, And.left⟩
    rintro fields rfl
    exact htable fields h

/-- A file is not faulty if neither table is something else and the documented keys have values of
their own types. -/
theorem not_isFaulty_iff {file : TomlTable} : ¬ file.IsFaulty ↔
    (∀ name ∈ ["resolver", "logging"], file.misplaced? name = none) ∧
      ∀ setting, ∀ value ∈ file.valueOf? setting, value.HasType setting.fileType := by
  simp only [IsFaulty, not_or, not_exists, not_and, not_not, Option.eq_none_iff_forall_ne_some,
    ne_eq, misplaced?_eq_some_iff, Option.mem_def]

end TomlTable

namespace SettingSource

open TomlTable

variable {homes : Homes} {file table : TomlTable} {name : String}

/-- A table is read unless something else is in its place. -/
theorem tableOf_eq (file : TomlTable) (name : String) : tableOf file name =
    match file.misplaced? name with
    | none => .ok (file.fieldsOf name)
    | some value => .error (.notATable name value.term) := by
  rw [tableOf, misplaced?, fieldsOf]
  split <;> simp_all

/-- A table is read if nothing else is in its place. -/
theorem tableOf_eq_ok_iff {fields : TomlTable} : tableOf file name = .ok fields ↔
    file.misplaced? name = none ∧ fields = file.fieldsOf name := by
  rw [tableOf_eq]
  cases file.misplaced? name <;> simp [@eq_comm _ fields]

/-- Read a key whose value is of some type, if it is there. -/
def valueAs (type : SettingType) (table : TomlTable) (tableName key : String) :
    Except SettingFault (Option type.Value) :=
  match table.find? key with
  | none => .ok none
  | some value =>
    match value.as? type with
    | some picked => .ok (some picked)
    | none => .error (.wrongType tableName key type value.term)

/-- The three ways to read a key are one. -/
theorem readers_eq :
    textOf = valueAs .text ∧ integerOf = valueAs .integer ∧ booleanOf = valueAs .boolean := by
  refine ⟨?_, ?_, ?_⟩ <;>
    · funext table tableName key
      simp only [textOf, integerOf, booleanOf, valueAs]
      cases table.find? key with
      | none => rfl
      | some value => cases value <;> rfl

/-- Reading a key succeeds if its value, if it has one, is of the type. -/
theorem valueAs_eq_ok_iff {type : SettingType} {key : String} {said : Option type.Value} :
    valueAs type table name key = .ok said ↔
      (∀ value ∈ table.find? key, value.HasType type) ∧
        said = (table.find? key).bind (TomlValue.as? type) := by
  rw [valueAs]
  cases table.find? key with
  | none => simp [@eq_comm _ said]
  | some value =>
    cases hpicked : value.as? type <;> simp [← TomlValue.isSome_as?, hpicked, @eq_comm _ said]

/-- Unless the path begins with a tilde, it is the one that the text says. -/
theorem logPath_of_not_tilde (homes : Homes) {said : Option String}
    (h : ∀ text ∈ said, ¬ (Path.parse text).BeginsWithTilde) :
    logPath homes said =
      .ok (said.bind fun text => if text = "" then none else some (.parse text)) := by
  cases said with
  | none => rfl
  | some text =>
    by_cases hempty : text = ""
    · subst hempty
      rfl
    · rw [logPath_some homes hempty, homes.expand_of_not_tilde (h text rfl)]
      simp only [Option.bind_some, if_neg hempty]
      rfl

/-- What follows two tables of a name is the same if nothing else is in the place of one that is not
in that of the other. -/
theorem tableOf_bind_congr {α : Type} {a b : TomlTable} {f g : TomlTable → Except ConfigFailure α}
    (h : a.misplaced? name = b.misplaced? name)
    (hnext : f (a.fieldsOf name) = g (b.fieldsOf name)) :
    (failing (tableOf a name) >>= f) = failing (tableOf b name) >>= g := by
  rw [tableOf_eq, tableOf_eq, h]
  cases b.misplaced? name with
  | none => exact hnext
  | some value => rfl

/-- What follows a key is the same if its value is. -/
theorem valueAs_bind_congr {α : Type} {type : SettingType} {a b : TomlTable} {key : String}
    {f g : Option type.Value → Except ConfigFailure α} (h : a.find? key = b.find? key)
    (hnext : ∀ said, f said = g said) :
    (failing (valueAs type a name key) >>= f) = failing (valueAs type b name key) >>= g := by
  rw [valueAs, valueAs, h]
  exact bind_congr hnext

/-- Files that agree in what is documented say the same, or fail in the same way. -/
theorem ofFile_congr (homes : Homes) {a b : TomlTable} (h : SameDocumented a b) :
    ofFile homes a = ofFile homes b := by
  obtain ⟨htext, hinteger, hboolean⟩ := readers_eq
  rw [ofFile_eq, ofFile_eq, htext, hinteger, hboolean]
  refine tableOf_bind_congr (h.misplaced _ (by simp)) ?_
  refine tableOf_bind_congr (h.misplaced _ (by simp)) ?_
  exact valueAs_bind_congr (h.values .file) fun fileText =>
    valueAs_bind_congr (h.values .defaultNamespace) fun name =>
      valueAs_bind_congr (h.values .level) fun level => bind_congr fun path =>
        valueAs_bind_congr (h.values .format) fun format =>
          valueAs_bind_congr (h.values .includeStderr) fun flag =>
            valueAs_bind_congr (h.values .maxBytes) fun size =>
              valueAs_bind_congr (h.values .backupCount) fun count => rfl

/-- A file that is read is not faulty. -/
theorem not_isFaulty_of_ofFile {source : SettingSource} (h : ofFile homes file = .ok source) :
    ¬ file.IsFaulty := by
  obtain ⟨htext, hinteger, hboolean⟩ := readers_eq
  rw [ofFile_eq, htext, hinteger, hboolean] at h
  simp only [bind_eq_ok_iff, failing_eq_ok_iff, tableOf_eq_ok_iff] at h
  obtain ⟨_, ⟨hresolver, rfl⟩, _, ⟨hlogging, rfl⟩, _, hfile, _, hname, _, hlevel, _, -, _, hformat,
    _, hflag, _, hsize, _, hcount, -⟩ := h
  refine not_isFaulty_iff.mpr ⟨by simp [hresolver, hlogging], fun setting => ?_⟩
  cases setting with
  | defaultNamespace => exact (valueAs_eq_ok_iff.mp hname).1
  | level => exact (valueAs_eq_ok_iff.mp hlevel).1
  | file => exact (valueAs_eq_ok_iff.mp hfile).1
  | format => exact (valueAs_eq_ok_iff.mp hformat).1
  | includeStderr => exact (valueAs_eq_ok_iff.mp hflag).1
  | maxBytes => exact (valueAs_eq_ok_iff.mp hsize).1
  | backupCount => exact (valueAs_eq_ok_iff.mp hcount).1

/-- Unless its log file begins with a tilde, a file that is not faulty says what the values of its
documented keys say. -/
theorem exists_ofFile (homes : Homes) (htilde : ¬ file.NamesHome) (h : ¬ file.IsFaulty) :
    ∃ source, ofFile homes file = .ok source ∧
      ∀ setting, source.value? setting = (file.valueOf? setting).bind setting.ofToml? := by
  obtain ⟨hmisplaced, htyped⟩ := not_isFaulty_iff.mp h
  have hread (setting : Setting) :
      valueAs setting.fileType (file.fieldsOf setting.tableName) setting.tableName setting.key =
        .ok ((file.valueOf? setting).bind (TomlValue.as? setting.fileType)) :=
    valueAs_eq_ok_iff.mpr ⟨htyped setting, rfl⟩
  have hpath : logPath homes ((file.valueOf? .file).bind (TomlValue.as? .text)) =
      .ok (((file.valueOf? .file).bind (TomlValue.as? .text)).bind
        fun text => if text = "" then none else some (.parse text)) := by
    refine logPath_of_not_tilde homes fun text htext hbegins => htilde ⟨text, ?_, hbegins⟩
    obtain ⟨value, hvalue, hpicked⟩ := Option.bind_eq_some_iff.mp htext
    rw [hvalue, TomlValue.as?_text_eq_some_iff.mp hpicked]
  obtain ⟨htext, hinteger, hboolean⟩ := readers_eq
  rw [ofFile_eq, htext, hinteger, hboolean]
  simp only [bind_eq_ok_iff, failing_eq_ok_iff, tableOf_eq_ok_iff]
  refine ⟨_, ⟨_, ⟨hmisplaced _ (by simp), rfl⟩, _, ⟨hmisplaced _ (by simp), rfl⟩, _, hread .file, _,
    hread .defaultNamespace, _, hread .level, _, hpath, _, hread .format, _, hread .includeStderr,
    _, hread .maxBytes, _, hread .backupCount, rfl⟩, fun setting => ?_⟩
  cases setting with
  | file => exact Option.bind_assoc ..
  | _ => rfl

/-- Only for a log file that begins with a tilde is there no home. -/
theorem namesHome_of_ofFile {cause : HomeFault} (h : ofFile homes file = .error cause.failure) :
    file.NamesHome := by
  obtain ⟨-, logging, text, -, hlogging, htext, -, -, -, hexpand⟩ := ofFile_eq_failure_iff.mp h
  rw [tableOf_eq_ok_iff] at hlogging
  rw [readers_eq.1, valueAs_eq_ok_iff] at htext
  obtain ⟨-, rfl⟩ := hlogging
  obtain ⟨value, hvalue, hpicked⟩ := Option.bind_eq_some_iff.mp htext.2.symm
  refine ⟨text, hvalue.trans (congrArg some (TomlValue.as?_text_eq_some_iff.mp hpicked)), ?_⟩
  by_contra htilde
  rw [homes.expand_of_not_tilde htilde] at hexpand
  contradiction

/-- Unless the path of its log file begins with a tilde, a file has a faulty setting if and only if
one of the two tables is something else or a documented key has a value of another type than its
own. Otherwise it says about each setting what the value of its key says, and nothing without one.
In either case what is not documented makes no difference. -/
theorem ofFile_documented (homes : Homes) {file : TomlTable} (htilde : ¬ file.NamesHome) :
    ((∃ fault, ofFile homes file = .error (.setting fault)) ↔ file.IsFaulty) ∧
    (¬ file.IsFaulty → ∃ source, ofFile homes file = .ok source ∧
      ∀ setting, source.value? setting = (file.valueOf? setting).bind setting.ofToml?) ∧
    ∀ other, file.SameDocumented other → ofFile homes other = ofFile homes file := by
  refine ⟨⟨?_, fun hfaulty => ?_⟩, exists_ofFile homes htilde, fun other h =>
    (ofFile_congr homes h).symm⟩
  · rintro ⟨fault, hfault⟩
    by_contra hsound
    obtain ⟨source, hsource, -⟩ := exists_ofFile homes htilde hsound
    rw [hsource] at hfault
    contradiction
  · cases hread : ofFile homes file with
    | ok source => exact absurd hfaulty (not_isFaulty_of_ofFile hread)
    | error failure =>
      rcases failsOnly_ofFile homes file failure hread with ⟨cause, rfl⟩ | ⟨fault, rfl⟩
      · exact absurd (namesHome_of_ofFile hread) htilde
      · exact ⟨fault, rfl⟩

/-- A truth value is no size, whatever else the file holds. -/
theorem ofFile_documented_truth_value :
    (∃ fault, ofFile ⟨⟨.root, []⟩, []⟩ [("logging", .table [("max_bytes", .boolean true)])] =
      .error (.setting fault)) ∧
    ofFile ⟨⟨.root, []⟩, []⟩ [("other", .integer 1),
        ("logging", .table [("color", .list []), ("max_bytes", .boolean true)])] =
      ofFile ⟨⟨.root, []⟩, []⟩ [("logging", .table [("max_bytes", .boolean true)])] := by
  have htilde : ¬ TomlTable.NamesHome [("logging", .table [("max_bytes", .boolean true)])] := by
    rintro ⟨text, htext, -⟩
    simp [TomlTable.valueOf?, TomlTable.fieldsOf, TomlTable.find?, Setting.tableName, Setting.key]
      at htext
  obtain ⟨hfaulty, -, hsame⟩ := ofFile_documented ⟨⟨.root, []⟩, []⟩ htilde
  refine ⟨hfaulty.mpr (Or.inr ⟨.maxBytes, .boolean true, rfl, nofun⟩), hsame _ ⟨?_, ?_⟩⟩
  · simp [TomlTable.misplaced?, TomlTable.find?]
  · intro setting
    cases setting <;> rfl

/-- A text that does not begin with a tilde can begin with one as a path: the tilde is replaced. -/
theorem ofFile_tilde_below_point :
    "./~/x.log".toList.head? ≠ some '~' ∧
      Path.parse "./~/x.log" = ⟨.here, ["~", "x.log"]⟩ ∧
      ofFile ⟨⟨.root, ["home"]⟩, []⟩ [("logging", .table [("file", .text "./~/x.log")])] =
        .ok { empty with file := some ⟨.root, ["home", "x.log"]⟩ } := by
  decide

end SettingSource

end DriverPolicy
