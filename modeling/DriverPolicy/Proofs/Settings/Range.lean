import DriverPolicy.Proofs.Attempt
import DriverPolicy.Settings.Layers

/-!
# Values of settings and their ranges

The values of a setting are of one type, and some of them are in range. Checking a configuration
succeeds if and only if all its values are in range, and otherwise tells of one that is not.
-/

namespace DriverPolicy

/-- A part of a dotted name begins with a letter or an underscore and goes on with letters, digits
and underscores. -/
def IsNamePart : List Char → Prop
  | [] => False
  | c :: rest => beginsNamePart c = true ∧ ∀ d ∈ rest, continuesNamePart d = true

/-- Parts with points between them. -/
inductive IsDotted : List Char → Prop
  | part {part : List Char} : IsNamePart part → IsDotted part
  | point {part rest : List Char} : IsNamePart part → IsDotted rest → IsDotted (part ++ '.' :: rest)

/-- No part of a name holds a point. -/
theorem ne_point_of_continuesNamePart {c : Char} (h : continuesNamePart c = true) : c ≠ '.' := by
  rintro rfl
  revert h
  decide

/-- Parts with points between them begin with a part, which goes on up to a point or the end. -/
theorem IsDotted.exists_eq_cons {text : List Char} (h : IsDotted text) :
    ∃ c rest, text = c :: rest ∧ beginsNamePart c = true ∧
      ((∀ d ∈ rest, continuesNamePart d = true) ∨ ∃ part after, rest = part ++ '.' :: after ∧
        (∀ d ∈ part, continuesNamePart d = true) ∧ IsDotted after) := by
  cases h with
  | part hpart =>
    match text, hpart with
    | c :: rest, ⟨hc, hrest⟩ => exact ⟨c, rest, rfl, hc, Or.inl hrest⟩
  | @point part rest hpart hdotted =>
    match part, hpart with
    | c :: others, ⟨hc, hothers⟩ =>
      exact ⟨c, _, rfl, hc, Or.inr ⟨others, rest, rfl, hothers, hdotted⟩⟩

/-- The scan for a dotted name accepts parts with points between them, and from inside of a part
what goes on with it. -/
theorem isDottedRest_iff (text : List Char) :
    (isDottedRest false text = true ↔ IsDotted text) ∧
      (isDottedRest true text = true ↔ (∀ d ∈ text, continuesNamePart d = true) ∨
        ∃ part after, text = part ++ '.' :: after ∧ (∀ d ∈ part, continuesNamePart d = true) ∧
          IsDotted after) := by
  induction text with
  | nil =>
    refine ⟨iff_of_false (by simp [isDottedRest]) fun h => ?_, by simp [isDottedRest]⟩
    obtain ⟨c, rest, heq, -⟩ := h.exists_eq_cons
    exact List.cons_ne_nil c rest heq.symm
  | cons c text ih =>
    obtain ⟨ihfresh, ihbegun⟩ := ih
    constructor
    · rw [isDottedRest, if_neg Bool.false_ne_true, Bool.and_eq_true, ihbegun]
      constructor
      · rintro ⟨hc, hrest | ⟨part, after, rfl, hpart, hafter⟩⟩
        · exact .part ⟨hc, hrest⟩
        · exact IsDotted.point (show IsNamePart (c :: part) from ⟨hc, hpart⟩) hafter
      · intro h
        obtain ⟨_, _, heq, hc, hrest⟩ := h.exists_eq_cons
        obtain ⟨rfl, rfl⟩ := List.cons.inj heq
        exact ⟨hc, hrest⟩
    · rw [isDottedRest, if_pos rfl]
      by_cases hpoint : c = '.'
      · subst hpoint
        rw [if_pos rfl, ihfresh]
        constructor
        · intro h
          exact Or.inr ⟨[], text, rfl, by simp, h⟩
        · rintro (h | ⟨part, after, heq, hpart, hafter⟩)
          · exact absurd rfl (ne_point_of_continuesNamePart (h _ List.mem_cons_self))
          · match part with
            | [] => exact (List.cons.inj heq).2 ▸ hafter
            | d :: part =>
              refine absurd (List.cons.inj heq).1.symm (ne_point_of_continuesNamePart (hpart d ?_))
              exact List.mem_cons_self
      · rw [if_neg hpoint, Bool.and_eq_true, ihbegun, and_or_left]
        refine or_congr (by simp) ⟨?_, ?_⟩
        · rintro ⟨hc, part, after, rfl, hpart, hafter⟩
          exact ⟨c :: part, after, rfl, by simpa using ⟨hc, hpart⟩, hafter⟩
        · rintro ⟨part, after, heq, hpart, hafter⟩
          match part with
          | [] => exact absurd (List.cons.inj heq).1 hpoint
          | d :: part =>
            obtain ⟨rfl, rfl⟩ := List.cons.inj heq
            rw [List.forall_mem_cons] at hpart
            exact ⟨hpart.1, part, after, rfl, hpart.2, hafter⟩

/-- A text is a dotted name if and only if it is made of parts with points between them. -/
theorem isDottedName_iff {text : String} : isDottedName text = true ↔ IsDotted text.toList :=
  (isDottedRest_iff _).1

namespace Setting

/-- The values of a setting. -/
abbrev Value : Setting → Type
  | defaultNamespace => String
  | level => String
  | file => Path
  | format => String
  | includeStderr => Bool
  | maxBytes => Int
  | backupCount => Int

/-- A value is in range. -/
def Allows : (setting : Setting) → setting.Value → Prop
  | defaultNamespace, text => IsDotted text.toList
  | level, text => lowered text ∈ ["debug", "info", "warning", "error"]
  | file, _ => True
  | format, text => lowered text ∈ ["text", "json"]
  | includeStderr, _ => True
  | maxBytes, size => 0 ≤ size
  | backupCount, count => 0 ≤ count

/-- Whether a value is in range can be computed. -/
instance : (setting : Setting) → (value : setting.Value) → Decidable (setting.Allows value)
  | defaultNamespace, _ => decidable_of_iff _ isDottedName_iff
  | level, text => inferInstanceAs (Decidable (lowered text ∈ _))
  | file, _ => .isTrue trivial
  | format, text => inferInstanceAs (Decidable (lowered text ∈ _))
  | includeStderr, _ => .isTrue trivial
  | maxBytes, size => inferInstanceAs (Decidable (0 ≤ size))
  | backupCount, count => inferInstanceAs (Decidable (0 ≤ count))

/-- What is said of a value that is out of range. -/
def faultOf? : (setting : Setting) → setting.Value → Option SettingFault
  | defaultNamespace, text => some (.notADottedName text)
  | level, text => some (.unknownLevel text)
  | file, _ => none
  | format, text => some (.unknownFormat text)
  | includeStderr, _ => none
  | maxBytes, size => some (.negativeSize size)
  | backupCount, count => some (.negativeBackups count)

end Setting

/-- What a layer says about a setting. -/
def SettingSource.value? (source : SettingSource) : (setting : Setting) → Option setting.Value
  | .defaultNamespace => source.defaultNamespace
  | .level => source.level
  | .file => source.file
  | .format => source.format
  | .includeStderr => source.includeStderr
  | .maxBytes => source.maxBytes
  | .backupCount => source.backupCount

/-- The value of a setting in a configuration. Only the log file can be without one. -/
def Config.value? (config : Config) : (setting : Setting) → Option setting.Value
  | .defaultNamespace => config.namespaceName
  | .level => config.logging.level
  | .file => config.logging.file
  | .format => config.logging.format
  | .includeStderr => config.logging.includeStderr
  | .maxBytes => config.logging.maxBytes
  | .backupCount => config.logging.backupCount

/-- A configuration is made of its values. -/
theorem Config.eq_of_value? {a b : Config} (h : ∀ setting, a.value? setting = b.value? setting) :
    a = b := by
  obtain ⟨⟨_, _, _, _, _, _⟩, _⟩ := a
  obtain ⟨⟨_, _, _, _, _, _⟩, _⟩ := b
  simp only [Config.mk.injEq, LoggingConfig.mk.injEq]
  exact ⟨⟨Option.some.inj (h .level), h .file, Option.some.inj (h .format),
    Option.some.inj (h .includeStderr), Option.some.inj (h .maxBytes),
    Option.some.inj (h .backupCount)⟩, Option.some.inj (h .defaultNamespace)⟩

/-- A level has a known name if and only if it is in range. -/
theorem Level.isNone_ofName? {name : String} :
    (Level.ofName? name).isNone = true ↔ ¬ Setting.level.Allows name := by
  rw [Level.ofName?]
  split <;> simp_all [Setting.Allows]

/-- The form of a line has a known name if and only if it is in range. -/
theorem LogFormat.isNone_ofName? {name : String} :
    (LogFormat.ofName? name).isNone = true ↔ ¬ Setting.format.Allows name := by
  rw [LogFormat.ofName?]
  split <;> simp_all [Setting.Allows]

/-- Checking logging succeeds if its values are in range, and otherwise tells of one that is not. -/
theorem LoggingConfig.check_cases (config : Config) :
    (config.logging.check = .ok () ∧
      ∀ setting ≠ .defaultNamespace, ∀ value ∈ config.value? setting, setting.Allows value) ∨
    ∃ (setting : Setting), ∃ value ∈ config.value? setting, ¬ setting.Allows value ∧
      ∃ fault ∈ setting.faultOf? value, config.logging.check = .error fault := by
  rw [LoggingConfig.check]
  split
  · next h => exact Or.inr ⟨.level, _, rfl, Level.isNone_ofName?.mp h, _, rfl, rfl⟩
  · next hlevel =>
    rw [Level.isNone_ofName?, not_not] at hlevel
    split
    · next h => exact Or.inr ⟨.format, _, rfl, LogFormat.isNone_ofName?.mp h, _, rfl, rfl⟩
    · next hformat =>
      rw [LogFormat.isNone_ofName?, not_not] at hformat
      split
      · next h => exact Or.inr ⟨.maxBytes, _, rfl, Int.not_le.mpr h, _, rfl, rfl⟩
      · next hsize =>
        split
        · next h => exact Or.inr ⟨.backupCount, _, rfl, Int.not_le.mpr h, _, rfl, rfl⟩
        · next hcount =>
          refine Or.inl ⟨rfl, fun setting hne value hvalue => ?_⟩
          cases setting with
          | defaultNamespace => exact absurd rfl hne
          | level => exact Option.some.inj hvalue ▸ hlevel
          | format => exact Option.some.inj hvalue ▸ hformat
          | file => trivial
          | includeStderr => trivial
          | maxBytes => exact Option.some.inj hvalue ▸ Int.not_lt.mp hsize
          | backupCount => exact Option.some.inj hvalue ▸ Int.not_lt.mp hcount

/-- Checking a configuration succeeds if its values are in range, and otherwise tells of one that is
not. -/
theorem Config.checked_cases (config : Config) :
    (config.checked = .ok config ∧
      ∀ setting, ∀ value ∈ config.value? setting, setting.Allows value) ∨
    ∃ (setting : Setting), ∃ value ∈ config.value? setting, ¬ setting.Allows value ∧
      ∃ fault ∈ setting.faultOf? value, config.checked = .error fault := by
  rw [Config.checked]
  rcases LoggingConfig.check_cases config with
    ⟨hcheck, hlogging⟩ | ⟨setting, value, hvalue, hout, fault, hfault, hcheck⟩
  · rw [hcheck, ok_bind]
    split
    · next h =>
      refine Or.inl ⟨rfl, fun setting value hvalue => ?_⟩
      by_cases hne : setting = .defaultNamespace
      · subst hne
        exact Option.some.inj hvalue ▸ isDottedName_iff.mp h
      · exact hlogging setting hne value hvalue
    · next h =>
      exact Or.inr ⟨.defaultNamespace, _, rfl, fun hin => h (isDottedName_iff.mpr hin), _, rfl, rfl⟩
  · rw [hcheck, error_bind]
    exact Or.inr ⟨setting, value, hvalue, hout, fault, hfault, rfl⟩

/-- The standard configuration is in range. -/
theorem Config.allows_standard (setting : Setting) :
    ∀ value ∈ Config.standard.value? setting, setting.Allows value := by
  cases setting <;> decide

end DriverPolicy
