import DriverPolicy.Json.Fields
import DriverPolicy.Logging.Root
import DriverPolicy.Proofs.Attempt
import Mathlib.Data.List.Induction
import Mathlib.Data.List.Nodup

/-!
# Attributes of log records

Attributes come on a record from three sides: whoever logs it passes some along, formatters that
write it leave the message and the time on it, and the filter of a handler puts the context on it. A
JSON line tells the first from the others by their names alone. The names that formatters use are
all known to it but one: the time. So a line shows exactly what was passed along unless a formatter
that shows the time wrote the record before.
-/

namespace DriverPolicy

section Fields

/-- Put values under names, in order. -/
def putFields (fields more : List (String × Json)) : List (String × Json) :=
  more.foldl (fun fields field => putField field.1 field.2 fields) fields

/-- A name has the value that was put under it, and any other the one that it had. -/
theorem field?_putField (name other : String) (value : Json) (fields : List (String × Json)) :
    (Json.object (putField name value fields)).field? other =
      if other = name then some value else (Json.object fields).field? other := by
  simp only [Json.field?]
  induction fields with
  | nil => by_cases h : name = other <;> simp [putField, h, Ne.symm]
  | cons field fields ih =>
    obtain ⟨first, old⟩ := field
    by_cases hfirst : first = name
    · subst hfirst
      by_cases hother : first = other <;> simp [putField, hother, Ne.symm]
    · by_cases hother : first = other
      · subst hother
        simp [putField, hfirst]
      · simp [putField, hfirst, hother, ih]

/-- A name has the last of the values that were put under it, and otherwise the one that it had. -/
theorem field?_putFields (name : String) (fields more : List (String × Json)) :
    (Json.object (putFields fields more)).field? name =
      ((Json.object more.reverse).field? name).or ((Json.object fields).field? name) := by
  induction more using List.reverseRecOn with
  | nil => rfl
  | append_singleton more field ih =>
    rw [putFields, List.foldl_concat, field?_putField, ← putFields, ih]
    by_cases h : field.1 = name <;> simp [Json.field?, h, Ne.symm]

/-- What is put under names of one sort stands among the others of that sort. -/
theorem filter_putField (p : String → Bool) (name : String) (value : Json)
    (fields : List (String × Json)) :
    (putField name value fields).filter (fun field => p field.1) =
      if p name then putField name value (fields.filter fun field => p field.1)
      else fields.filter fun field => p field.1 := by
  induction fields with
  | nil => by_cases h : p name = true <;> simp [putField, h]
  | cons field fields ih =>
    obtain ⟨first, old⟩ := field
    by_cases hfirst : first = name
    · subst hfirst
      by_cases h : p first = true <;> simp [putField, h]
    · by_cases h : p first = true <;> by_cases hname : p name = true <;>
        simp [putField, hfirst, h, hname, ih]

/-- Of fields put in order, those of one sort are put among the others of that sort. -/
theorem filter_putFields (p : String → Bool) (fields more : List (String × Json)) :
    (putFields fields more).filter (fun field => p field.1) =
      putFields (fields.filter fun field => p field.1) (more.filter fun field => p field.1) := by
  induction more generalizing fields with
  | nil => rfl
  | cons field more ih =>
    rw [putFields, List.foldl_cons, ← putFields, ih, filter_putField]
    by_cases h : p field.1 = true <;> simp [h, putFields]

/-- A value under a new name comes last. -/
theorem putField_of_not_mem {name : String} {value : Json} {fields : List (String × Json)}
    (h : name ∉ fields.map Prod.fst) : putField name value fields = fields ++ [(name, value)] := by
  induction fields with
  | nil => rfl
  | cons field fields ih =>
    rw [List.map_cons, List.mem_cons, not_or] at h
    rw [putField, if_neg (Ne.symm h.1), ih h.2, List.cons_append]

/-- Values under names that are new and differ come last, in order. -/
theorem putFields_of_nodup {fields more : List (String × Json)}
    (h : ((fields ++ more).map Prod.fst).Nodup) : putFields fields more = fields ++ more := by
  induction more generalizing fields with
  | nil => exact (List.append_nil _).symm
  | cons field more ih =>
    have hsplit : fields ++ field :: more = fields ++ [field] ++ more := by simp
    rw [hsplit] at h ⊢
    have hnew : field.1 ∉ fields.map Prod.fst := by
      rw [List.map_append, List.map_append] at h
      have hapart := (List.nodup_append.mp (List.nodup_append.mp h).1).2.2
      exact fun hmem => hapart _ hmem _ (by simp) rfl
    rw [← ih h, putFields, List.foldl_cons, putField_of_not_mem hnew]
    rfl

end Fields

/-- The attributes that a context puts on a record. -/
def Context.fields (context : Context) : List (String × Json) :=
  [("policy_family", Json.optionalText context.family),
    ("expression", Json.optionalText context.expression), ("resolution_tag", .text context.tag)]

/-- What a formatter leaves on a record that it writes, besides the message. -/
structure Formatting where
  /-- The time, if the lines of the formatter show it. -/
  stamp : Option String
  /-- The text of the exception, if the record has one. -/
  exceptionText : Option String
deriving DecidableEq, Repr

/-- What a handler does to a record: its filter puts a context on it, and its formatter writes
it. -/
inductive Handling where
  | filtered (context : Context)
  | formatted (formatting : Formatting)
deriving DecidableEq, Repr

/-- The contexts that filters have put on a record, the first one first. -/
def Handling.contexts (handlings : List Handling) : List Context :=
  handlings.filterMap fun
    | filtered context => some context
    | formatted _ => none

namespace LogRecord

/-- The names under which fields of a record are changed. All others are names of attributes. -/
def changeableFields : List String := ["name", "levelname", "msg", "args", "created", "exc_info"]

/-- Every field that can be changed is a field that every record has. -/
theorem standardFields_of_changeable {name : String} (h : name ∈ changeableFields) :
    name ∈ standardFields := by
  revert name
  decide

/-- Attaching an attribute puts a value under its name. -/
theorem attach_eq (record : LogRecord) (value : Json) {name : String}
    (h : name ∉ changeableFields) : record.attach name value =
      { record with attributes := putField name value record.attributes } := by
  unfold attach
  split
  case h_7 => rfl
  all_goals exact absurd (by decide) h

/-- Attaching attributes puts values under their names. -/
theorem attachAll_eq (record : LogRecord) {fields : List (String × Json)}
    (h : ∀ field ∈ fields, field.1 ∉ changeableFields) : record.attachAll fields =
      { record with attributes := putFields record.attributes fields } := by
  induction fields generalizing record with
  | nil => rfl
  | cons field fields ih =>
    obtain ⟨hfirst, hrest⟩ := List.forall_mem_cons.mp h
    obtain ⟨name, value⟩ := field
    change (record.attach name value).attachAll fields = _
    rw [attach_eq record value hfirst, ih _ hrest]
    rfl

/-- A record carries a context by attributes. -/
theorem inContext_eq (record : LogRecord) (context : Context) : record.inContext context =
    { record with attributes := putFields record.attributes context.fields } :=
  @attachAll_eq record context.fields (by simp [Context.fields, changeableFields])

/-- The field of a JSON line that shows a record's own attributes, if there are any. -/
def ownPart (record : LogRecord) : List (String × Json) :=
  if record.shownAttributes = [] then [] else [("context", .object record.shownAttributes)]

/-- The fields of a JSON line. -/
def entry (record : LogRecord) (time : Instant) (message : String) (exception : Option String) :
    List (String × Json) :=
  [("timestamp", .text time.fullStamp), ("level", record.levelName), ("message", .text message)] ++
    record.loggerPart ++ record.contextPart ++ record.ownPart ++
    (exception.map fun text => ("exception", Json.text text)).toList

/-- A record is shown by its time, its message, its exception and its fields, in this order. -/
theorem toJson_eq (record : LogRecord) : record.toJson = do
    let time ← record.time
    let message ← record.message
    let exception ← record.exceptionText
    return .object (record.entry time message exception) := by
  have hown : (if record.shownAttributes.isEmpty then [] else
      [("context", Json.object record.shownAttributes)]) = record.ownPart := by
    simp [ownPart, List.isEmpty_iff]
  rw [toJson]
  simp only [hown]
  refine bind_congr fun time => bind_congr fun message => bind_congr fun exception => ?_
  cases exception <;> rfl

/-- A record is shown if its time, its message and its exception can be. -/
theorem toJson_eq_ok_iff {record : LogRecord} {printed : Json} : record.toJson = .ok printed ↔
    ∃ time message exception, record.time = .ok time ∧ record.message = .ok message ∧
      record.exceptionText = .ok exception ∧
      printed = .object (record.entry time message exception) := by
  simp only [toJson_eq, bind_eq_ok_iff, pure_eq_ok, Except.ok.injEq, exists_and_left,
    @eq_comm _ printed]

/-- The field that names the logger has no other name. -/
theorem name_of_mem_loggerPart {record : LogRecord} {field : String × Json}
    (h : field ∈ record.loggerPart) : field.1 = "logger" := by
  rw [loggerPart] at h
  split at h
  · contradiction
  · split at h
    · rw [List.mem_singleton.mp h]
    · contradiction

/-- The context and the record's own attributes are shown under names that no other part of a line
has. -/
theorem field?_entry (record : LogRecord) (time : Instant) (message : String)
    (exception : Option String) {name : String}
    (h : name ∉ ["timestamp", "level", "message", "logger", "exception"]) :
    (Json.object (record.entry time message exception)).field? name =
      (Json.object (record.contextPart ++ record.ownPart)).field? name := by
  simp only [List.mem_cons, List.not_mem_nil, or_false, not_or] at h
  obtain ⟨htime, hlevel, hmessage, hlogger, hexception⟩ := h
  have hparts : record.loggerPart.find? (·.1 = name) = none := by
    refine List.find?_eq_none.mpr fun field hfield => ?_
    simpa [name_of_mem_loggerPart hfield] using Ne.symm hlogger
  cases exception <;>
    simp [entry, Json.field?, List.find?_append, hparts, Ne.symm htime, Ne.symm hlevel,
      Ne.symm hmessage, Ne.symm hexception]

/-- The family that a record carries; null without one. -/
def family (record : LogRecord) : Json := (record.attribute? "policy_family").getD .null

/-- The expression that a record carries; null without one. -/
def expression (record : LogRecord) : Json := (record.attribute? "expression").getD .null

/-- The context is shown if the family counts as present. -/
theorem contextPart_eq (record : LogRecord) : record.contextPart =
    if record.family.isTruthy then
      [("policy_family", record.family), ("expression", record.expression)] else [] := by
  rw [contextPart, family, expression]
  cases record.attribute? "policy_family" <;> rfl

/-- A line shows the record's own attributes, if there are any, and the family and the expression if
the family counts as present. -/
theorem fields_of_toJson {record : LogRecord} {printed : Json} (h : record.toJson = .ok printed) :
    printed.field? "context" =
        (if record.shownAttributes = [] then none else some (.object record.shownAttributes)) ∧
      printed.field? "policy_family" =
        (if record.family.isTruthy then some record.family else none) ∧
      printed.field? "expression" =
        if record.family.isTruthy then some record.expression else none := by
  obtain ⟨time, message, exception, -, -, -, rfl⟩ := toJson_eq_ok_iff.mp h
  simp only [field?_entry record time message exception (by decide : "context" ∉ _),
    field?_entry record time message exception (by decide : "policy_family" ∉ _),
    field?_entry record time message exception (by decide : "expression" ∉ _), contextPart_eq,
    ownPart]
  by_cases htruthy : record.family.isTruthy = true <;>
    by_cases hempty : record.shownAttributes = [] <;> simp [htruthy, hempty, Json.field?]

/-- Other attributes make no difference to a line if the same are shown. -/
theorem toJson_of_same_shown {record : LogRecord} {attributes : List (String × Json)}
    {printed : Json} (h : record.toJson = .ok printed)
    (hshown : LogRecord.shownAttributes { record with attributes } = record.shownAttributes)
    (hfamily : LogRecord.family { record with attributes } = record.family)
    (hexpression : LogRecord.expression { record with attributes } = record.expression) :
    LogRecord.toJson { record with attributes } = .ok printed := by
  obtain ⟨time, message, exception, htime, hmessage, hexception, rfl⟩ := toJson_eq_ok_iff.mp h
  refine toJson_eq_ok_iff.mpr ⟨time, message, exception, htime, hmessage, hexception, ?_⟩
  rw [entry, entry, contextPart_eq, contextPart_eq, ownPart, ownPart, hshown, hfamily, hexpression]
  rfl

/-- Attributes do not make a record that cannot be shown one that can. -/
theorem toJson_of_error {record : LogRecord} {attributes : List (String × Json)}
    {fault : RecordFault} (h : record.toJson = .error fault) :
    LogRecord.toJson { record with attributes } = .error fault := by
  simp only [toJson_eq, bind_eq_error_iff, pure_eq_ok, reduceCtorEq, and_false, exists_false,
    or_false] at h ⊢
  exact h

/-- What a formatter leaves on a record: nothing if the message cannot be filled in. -/
def marks (record : LogRecord) (formatting : Formatting) : List (String × Json) :=
  match record.message with
  | .ok message =>
    [("message", .text message)] ++
      (formatting.stamp.map fun stamp => ("asctime", Json.text stamp)).toList ++
      (formatting.exceptionText.map fun text => ("exc_text", Json.text text)).toList
  | .error _ => []

/-- The attributes that filters and formatters put on a record. -/
def changes (record : LogRecord) : Handling → List (String × Json)
  | .filtered context => context.fields
  | .formatted formatting => record.marks formatting

/-- A record after a filter or a formatter had it. -/
def handled (record : LogRecord) (handling : Handling) : LogRecord :=
  record.attachAll (record.changes handling)

/-- A record as a formatter gets it: attributes were passed along, and then filters and formatters
had it, its own handler's filter the last. -/
def handedOver (record : LogRecord) (extra : List (String × Json)) (handlings : List Handling) :
    LogRecord :=
  handlings.foldl handled (record.attachAll extra)

/-- The name under which others find a record's attributes is public, and the context has no use for
it. -/
def IsOwn (name : String) : Prop := name.toList.head? ≠ some '_' ∧ name ∉ contextFields

instance (name : String) : Decidable (IsOwn name) := inferInstanceAs (Decidable (_ ∧ _))

/-- What a record carries under a name of the context: what the last filter has put there, or
without a filter what was passed along. -/
def carried (extra : List (String × Json)) (contexts : List Context) (name : String) : Json :=
  (Json.object ((contexts.getLast?.map Context.fields).getD extra)).get name

/-- What writing a record as text leaves on it besides the message. -/
def textFormatting (record : LogRecord) : Formatting where
  stamp := record.time.toOption.map Instant.secondStamp
  exceptionText := record.time.toOption.bind fun _ => record.exceptionText.toOption.join

/-- Writing a record as text leaves on it what a formatter leaves that shows the time. -/
theorem afterText_eq (record : LogRecord) :
    record.afterText = record.handled (.formatted record.textFormatting) := by
  change _ = record.attachAll (record.marks _)
  rw [afterText, marks]
  cases record.message with
  | error fault => rfl
  | ok message =>
    have htime : (record.attach "message" (.text message)).time = record.time := rfl
    rw [textFormatting]
    dsimp only
    rw [htime]
    cases record.time with
    | error fault => rfl
    | ok time =>
      have hexception : ((record.attach "message" (.text message)).attach "asctime"
          (.text time.secondStamp)).exceptionText = record.exceptionText := rfl
      dsimp only
      rw [hexception]
      rcases record.exceptionText with fault | _ | text <;> rfl

/-- Formatters leave values under three names. -/
theorem name_of_mem_marks {record : LogRecord} {formatting : Formatting} {field : String × Json}
    (h : field ∈ record.marks formatting) : field.1 ∈ ["message", "asctime", "exc_text"] := by
  rw [marks] at h
  split at h
  · simp only [List.mem_append, List.mem_singleton, Option.mem_toList, Option.map_eq_some_iff] at h
    rcases h with (rfl | ⟨stamp, -, rfl⟩) | ⟨text, -, rfl⟩ <;> simp
  · contradiction

/-- Filters and formatters change no field of a record. -/
theorem not_mem_changeableFields_of_mem_changes {record : LogRecord} {handling : Handling}
    {field : String × Json} (h : field ∈ record.changes handling) :
    field.1 ∉ changeableFields := by
  cases handling with
  | filtered context =>
    simp only [changes, Context.fields, List.mem_cons, List.not_mem_nil, or_false] at h
    rcases h with rfl | rfl | rfl <;> simp [changeableFields]
  | formatted formatting =>
    have hname := name_of_mem_marks h
    revert hname
    generalize field.1 = name
    revert name
    decide

/-- Filters and formatters put values under names and do nothing else. -/
theorem foldl_handled (record : LogRecord) (handlings : List Handling) :
    handlings.foldl handled record =
      { record with
        attributes := putFields record.attributes (handlings.flatMap record.changes) } := by
  induction handlings using List.reverseRecOn with
  | nil => rfl
  | append_singleton handlings handling ih =>
    rw [List.foldl_concat, ih, handled]
    change LogRecord.attachAll _ (record.changes handling) = _
    rw [attachAll_eq _ fun field => not_mem_changeableFields_of_mem_changes, List.flatMap_append,
      putFields, putFields, putFields, List.foldl_append, List.flatMap_singleton]

/-- What the last filter has put under a name of the context is there after all. -/
theorem field?_changes (record : LogRecord) (handlings : List Handling) {name : String}
    (hname : name ∈ ["policy_family", "expression"]) :
    (Json.object (handlings.flatMap record.changes).reverse).field? name =
      (Handling.contexts handlings).getLast?.bind
        fun context => (Json.object context.fields).field? name := by
  induction handlings using List.reverseRecOn with
  | nil => rfl
  | append_singleton handlings handling ih =>
    simp only [Json.field?, List.flatMap_append, List.flatMap_singleton, List.reverse_append,
      List.find?_append, Option.map_or] at ih ⊢
    rw [ih]
    cases handling with
    | filtered context =>
      simp only [List.mem_cons, List.not_mem_nil, or_false] at hname
      rcases hname with rfl | rfl <;> simp [Handling.contexts, changes, Context.fields]
    | formatted formatting =>
      have hnone : (record.marks formatting).reverse.find? (·.1 = name) = none := by
        refine List.find?_eq_none.mpr fun field hfield => ?_
        have hmark := name_of_mem_marks (List.mem_reverse.mp hfield)
        rw [decide_eq_true_eq]
        rintro rfl
        revert hname hmark
        generalize field.1 = name
        revert name
        decide
      simp [Handling.contexts, changes, hnone]

/-- Filters, and formatters whose lines show no time, put nothing on a record that a line of JSON
shows as an attribute of its own. -/
theorem filter_changes_eq_nil {record : LogRecord} {handlings : List Handling}
    (h : ∀ formatting, .formatted formatting ∈ handlings → formatting.stamp = none) :
    (handlings.flatMap record.changes).filter (fun field => isShown field.1) = [] := by
  rw [List.filter_eq_nil_iff]
  intro field hfield
  obtain ⟨handling, hmem, hchange⟩ := List.mem_flatMap.mp hfield
  cases handling with
  | filtered context =>
    simp only [changes, Context.fields, List.mem_cons, List.not_mem_nil, or_false] at hchange
    rcases hchange with rfl | rfl | rfl <;> simp [isShown, contextFields]
  | formatted formatting =>
    rw [changes, marks, h formatting hmem] at hchange
    split at hchange
    · simp only [Option.map_none, Option.toList_none, List.append_nil, List.mem_append,
        List.mem_singleton, Option.mem_toList, Option.map_eq_some_iff] at hchange
      rcases hchange with rfl | ⟨text, -, rfl⟩ <;> simp [isShown, standardFields]
    · contradiction

/-- A formatter whose lines show the time leaves it where a line of JSON shows it. -/
theorem field?_filter_changes_ne_none {record : LogRecord} {handlings : List Handling}
    {formatting : Formatting} {message : String} (hmessage : record.message = .ok message)
    (hmem : .formatted formatting ∈ handlings) (hstamp : formatting.stamp ≠ none)
    (fields : List (String × Json)) :
    (Json.object (putFields fields
      ((handlings.flatMap record.changes).filter fun field => isShown field.1))).field?
        "asctime" ≠ none := by
  obtain ⟨stamp, hstamp⟩ := Option.ne_none_iff_exists'.mp hstamp
  have hmark : ("asctime", Json.text stamp) ∈
      ((handlings.flatMap record.changes).filter fun field => isShown field.1).reverse := by
    rw [List.mem_reverse, List.mem_filter, List.mem_flatMap]
    exact ⟨⟨.formatted formatting, hmem, by simp [changes, marks, hmessage, hstamp]⟩, by
      simp [isShown, standardFields, contextFields]⟩
  rw [field?_putFields, Json.field?, ne_eq, Option.or_eq_none_iff, Option.map_eq_none_iff,
    List.find?_eq_none]
  exact fun h => h.1 _ hmark (decide_eq_true rfl)

/-- Attributes may be passed along with a record that has none yet if their names differ and are
neither names of fields that every record has nor the name of the time. -/
structure Accepts (record : LogRecord) (extra : List (String × Json)) : Prop where
  /-- The record has no attributes yet. -/
  bare : record.attributes = []
  /-- The names differ. -/
  distinct : (extra.map Prod.fst).Nodup
  /-- No field has one of the names. -/
  free : ∀ field ∈ extra, field.1 ∉ standardFields
  /-- The time has none of them. -/
  timeless : ∀ field ∈ extra, field.1 ≠ "asctime"

section HandedOver

variable {record : LogRecord} {extra : List (String × Json)}

/-- The attributes of a record that had none are those that were passed along. -/
theorem Accepts.attachAll_eq (h : record.Accepts extra) :
    record.attachAll extra = { record with attributes := extra } := by
  have hnames : ∀ field ∈ extra, field.1 ∉ changeableFields :=
    fun field hfield hname => h.free field hfield (standardFields_of_changeable hname)
  rw [LogRecord.attachAll_eq record hnames, h.bare, @putFields_of_nodup [] extra h.distinct]
  rfl

/-- A record that is handed over has what was passed along, then what filters and formatters put on
it. -/
theorem handedOver_eq (h : record.Accepts extra) (handlings : List Handling) :
    record.handedOver extra handlings =
      { record with attributes := putFields extra (handlings.flatMap record.changes) } := by
  rw [handedOver, h.attachAll_eq]
  exact foldl_handled _ handlings

/-- What a record carries under a name of the context does not depend on formatters. -/
theorem attribute?_handedOver (h : record.Accepts extra) (handlings : List Handling)
    {name : String} (hname : name ∈ ["policy_family", "expression"]) :
    ((record.handedOver extra handlings).attribute? name).getD .null =
      carried extra (Handling.contexts handlings) name := by
  rw [handedOver_eq h, carried, Json.get]
  congr 1
  change (Json.object (putFields _ _)).field? name = _
  rw [field?_putFields, field?_changes record handlings hname]
  cases (Handling.contexts handlings).getLast? with
  | none => rfl
  | some context =>
    simp only [List.mem_cons, List.not_mem_nil, or_false] at hname
    rcases hname with rfl | rfl <;> simp [Context.fields, Json.field?]

/-- The attributes that a line shows are those that were passed along under names of their own, and
the times that formatters left. -/
theorem shownAttributes_handedOver (h : record.Accepts extra) (handlings : List Handling) :
    (record.handedOver extra handlings).shownAttributes =
      putFields (extra.filter fun field => IsOwn field.1)
        ((handlings.flatMap record.changes).filter fun field => isShown field.1) := by
  have hextra : extra.filter (fun field => isShown field.1) =
      extra.filter fun field => IsOwn field.1 := by
    refine List.filter_congr fun field hfield => ?_
    simp [isShown, IsOwn, h.free field hfield, and_comm]
  rw [handedOver_eq h, ← hextra]
  exact filter_putFields isShown _ _

/-- If formatters show no time, exactly what was passed along is shown. -/
theorem shownAttributes_of_no_stamp (h : record.Accepts extra) {handlings : List Handling}
    (hstamps : ∀ formatting, .formatted formatting ∈ handlings → formatting.stamp = none) :
    (record.handedOver extra handlings).shownAttributes =
      extra.filter fun field => IsOwn field.1 := by
  rw [shownAttributes_handedOver h, filter_changes_eq_nil hstamps]
  rfl

/-- Filters and formatters make a difference to the attributes only. -/
theorem handedOver_with_attributes (h : record.Accepts extra) (handlings others : List Handling) :
    ∃ attributes, record.handedOver extra handlings =
      { record.handedOver extra others with attributes } := by
  rw [handedOver_eq h, handedOver_eq h]
  exact ⟨_, rfl⟩

/-- A record whose time, message and exception can be shown is written, whoever had it before. -/
theorem exists_toJson_handedOver (h : record.Accepts extra) (handlings : List Handling)
    {time : Instant} {message : String} {exception : Option String}
    (htime : record.time = .ok time) (hmessage : record.message = .ok message)
    (hexception : record.exceptionText = .ok exception) :
    ∃ printed, (record.handedOver extra handlings).toJson = .ok printed := by
  rw [handedOver_eq h]
  exact ⟨_, toJson_eq_ok_iff.mpr ⟨time, message, exception, htime, hmessage, hexception, rfl⟩⟩

/-- If formatters show no time, only the last filter makes a difference. -/
theorem toJson_handedOver_of_no_stamp (h : record.Accepts extra) {handlings others : List Handling}
    (hcontexts : (Handling.contexts handlings).getLast? = (Handling.contexts others).getLast?)
    (hstamps : ∀ formatting, .formatted formatting ∈ handlings → formatting.stamp = none)
    (hothers : ∀ formatting, .formatted formatting ∈ others → formatting.stamp = none) :
    (record.handedOver extra handlings).toJson = (record.handedOver extra others).toJson := by
  obtain ⟨attributes, hwritten⟩ := handedOver_with_attributes h handlings others
  cases hprinted : (record.handedOver extra others).toJson with
  | error fault =>
    rw [hwritten]
    exact toJson_of_error hprinted
  | ok printed =>
    have hsame {α : Type} (show? : LogRecord → α) (heq : show?
        (record.handedOver extra handlings) = show? (record.handedOver extra others)) :
        show? { record.handedOver extra others with attributes } =
          show? (record.handedOver extra others) := hwritten ▸ heq
    rw [hwritten]
    refine toJson_of_same_shown hprinted (hsame shownAttributes ?_) (hsame family ?_)
      (hsame expression ?_)
    · rw [shownAttributes_of_no_stamp h hstamps, shownAttributes_of_no_stamp h hothers]
    · rw [family, family, attribute?_handedOver h _ (by decide),
        attribute?_handedOver h _ (by decide), carried, carried, hcontexts]
    · rw [expression, expression, attribute?_handedOver h _ (by decide),
        attribute?_handedOver h _ (by decide), carried, carried, hcontexts]

/-- A line shows the time that a formatter left on the record before, and not otherwise. -/
theorem stamp_eq_none_of_toJson_eq (h : record.Accepts extra) {handlings others : List Handling}
    (hothers : ∀ formatting, .formatted formatting ∈ others → formatting.stamp = none)
    {printed : Json} (hprinted : (record.handedOver extra handlings).toJson = .ok printed)
    (halone : (record.handedOver extra others).toJson = .ok printed) :
    ∀ formatting, .formatted formatting ∈ handlings → formatting.stamp = none := by
  intro formatting hmem
  by_contra hstamp
  -- the message can be filled in, for the line shows it
  obtain ⟨-, message, -, -, hfilled, -, -⟩ := toJson_eq_ok_iff.mp halone
  rw [handedOver_eq h] at hfilled
  have hmessage : record.message = .ok message := hfilled
  have hstamped := field?_filter_changes_ne_none hmessage hmem hstamp
    (extra.filter fun field => IsOwn field.1)
  have hshown := (fields_of_toJson hprinted).1.symm.trans (fields_of_toJson halone).1
  have hsame : (record.handedOver extra handlings).shownAttributes =
      (record.handedOver extra others).shownAttributes := by
    split at hshown <;> split at hshown <;> simp_all
  rw [shownAttributes_handedOver h, shownAttributes_of_no_stamp h hothers] at hsame
  rw [hsame] at hstamped
  refine hstamped ?_
  change ((extra.filter _).find? _).map _ = none
  rw [Option.map_eq_none_iff, List.find?_eq_none]
  intro field hfield
  simpa using h.timeless field (List.mem_of_mem_filter hfield)

/-- After filters only, a line of JSON has a context exactly if an attribute was passed along whose
name does not begin with a low line and is none of the names that the context of a record has, and
it has all of these. The family and the expression stand at its top exactly if the family counts as
present. It makes a difference that formatters wrote the record before, between the filters in any
order, if and only if one of them shows the time; but a record that cannot be written cannot be
written after them either. -/
theorem toJson_handedOver (h : record.Accepts extra) (contexts : List Context) :
    (∀ printed, (record.handedOver extra (contexts.map .filtered)).toJson = .ok printed →
      printed.field? "context" =
          (if ∃ field ∈ extra, IsOwn field.1 then
            some (.object (extra.filter fun field => IsOwn field.1)) else none) ∧
        printed.field? "policy_family" =
          (if (carried extra contexts "policy_family").isTruthy then
            some (carried extra contexts "policy_family") else none) ∧
        printed.field? "expression" =
          if (carried extra contexts "policy_family").isTruthy then
            some (carried extra contexts "expression") else none) ∧
    ∀ handlings, Handling.contexts handlings = contexts →
      ((record.handedOver extra handlings).toJson =
          (record.handedOver extra (contexts.map .filtered)).toJson ↔
        (∀ formatting, .formatted formatting ∈ handlings → formatting.stamp = none) ∨
          ∃ fault, (record.handedOver extra (contexts.map .filtered)).toJson = .error fault) := by
  have hnone : ∀ formatting, .formatted formatting ∈ contexts.map Handling.filtered →
      formatting.stamp = none := by simp
  have hcontexts : Handling.contexts (contexts.map .filtered) = contexts := by
    simp [Handling.contexts, List.filterMap_map]
  constructor
  · intro printed hprinted
    have hfields := fields_of_toJson hprinted
    have hany : (extra.filter fun field => IsOwn field.1) = [] ↔
        ¬ ∃ field ∈ extra, IsOwn field.1 := by
      simp [List.filter_eq_nil_iff]
    rw [shownAttributes_of_no_stamp h hnone, family, expression,
      attribute?_handedOver h _ (by decide), attribute?_handedOver h _ (by decide),
      hcontexts] at hfields
    simpa only [hany, ite_not] using hfields
  · intro handlings hsame
    constructor
    · intro heq
      cases halone : (record.handedOver extra (contexts.map .filtered)).toJson with
      | error fault => exact Or.inr ⟨fault, rfl⟩
      | ok printed =>
        exact Or.inl (stamp_eq_none_of_toJson_eq h hnone (heq.trans halone) halone)
    · rintro (hstamps | ⟨fault, hfault⟩)
      · exact toJson_handedOver_of_no_stamp h
          (congrArg List.getLast? (hsame.trans hcontexts.symm)) hstamps hnone
      · obtain ⟨attributes, hwritten⟩ :=
          handedOver_with_attributes h handlings (contexts.map .filtered)
        rw [hwritten, hfault]
        exact toJson_of_error hfault

/-- Two attributes of which one is private, on a record that a formatter without the time wrote
between two filters. -/
theorem toJson_handedOver_of_private :
    ∃ printed, ((make (.text "t") .info "x" (.inOrder []) (.ok ⟨0⟩)).handedOver
        [("_key", .integer 1), ("node", .integer 2)]
        [.filtered .clear, .formatted ⟨none, none⟩, .filtered ⟨some "retry", none⟩]).toJson =
          .ok printed ∧
      printed.field? "context" = some (.object [("node", .integer 2)]) ∧
      printed.field? "policy_family" = some (.text "retry") := by
  have haccepts : (make (.text "t") .info "x" (.inOrder []) (.ok ⟨0⟩)).Accepts
      [("_key", .integer 1), ("node", .integer 2)] := by
    constructor <;> decide
  obtain ⟨printed, halone⟩ := exists_toJson_handedOver haccepts
    ([.clear, ⟨some "retry", none⟩].map .filtered) rfl rfl rfl
  obtain ⟨hfields, hsame⟩ := toJson_handedOver haccepts [.clear, ⟨some "retry", none⟩]
  refine ⟨printed, ((hsame _ rfl).mpr (Or.inl (by simp))).trans halone, (hfields printed halone).1,
    (hfields printed halone).2.1⟩

/-- The time that another formatter left is taken for an attribute that was passed along. -/
theorem toJson_handedOver_after_stamp :
    (∃ printed,
        ((make (.text "t") .info "x" (.inOrder []) (.ok ⟨0⟩)).handedOver [] []).toJson =
          .ok printed ∧ printed.field? "context" = none) ∧
      ∃ printed, ((make (.text "t") .info "x" (.inOrder []) (.ok ⟨0⟩)).handedOver []
        [.formatted ⟨some "1970-01-01T00:00:00+0000", none⟩]).toJson = .ok printed ∧
        printed.field? "context" =
          some (.object [("asctime", .text "1970-01-01T00:00:00+0000")]) := by
  have haccepts : (make (.text "t") .info "x" (.inOrder []) (.ok ⟨0⟩)).Accepts [] := by
    constructor <;> decide
  obtain ⟨printed, hprinted⟩ := exists_toJson_handedOver haccepts [] rfl rfl rfl
  obtain ⟨later, hlater⟩ := exists_toJson_handedOver haccepts
    [.formatted ⟨some "1970-01-01T00:00:00+0000", none⟩] rfl rfl rfl
  refine ⟨⟨printed, hprinted, (fields_of_toJson hprinted).1.trans ?_⟩, later, hlater,
    (fields_of_toJson hlater).1.trans ?_⟩
  · rw [shownAttributes_handedOver haccepts]
    rfl
  · rw [shownAttributes_handedOver haccepts]
    rfl

end HandedOver

end LogRecord

section Handlers

/-- What a handler does to a record that is logged in a context. A record below its level is left
alone, and only a handler for text leaves anything but the context on it. -/
def LogHandler.handlings (handler : LogHandler) (context : Context) (record : LogRecord) :
    List Handling :=
  if record.level.rank < handler.level.rank then []
  else
    match handler.format with
    | .text => [.filtered context, .formatted record.textFormatting]
    | .json => [.filtered context]

/-- What a handler of the root logger does to a record; one from elsewhere is not followed. -/
def RootHandler.handlings (context : Context) (record : LogRecord) : RootHandler → List Handling
  | own handler => handler.handlings context record
  | foreign _ => []

/-- A handler leaves on a record what its filter and its formatter put there, whether the line can be
written or not. -/
theorem LogHandler.record_handle (handler : LogHandler) (context : Context) (record : LogRecord)
    (output : LogOutput) :
    (handler.handle context record output).1 =
      (handler.handlings context record).foldl LogRecord.handled record := by
  have hafter : (record.inContext context).afterText =
      (record.handled (.filtered context)).handled (.formatted record.textFormatting) :=
    (record.inContext context).afterText_eq
  rw [handle, handlings]
  split
  · rfl
  · cases handler.format with
    | text =>
      dsimp only
      split <;> exact hafter
    | json =>
      dsimp only
      split <;> rfl

/-- The handlers that come later get the record as the others have left it. -/
theorem LogState.exists_handleAll_append (context : Context) (before rest : List RootHandler)
    (record : LogRecord) (output : LogOutput) :
    ∃ next, handleAll context (before ++ rest) record output =
      handleAll context rest
        ((before.flatMap (RootHandler.handlings context record)).foldl .handled record) next := by
  induction before generalizing record output with
  | nil => exact ⟨output, rfl⟩
  | cons handler before ih =>
    cases handler with
    | foreign name => exact ih record output
    | own handler =>
      obtain ⟨next, hnext⟩ := ih (handler.handle context record output).1
        (handler.handle context record output).2
      refine ⟨next, hnext.trans ?_⟩
      -- what a handler does depends on nothing that the others leave on the record
      have hsame (handlings : List Handling) :
          RootHandler.handlings context (handlings.foldl LogRecord.handled record) =
            RootHandler.handlings context record := by
        rw [LogRecord.foldl_handled]
        rfl
      rw [handler.record_handle, hsame, List.flatMap_cons, List.foldl_append]
      rfl

/-- The last handler gets a record as the others have left it. As JSON the record shows the same there
as without them if and only if none of them is for text and of the record's level or below; but a
record that cannot be written cannot be written behind them either. -/
theorem LogRecord.toJson_behind_handlers_iff {record : LogRecord} {extra : List (String × Json)}
    (h : record.Accepts extra) (context : Context) (before : List RootHandler) (last : LogHandler)
    (output : LogOutput) :
    let given := record.attachAll extra
    let left := (before.flatMap (RootHandler.handlings context given)).foldl handled given
    (∃ next, LogState.handleAll context (before ++ [.own last]) given output =
      (last.handle context left next).2) ∧
    ((left.inContext context).toJson = (given.inContext context).toJson ↔
      (∀ handler, .own handler ∈ before → handler.format = .text →
        record.level.rank < handler.level.rank) ∨
      ∃ fault, (given.inContext context).toJson = .error fault) := by
  refine ⟨LogState.exists_handleAll_append context before [.own last] _ output, ?_⟩
  have hlevel : (record.attachAll extra).level = record.level := by rw [h.attachAll_eq]
  have hbehind (handlings : List Handling) :
      (handlings.foldl handled (record.attachAll extra)).inContext context =
        record.handedOver extra (handlings ++ [.filtered context]) := by
    rw [handedOver, List.foldl_concat]
    rfl
  have halone : (record.attachAll extra).inContext context =
      record.handedOver extra [.filtered context] := rfl
  have hnone : ∀ formatting, .formatted formatting ∈ [Handling.filtered context] →
      formatting.stamp = none := by simp
  rw [hbehind, halone]
  constructor
  · intro heq
    cases hprinted : (record.handedOver extra [.filtered context]).toJson with
    | error fault => exact Or.inr ⟨fault, rfl⟩
    | ok printed =>
      refine Or.inl fun handler hmem htext => ?_
      by_contra hreached
      -- the time can be shown, so a handler for text shows it
      obtain ⟨time, -, -, htime, -⟩ := toJson_eq_ok_iff.mp hprinted
      rw [← halone] at htime
      have hstamp := stamp_eq_none_of_toJson_eq h hnone (heq.trans hprinted) hprinted
        (record.attachAll extra).textFormatting (List.mem_append_left _ (List.mem_flatMap.mpr
          ⟨.own handler, hmem, by
            simp [RootHandler.handlings, LogHandler.handlings, htext, hlevel, hreached]⟩))
      have hshown : (record.attachAll extra).time = .ok time := htime
      simp [textFormatting, hshown, Except.toOption] at hstamp
  · rintro (hbelow | ⟨fault, hfault⟩)
    · refine toJson_handedOver_of_no_stamp h ?_ (fun formatting hmem => ?_) hnone
      · simp [Handling.contexts]
      · simp only [List.mem_append, List.mem_flatMap, List.mem_singleton, reduceCtorEq,
          or_false] at hmem
        obtain ⟨root, hroot, hdone⟩ := hmem
        cases root with
        | foreign name => contradiction
        | own handler =>
          rw [RootHandler.handlings, LogHandler.handlings, hlevel] at hdone
          cases hformat : handler.format with
          | text => simp [hbelow handler hroot hformat] at hdone
          | json => simp [hformat] at hdone
    · obtain ⟨attributes, hwritten⟩ := handedOver_with_attributes h
        (before.flatMap (RootHandler.handlings context (record.attachAll extra)) ++
          [.filtered context]) [.filtered context]
      rw [hwritten, hfault]
      exact toJson_of_error hfault

end Handlers

end DriverPolicy
