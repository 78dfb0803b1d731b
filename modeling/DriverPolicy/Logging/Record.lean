import DriverPolicy.Clock.Instant
import DriverPolicy.Logging.Context
import DriverPolicy.Logging.Template

/-!
# Log records

A record has the fields of every record, and attributes of its own in the order in which they
were attached. Attaching a field's name changes the field instead, to whatever value is given;
one that cannot serve as a time or as an exception is a fault once the record is written. The
names of the other fields that every record has are reserved and show nowhere. A record in a
context carries the context as attributes, whatever was attached under those names before.
-/

namespace DriverPolicy

/-- Why a value shows no exception, which consists of a class, an error and a trace. -/
inductive ExceptionFault where
  | noParts (typeName : String)
  | tooFewParts (typeName : String)
  | partsByName
  | notAnError (typeName : String)
  | notATrace (typeName : String)
deriving DecidableEq, Repr

/-- A value that shows no exception, as a kind of error. -/
def ExceptionFault.kind : ExceptionFault → String
  | noParts _ => "TypeError"
  | tooFewParts _ => "IndexError"
  | partsByName => "KeyError"
  | notAnError _ | notATrace _ => "AttributeError"

/-- What is wrong with a value in the place of an exception. -/
def ExceptionFault.message : ExceptionFault → String
  | noParts typeName => s!"'{typeName}' object is not subscriptable"
  | tooFewParts typeName => s!"{typeName} index out of range"
  | partsByName => "2"
  | notAnError typeName => s!"'{typeName}' object has no attribute '__suppress_context__'"
  | notATrace typeName => s!"'{typeName}' object has no attribute 'tb_frame'"

/-- Why a record cannot be written. -/
inductive RecordFault where
  | time (fault : TimeFault)
  | template (fault : TemplateFault)
  | exception (fault : ExceptionFault)
deriving DecidableEq, Repr

/-- A fault of a record as a kind of error. -/
def RecordFault.kind : RecordFault → String
  | time fault => fault.kind
  | template fault => fault.kind
  | exception fault => fault.kind

/-- What is wrong with a record. -/
def RecordFault.message : RecordFault → String
  | time fault => fault.message
  | template fault => fault.message
  | exception fault => fault.message

/-- A log record. -/
structure LogRecord where
  /-- The name of the logger. -/
  logger : Json
  /-- The severity. -/
  level : Level
  /-- The name of the severity. -/
  levelName : Json
  /-- The template of the message. -/
  template : String
  /-- The values for the template. -/
  values : TemplateValues
  /-- When the record was made, or why that is not known. -/
  created : Except TimeFault Instant
  /-- The text of an exception, if one is attached, or why it cannot be shown. -/
  exception : Except ExceptionFault (Option String)
  /-- The attributes of the record's own. -/
  attributes : List (String × Json)

/-- The names of the fields that every record has. -/
def standardFields : List String :=
  ["name", "msg", "args", "levelname", "levelno", "pathname", "filename", "module", "lineno",
   "funcName", "created", "msecs", "relativeCreated", "thread", "threadName", "processName",
   "process", "message", "exc_info", "exc_text", "stack_info", "taskName"]

/-- The names of the attributes that a context sets. -/
def contextFields : List String := ["policy_family", "expression", "resolution_tag"]

/-- Put a value under a name, in the place of a value that is there already. -/
def putField (name : String) (value : Json) : List (String × Json) → List (String × Json)
  | [] => [(name, value)]
  | (other, old) :: rest =>
    if other = name then (name, value) :: rest else (other, old) :: putField name value rest

/-- The instant that a value tells as a number of seconds after the start of 1970. -/
def Instant.ofJson : Json → Except TimeFault Instant
  | .integer n => ofMicroseconds (n * 1000000)
  | .boolean b => ofMicroseconds (if b then 1000000 else 0)
  | .number x => ofSeconds x
  | other => .error (.notANumber other.typeName)

/-- The text of the exception that a value shows; a value that does not count as present shows
none. The only list that is an exception holds no error and no trace. -/
def exceptionTextOf (value : Json) : Except ExceptionFault (Option String) :=
  if value.isTruthy then
    match value with
    | .list (_ :: .null :: .null :: _) => .ok (some "NoneType: None")
    | .list (_ :: error :: .null :: _) => .error (.notAnError error.typeName)
    | .list (_ :: _ :: trace :: _) => .error (.notATrace trace.typeName)
    | .list _ => .error (.tooFewParts "list")
    | .text s => .error (if s.length < 3 then .tooFewParts "string" else .notATrace "str")
    | .object _ => .error .partsByName
    | other => .error (.noParts other.typeName)
  else .ok none

namespace LogRecord

/-- The name that records show of a logger; the one without a name is the root logger. -/
def shownLogger (name : String) : String := if name = "" then "root" else name

/-- A record without attributes. -/
def make (logger : Json) (level : Level) (template : String) (values : TemplateValues)
    (created : Except TimeFault Instant) : LogRecord :=
  ⟨logger, level, .text level.name, template, values, created, .ok none, []⟩

/-- The record of an event. -/
def ofEvent (event : Event) (created : Instant) : LogRecord :=
  make (.text event.channel) event.level event.template (.inOrder event.values) (.ok created)

/-- The attribute with a name. -/
def attribute? (record : LogRecord) (name : String) : Option Json :=
  (record.attributes.find? (·.1 = name)).map (·.2)

/-- Attach an attribute. -/
def attach (record : LogRecord) (name : String) (value : Json) : LogRecord :=
  match name with
  | "name" => { record with logger := value }
  | "levelname" => { record with levelName := value }
  | "msg" => { record with template := value.display }
  | "args" => { record with values := .ofValue value }
  | "created" => { record with created := Instant.ofJson value }
  | "exc_info" => { record with exception := exceptionTextOf value }
  | name => { record with attributes := putField name value record.attributes }

/-- Attach attributes in order. -/
def attachAll (record : LogRecord) (attributes : List (String × Json)) : LogRecord :=
  attributes.foldl (fun r (name, value) => r.attach name value) record

/-- A record that carries a context. -/
def inContext (record : LogRecord) (context : Context) : LogRecord :=
  ((record.attach "policy_family" (Json.optionalText context.family)).attach
    "expression" (Json.optionalText context.expression)).attach
    "resolution_tag" (.text context.tag)

/-- The message of a record. -/
def message (record : LogRecord) : Except RecordFault String :=
  (fillTemplate record.template record.values).mapError .template

/-- When a record was made. -/
def time (record : LogRecord) : Except RecordFault Instant := record.created.mapError .time

/-- The second in which a record was made, if that is known. -/
def second (record : LogRecord) : Int :=
  match record.time with
  | .ok time => time.microseconds.fdiv 1000000
  | .error _ => 0

/-- The text of a record's exception, if it has one. -/
def exceptionText (record : LogRecord) : Except RecordFault (Option String) :=
  record.exception.mapError .exception

end LogRecord

/-- An attribute whose name is not free. -/
structure ReservedName where
  /-- The name. -/
  name : String
deriving DecidableEq, Repr

/-- What is wrong with an attribute's name. -/
def ReservedName.message (fault : ReservedName) : String :=
  quoted s!"Attempt to overwrite {quoted fault.name} in LogRecord"

/-- The names that no attribute may have that a caller passes along with a message. -/
def reservedNames : List String :=
  standardFields.filter (· ≠ "taskName") ++ ["asctime"]

/-- The first attribute whose name is reserved. -/
def reserved? (attributes : List (String × Json)) : Option ReservedName :=
  (attributes.find? fun field => reservedNames.contains field.1).map fun field => ⟨field.1⟩

end DriverPolicy
