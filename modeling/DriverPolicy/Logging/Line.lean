import DriverPolicy.Logging.Record
import DriverPolicy.Settings.Config

/-!
# Log lines

A record is written as text or as a JSON object. The text has the time, the tag of the
context, the logger, the severity and the message; writing it leaves the message and the time
on the record as attributes. The JSON object has the same and the context at its top, and the
record's own attributes in a field of their own, if there are any; names that begin with a
low line are private and left out. A field of the record is written whatever its value is.

A record whose message, time or exception cannot be shown is not written. Writing it as text then
leaves on it what comes before.
-/

namespace DriverPolicy.LogRecord

/-- A record after it was written as text: the message, the time and the text of the exception are
attached to it, up to the first of them that cannot be shown. -/
def afterText (record : LogRecord) : LogRecord :=
  match record.message with
  | .error _ => record
  | .ok message =>
    let record := record.attach "message" (.text message)
    match record.time with
    | .error _ => record
    | .ok time =>
      let record := record.attach "asctime" (.text time.secondStamp)
      match record.exceptionText with
      | .ok (some text) => record.attach "exc_text" (.text text)
      | _ => record

/-- The tag that the context left on a record. -/
def tag (record : LogRecord) : String :=
  match record.attribute? "resolution_tag" with
  | some value => value.display
  | none => ""

/-- A record as a line of text. -/
def textLine (record : LogRecord) : Except RecordFault String := do
  let message ← record.message
  let stamp := (← record.time).secondStamp
  let logger := record.logger.display
  let level := record.levelName.display
  let line := s!"{stamp} - {record.tag}{logger} - {level} - {message}"
  return match ← record.exceptionText with
    | some exception => line ++ "\n" ++ exception
    | none => line

/-- Whether an attribute is one of the record's own that a JSON line shows. -/
def isShown (name : String) : Bool :=
  !standardFields.contains name && !contextFields.contains name && name.toList.head? ≠ some '_'

/-- The record's own attributes that a JSON line shows. -/
def shownAttributes (record : LogRecord) : List (String × Json) :=
  record.attributes.filter fun field => isShown field.1

/-- The fields of a JSON line that show the context. -/
def contextPart (record : LogRecord) : List (String × Json) :=
  match record.attribute? "policy_family" with
  | some family =>
    if family.isTruthy then
      [("policy_family", family), ("expression", (record.attribute? "expression").getD .null)]
    else []
  | none => []

/-- The field of a JSON line that names the logger, unless it is the root logger or has no name. -/
def loggerPart (record : LogRecord) : List (String × Json) :=
  match record.logger with
  | .text "root" => []
  | name => if name.isTruthy then [("logger", name)] else []

/-- A record as a JSON object. The first fault is that of the time, then that of the message. -/
def toJson (record : LogRecord) : Except RecordFault Json := do
  let stamp := (← record.time).fullStamp
  let message ← record.message
  let own :=
    if record.shownAttributes.isEmpty then []
    else [("context", Json.object record.shownAttributes)]
  let exception :=
    match ← record.exceptionText with
    | some exception => [("exception", Json.text exception)]
    | none => []
  return .object ([("timestamp", .text stamp), ("level", record.levelName),
    ("message", .text message)] ++ record.loggerPart ++ record.contextPart ++ own ++ exception)

/-- A record as a line of JSON. -/
def jsonLine (record : LogRecord) : Except RecordFault String :=
  record.toJson.map Json.compact

/-- A record as a line in a form. -/
def line (record : LogRecord) : LogFormat → Except RecordFault String
  | .text => record.textLine
  | .json => record.jsonLine

end DriverPolicy.LogRecord
