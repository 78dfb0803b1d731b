import DriverPolicy.Logging.Directive

/-!
# Message templates

A template is text with directives in it. It is filled with values, one for each directive in
order, or with one whole value from which directives select by name; every value has to be
used in the first case. Without values the template is the message as it stands.
-/

namespace DriverPolicy

/-- What a template is filled with. -/
inductive TemplateValues where
  | inOrder (values : List Json)
  | whole (value : Json)

namespace TemplateValues

/-- The values in a list; a single object that is not empty is taken as a whole. -/
def ofList : List Json → TemplateValues
  | [.object (field :: fields)] => .whole (.object (field :: fields))
  | values => .inOrder values

/-- A value in the place of a list of values: lists and objects are taken as a whole, and one that
does not count as present gives none. -/
def ofValue (value : Json) : TemplateValues :=
  if value.isTruthy then
    match value with
    | .list _ | .object _ => .whole value
    | single => .inOrder [single]
  else .inOrder []

/-- Whether there is nothing to fill a template with. -/
def isEmpty : TemplateValues → Bool
  | inOrder values => values.isEmpty
  | whole _ => false

/-- How the values show; a comma stands behind one alone. -/
def display : TemplateValues → String
  | inOrder [single] => s!"({single.term},)"
  | inOrder values => "(" ++ ", ".intercalate (values.map Json.term) ++ ")"
  | whole value => value.display

end TemplateValues

/-- A part of a template: a character, or a directive whose percent sign stands at `index`. -/
inductive TemplatePart where
  | char (c : Char)
  | directive (directive : Directive) (index : Nat)
deriving DecidableEq, Repr

/-- The parts of a template from an index on. -/
def templateParts (index : Nat) (text : List Char) : List TemplatePart :=
  match text with
  | [] => []
  | c :: rest =>
    if c = '%' then
      let directive := Directive.read rest
      .directive directive index ::
        templateParts (index + 1 + directive.size) (rest.drop directive.size)
    else .char c :: templateParts (index + 1) rest
termination_by text.length
decreasing_by
  all_goals simp only [List.length_cons, List.length_drop]; omega

/-- The values that are still to be used, and those that can be selected by name. -/
structure Supply where
  /-- The value to select from, if there is one. -/
  whole : Option Json
  /-- The values that come next. -/
  pending : List Json

/-- Work that uses up values. -/
abbrev Filling (α : Type) := StateT Supply (Except TemplateFault) α

namespace Filling

/-- The next value. -/
def next : Filling Json := fun supply =>
  match supply.pending with
  | value :: rest => .ok (value, { supply with pending := rest })
  | [] => .error .tooFewValues

/-- Make the value that a key selects the next one. -/
def select : DirectiveKey → Filling Unit
  | .none => return
  | key => fun supply =>
    match supply.whole, key with
    | none, _ => .error .valuesWithoutNames
    | some _, .unclosed => .error .incompleteKey
    | some (.list _), .named _ => .error .itemsWithoutNames
    | some value, .named name =>
      match value.field? name with
      | some value => .ok ((), { supply with pending := [value] })
      | none => .error (.missingName name)
    | some _, .none => .ok ((), supply)

/-- A length, which may come from a value. -/
def length (limit : LengthLimit) : FieldLength → Filling Int
  | .given n => if limit.greatest < n then throw limit.whenGiven else return n
  | .fromValue => do
    match ← next with
    | .integer n =>
      if n < -limit.greatest - 1 || limit.greatest < n then throw limit.whenTaken else return n
    | .boolean b => return (if b then 1 else 0)
    | _ => throw .lengthNotAnInteger

/-- The text of a directive. Two percent signs in a row stand for one. A negative width puts the
blanks behind the field. -/
def directive (d : Directive) (index : Nat) : Filling (List Char) := do
  if d.letter = some '%' && d.size = 1 then return ['%']
  select d.key
  let width ← match d.width with | some w => length widthLimit w | none => pure 0
  let precision ←
    match d.precision with | some p => some <$> length precisionLimit p | none => pure none
  match d.letter with
  | none => throw .incompleteDirective
  | some letter =>
    let flags := if width < 0 then { d.flags with left := true } else d.flags
    flags.writeValue width.natAbs (precision.map Int.toNat) letter (index + d.size) (← next)

/-- The text of parts. -/
def parts : List TemplatePart → Filling (List Char)
  | [] => return []
  | .char c :: rest => return c :: (← parts rest)
  | .directive d index :: rest => do
    let text ← directive d index
    return text ++ (← parts rest)

end Filling

/-- A template filled with values. -/
def fillTemplate (template : String) (values : TemplateValues) : Except TemplateFault String :=
  if values.isEmpty then .ok template
  else do
    let supply : Supply :=
      match values with
      | .inOrder values => ⟨none, values⟩
      | .whole value => ⟨some value, [value]⟩
    let (text, left) ← (Filling.parts (templateParts 0 template.toList)).run supply
    if left.whole.isNone && !left.pending.isEmpty then throw .tooManyValues
    return String.ofList text

end DriverPolicy
