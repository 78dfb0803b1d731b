import DriverPolicy.Toml.Lexeme

/-!
# TOML documents

A document is a sequence of lines. A header opens a table, or adds a table to an array of
tables; a line of a key and a value puts the value into the table that is open, inside the
tables that the parts of its key name. No value is written twice, no table is opened twice,
and arrays and tables written as values are closed to later lines.
-/

namespace DriverPolicy

namespace Toml

/-- The names on the way to a value. -/
abbrev Key := List String

/-- A table with a value in place of the one with the same name, or at the end. -/
def putField (name : String) (value : TomlValue) : TomlTable → TomlTable
  | [] => [(name, value)]
  | (other, old) :: rest =>
    if other = name then (name, value) :: rest else (other, old) :: putField name value rest

/-- Change the table that a key leads to; missing tables on the way are made. A way through an
array of tables goes on in its last table, if arrays may be entered. -/
def changeTable (entersArrays : Bool) (change : TomlTable → Option TomlTable) :
    Key → TomlTable → Option TomlTable
  | [], table => change table
  | name :: rest, table =>
    match table.find? name with
    | none => do
      return putField name (.table (← changeTable entersArrays change rest [])) table
    | some (.table inner) => do
      return putField name (.table (← changeTable entersArrays change rest inner)) table
    | some (.list items) =>
      if entersArrays then
        match items.getLast? with
        | some (.table last) => do
          let changed ← changeTable entersArrays change rest last
          return putField name (.list (items.dropLast ++ [.table changed])) table
        | _ => none
      else none
    | some _ => none

/-- Add a field of a new name. -/
def addField (name : String) (value : TomlValue) (table : TomlTable) : Option TomlTable :=
  match table.find? name with
  | none => some (table ++ [(name, value)])
  | some _ => none

/-- Add an empty table to an array of tables, which is made if it is missing. -/
def addTable (name : String) (table : TomlTable) : Option TomlTable :=
  match table.find? name with
  | none => some (table ++ [(name, .list [.table []])])
  | some (.list items) => some (putField name (.list (items ++ [.table []])) table)
  | some _ => none

/-- Whether one key leads through another. -/
def leadsThrough (way key : Key) : Bool := way ≠ [] && key.take way.length = way

/-- Whether a value is an array or a table. -/
def isCollection : TomlValue → Bool
  | .list _ | .table _ => true
  | _ => false

/-- An answer, or a fault if there is none. -/
def orFault {α : Type} : Option α → Except TomlFault α
  | some a => .ok a
  | none => .error .malformed

/-- A table that is written as a value, up to some field: the fields, and the keys that are
closed because their values are collections. -/
structure InlineTable where
  /-- The fields so far. -/
  fields : TomlTable
  /-- The keys of collections. -/
  closed : List Key

/-- Add a field to a table that is written as a value. -/
def InlineTable.add (table : InlineTable) (key : Key) (value : TomlValue) :
    Except TomlFault InlineTable := do
  if table.closed.any (leadsThrough · key) then throw .malformed
  let fields ← orFault
    (changeTable false (addField (key.getLast?.getD "") value) key.dropLast table.fields)
  return ⟨fields, if isCollection value then key :: table.closed else table.closed⟩

mutual

/-- Read a value. -/
def readValue (text : List Char) : Except TomlFault (Taken text TomlValue) :=
  match text with
  | 't' :: 'r' :: 'u' :: 'e' :: rest =>
    .ok (.boolean true, ((Upto.whole rest).beyond ['r', 'u', 'e']).past)
  | 'f' :: 'a' :: 'l' :: 's' :: 'e' :: rest =>
    .ok (.boolean false, ((Upto.whole rest).beyond ['a', 'l', 's', 'e']).past)
  | '[' :: rest => do
    let start ← skipLines rest
    let (items, after) ← readItems start.1
    return (.list items, (start.andAfter after).past)
  | '\x7b' :: rest => do
    let start := skipBlanks rest
    match hstart : start.1 with
    | '\x7d' :: _ => return (.table [], (start.tail hstart).past)
    | _ => do
      let (fields, after) ← readFields ⟨[], []⟩ start.1
      return (.table fields, (start.andAfter after).past)
  | other =>
    match readString? other with
    | some taken => taken.map fun (value, after) => (.text value, after)
    | none =>
      match readDate? other with
      | some taken => taken
      | none =>
        match readTime? other with
        | some (time, after) => .ok (.time time, after)
        | none =>
          match readNumber? other with
          | some taken => taken
          | none =>
            match readSpecial? other with
            | some (value, after) => .ok (.number value, after)
            | none => .error .malformed
termination_by (text.length, 0)
decreasing_by
  · exact Prod.Lex.left _ _ start.past.2
  · exact Prod.Lex.left _ _ start.past.2

/-- Read the items of an array up to its closing bracket. -/
def readItems (text : List Char) : Except TomlFault (Taken text (List TomlValue)) :=
  match text with
  | ']' :: rest => .ok ([], (Upto.whole rest).past)
  | other => do
    let (item, afterItem) ← readValue other
    let next ← skipLines afterItem.1
    match hnext : next.1 with
    | ']' :: _ => return ([item], (afterItem.andThen next).tail hnext)
    | ',' :: rest =>
      let start ← skipLines rest
      let (items, after) ← readItems start.1
      return (item :: items, ((afterItem.andThen next).tail hnext).andAfter (start.andAfter after))
    | _ => throw .malformed
termination_by (text.length, 1)
decreasing_by
  · exact Prod.Lex.right _ Nat.zero_lt_one
  · exact Prod.Lex.left _ _ (((afterItem.andThen next).tail hnext).andThen start).2

/-- Read the fields of a table that is written as a value up to its closing brace. -/
def readFields (table : InlineTable) (text : List Char) :
    Except TomlFault (Taken text TomlTable) := do
  let (key, afterKey) ← readKey text
  match hequals : afterKey.1 with
  | '=' :: rest =>
    let start := (afterKey.tail hequals).andThen (skipBlanks rest)
    let (value, afterValue) ← readValue start.1
    let table ← table.add key value
    let next := (start.andAfter afterValue).andThen (skipBlanks afterValue.1)
    match hnext : next.1 with
    | '\x7d' :: _ => return (table.fields, next.tail hnext)
    | ',' :: more =>
      let start := (next.tail hnext).andThen (skipBlanks more)
      let (fields, after) ← readFields table start.1
      return (fields, start.andAfter after)
    | _ => throw .malformed
  | _ => throw .malformed
termination_by (text.length, 2)
decreasing_by
  · exact Prod.Lex.left _ _ start.2
  · exact Prod.Lex.left _ _ start.2

end

/-- A document up to some line. -/
structure Document where
  /-- The tables and values so far. -/
  root : TomlTable
  /-- The key of the open table. -/
  opened : Key
  /-- The keys of arrays and tables that were written as values. -/
  closed : List Key
  /-- The keys of tables that may not be opened any more. -/
  declared : List Key
  /-- Tables that were made by keys with points since the last header. -/
  pending : List Key

namespace Document

/-- The empty document. -/
def empty : Document := ⟨[], [], [], [], []⟩

/-- Whether a key leads through an array or a table that was written as a value. -/
def isClosed (document : Document) (key : Key) : Bool := document.closed.any (leadsThrough · key)

/-- What a header does first: tables that were made by keys with points may not be opened. -/
def settle (document : Document) : Document :=
  { document with declared := document.declared ++ document.pending, pending := [] }

/-- Open a table. -/
def openTable (document : Document) (key : Key) : Except TomlFault Document := do
  let document := document.settle
  if document.declared.contains key || document.isClosed key then throw .malformed
  let root ← orFault (changeTable true some key document.root)
  return { document with root, opened := key, declared := key :: document.declared }

/-- Add a table to an array of tables and open it. -/
def openItem (document : Document) (key : Key) : Except TomlFault Document := do
  let document := document.settle
  if document.isClosed key then throw .malformed
  let root ← orFault
    (changeTable true (addTable (key.getLast?.getD "")) key.dropLast document.root)
  return { document with
    root, opened := key,
    closed := document.closed.filter fun other => !leadsThrough key other,
    declared := key :: document.declared.filter fun other => !leadsThrough key other }

/-- The keys of the tables that a key with points goes through. -/
def tablesOf (key : Key) : List Key :=
  (List.range (key.length - 1)).map fun n => key.take (n + 1)

/-- Put a value into the open table. -/
def assign (document : Document) (key : Key) (value : TomlValue) : Except TomlFault Document := do
  let made := (tablesOf key).map (document.opened ++ ·)
  if made.any document.declared.contains then throw .malformed
  if document.isClosed (document.opened ++ key.dropLast) then throw .malformed
  let root ← orFault (changeTable true (addField (key.getLast?.getD "") value)
    (document.opened ++ key.dropLast) document.root)
  return { document with
    root, pending := document.pending ++ made,
    closed := if isCollection value then (document.opened ++ key) :: document.closed
      else document.closed }

end Document

/-- Read one line that is not blank, up to the blanks after it. -/
def readLine (document : Document) (text : List Char) : Except TomlFault (Taken text Document) :=
  match text with
  | '[' :: '[' :: rest => do
    let start := skipBlanks rest
    let (key, after) ← readKey start.1
    let document ← document.openItem key
    match hafter : after.1 with
    | ']' :: ']' :: final =>
      let close := (after.tail hafter).andThen (Upto.whole final).past.upto
      return (document, (start.andAfter close).past.past)
    | _ => throw .malformed
  | '[' :: rest => do
    let start := skipBlanks rest
    let (key, after) ← readKey start.1
    let document ← document.openTable key
    match hafter : after.1 with
    | ']' :: _ => return (document, (start.andAfter (after.tail hafter)).past)
    | _ => throw .malformed
  | other => do
    let (key, afterKey) ← readKey other
    match hequals : afterKey.1 with
    | '=' :: rest =>
      let start := (afterKey.tail hequals).andThen (skipBlanks rest)
      let (value, after) ← readValue start.1
      let document ← document.assign key value
      return (document, start.andAfter after)
    | _ => throw .malformed

/-- Whether nothing, a line break or a comment comes next. -/
def endsLine : List Char → Bool
  | [] => true
  | c :: _ => c = '\n' || c = '#'

/-- Read the end of a line, which is blank up to a comment: the text after its line break, and
none if the text ends there. -/
def readLineEnd (text : List Char) : Except TomlFault (Option (After text)) := do
  let blanks := skipBlanks text
  let left := blanks.andThen (← skipComment blanks.1)
  match hleft : left.1 with
  | '\n' :: _ => return some (left.tail hleft)
  | [] => return none
  | _ => throw .malformed

/-- Read the lines of a document. -/
def readLines (document : Document) (text : List Char) : Except TomlFault Document := do
  let start := skipBlanks text
  let (document, left) ←
    if endsLine start.1 then pure (document, start)
    else do
      let (document, after) ← readLine document start.1
      pure (document, start.andThen after.upto)
  match ← readLineEnd left.1 with
  | some after => readLines document after.1
  | none => return document
termination_by text.length
decreasing_by exact (left.andAfter after).2

/-- Lines may end in a carriage return and a line break. -/
def joinLineEnds : List Char → List Char
  | '\r' :: '\n' :: rest => '\n' :: joinLineEnds rest
  | c :: rest => c :: joinLineEnds rest
  | [] => []

end Toml

/-- Read a TOML document. -/
def TomlTable.parse (text : List Char) : Except TomlFault TomlTable :=
  (Toml.readLines .empty (Toml.joinLineEnds text)).map (·.root)

end DriverPolicy
