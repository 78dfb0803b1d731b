import DriverPolicy.Json
import DriverPolicy.Number.Decimal

/-!
# Reading JSON texts

A text is read character by character. The reader knows the lists and objects that are still
open, the innermost first, what may come next, and the string or word it is in the middle of.
Numbers with a point or an exponent become floating-point values, all others integers. In
strings a pair of escaped UTF-16 units stands for one character.
-/

namespace DriverPolicy

/-- A list or an object that is still open, its last item or field first. An object has the name
of the field whose value comes next. -/
inductive OpenJson where
  | list (items : List Json)
  | object (fields : List (String × Json)) (name : String)

/-- What may come next in a JSON text. -/
inductive JsonExpected where
  | value
  | valueOrClose
  | name
  | nameOrClose
  | colon
  | commaOrClose
  | nothing
deriving DecidableEq, Repr

/-- What the reader is in the middle of: the units of a string, an escape in it, the digits of a
unit, or the characters of a word; the last one comes first. -/
inductive JsonPart where
  | none
  | string (units : List Nat)
  | escape (units : List Nat)
  | code (units : List Nat) (digits : List Nat)
  | word (chars : List Char)

/-- A reader of JSON. -/
structure JsonReader where
  /-- The lists and objects that are open, the innermost first. -/
  frames : List OpenJson
  /-- What may come next. -/
  expected : JsonExpected
  /-- What is half read. -/
  part : JsonPart
  /-- The value of the whole text. -/
  result : Option Json

namespace JsonReader

/-- A reader at the start of a text. -/
def start : JsonReader := ⟨[], .value, .none, none⟩

/-- Whether a character may stand between the parts of a text. -/
def isSpace (c : Char) : Bool := c = ' ' || c = '\t' || c = '\n' || c = '\r'

/-- The value of a hexadecimal digit. -/
def hexDigit? (c : Char) : Option Nat :=
  if '0' ≤ c && c ≤ '9' then some (c.toNat - 48)
  else if 'a' ≤ c && c ≤ 'f' then some (c.toNat - 87)
  else if 'A' ≤ c && c ≤ 'F' then some (c.toNat - 55)
  else none

/-- The code of the character that a letter after a backslash stands for. -/
def escaped? (c : Char) : Option Nat :=
  if c = '"' || c = '\\' || c = '/' then some c.toNat
  else if c = 'b' then some 8
  else if c = 't' then some 9
  else if c = 'n' then some 10
  else if c = 'f' then some 12
  else if c = 'r' then some 13
  else none

/-- The characters that codes and UTF-16 units stand for. -/
def charsOfUnits : List Nat → List Char
  | high :: low :: rest =>
    if 0xD800 ≤ high && high < 0xDC00 && 0xDC00 ≤ low && low < 0xE000 then
      Char.ofNat (0x10000 + (high - 0xD800) * 0x400 + (low - 0xDC00)) :: charsOfUnits rest
    else Char.ofNat high :: charsOfUnits (low :: rest)
  | [unit] => [Char.ofNat unit]
  | [] => []

/-- The value of a word: a constant or a number. -/
def wordValue? (word : List Char) : Option Json :=
  match String.ofList word with
  | "null" => some .null
  | "true" => some (.boolean true)
  | "false" => some (.boolean false)
  | _ =>
    if word.any fun c => c = '.' || c = 'e' || c = 'E' then
      (Decimal.read word).map fun x => .number x.toBinary
    else (readInteger word).map fun (negative, digits) => .integer (signedValue negative digits)

/-- Whether a value may come next. -/
def wantsValue (reader : JsonReader) : Bool :=
  reader.expected = .value || reader.expected = .valueOrClose

/-- Whether the name of a field may come next. -/
def wantsName (reader : JsonReader) : Bool :=
  reader.expected = .name || reader.expected = .nameOrClose

/-- Put a value where it belongs. -/
def put (reader : JsonReader) (value : Json) : JsonReader :=
  match reader.frames with
  | [] => ⟨[], .nothing, .none, some value⟩
  | .list items :: frames => ⟨.list (value :: items) :: frames, .commaOrClose, .none, none⟩
  | .object fields name :: frames =>
    ⟨.object ((name, value) :: fields) "" :: frames, .commaOrClose, .none, none⟩

/-- Take the string that has been read as a name or as a value. -/
def putString (reader : JsonReader) (s : String) : Option JsonReader :=
  match reader.wantsName, reader.frames with
  | true, .object fields _ :: frames => some ⟨.object fields s :: frames, .colon, .none, none⟩
  | true, _ => none
  | false, _ => some (reader.put (.text s))

/-- Open a list or an object. -/
def enter (reader : JsonReader) (frame : OpenJson) (expected : JsonExpected) : Option JsonReader :=
  if reader.wantsValue then some ⟨frame :: reader.frames, expected, .none, none⟩ else none

/-- Close the innermost list. -/
def closeList (reader : JsonReader) : Option JsonReader :=
  match reader.frames with
  | .list items :: frames =>
    if reader.expected = .valueOrClose || reader.expected = .commaOrClose then
      some ({ reader with frames }.put (.list items.reverse))
    else none
  | _ => none

/-- Close the innermost object. -/
def closeObject (reader : JsonReader) : Option JsonReader :=
  match reader.frames with
  | .object fields _ :: frames =>
    if reader.expected = .nameOrClose || reader.expected = .commaOrClose then
      some ({ reader with frames }.put (.object fields.reverse))
    else none
  | _ => none

/-- Go on to the next item or field. -/
def goOn (reader : JsonReader) : Option JsonReader :=
  match reader.expected, reader.frames with
  | .commaOrClose, .list _ :: _ => some { reader with expected := .value }
  | .commaOrClose, .object _ _ :: _ => some { reader with expected := .name }
  | _, _ => none

/-- Read a character between strings and words. -/
def readBetween (reader : JsonReader) (c : Char) : Option JsonReader :=
  if isSpace c then some reader
  else if c = '"' then
    if reader.wantsValue || reader.wantsName then some { reader with part := .string [] } else none
  else if c = '[' then reader.enter (.list []) .valueOrClose
  else if c = '\x7b' then reader.enter (.object [] "") .nameOrClose
  else if c = ']' then reader.closeList
  else if c = '\x7d' then reader.closeObject
  else if c = ',' then reader.goOn
  else if c = ':' then
    if reader.expected = .colon then some { reader with expected := .value } else none
  else if reader.wantsValue then some { reader with part := .word [c] }
  else none

/-- Whether a character ends a word. -/
def endsWord (c : Char) : Bool := isSpace c || c = ',' || c = ']' || c = '\x7d'

/-- Read a character. -/
def read (reader : JsonReader) (c : Char) : Option JsonReader :=
  match reader.part with
  | .none => reader.readBetween c
  | .string units =>
    if c = '"' then reader.putString (String.ofList (charsOfUnits units.reverse))
    else if c = '\\' then some { reader with part := .escape units }
    else some { reader with part := .string (c.toNat :: units) }
  | .escape units =>
    if c = 'u' then some { reader with part := .code units [] }
    else (escaped? c).map fun code => { reader with part := .string (code :: units) }
  | .code units digits => do
    let digits := digits ++ [← hexDigit? c]
    if digits.length < 4 then return { reader with part := .code units digits }
    else return { reader with part := .string (digits.foldl (16 * · + ·) 0 :: units) }
  | .word chars =>
    if endsWord c then do (reader.put (← wordValue? chars.reverse)).readBetween c
    else some { reader with part := .word (c :: chars) }

/-- The value that has been read when the text ends. -/
def finish (reader : JsonReader) : Option Json :=
  match reader.part, reader.frames with
  | .none, [] => reader.result
  | .word chars, [] => wordValue? chars.reverse
  | _, _ => none

end JsonReader

/-- Read a whole text as a value. -/
def Json.parse? (text : String) : Option Json :=
  (text.toList.foldlM JsonReader.read .start).bind JsonReader.finish

end DriverPolicy
