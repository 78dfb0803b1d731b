import DriverPolicy.Number.Shortest

/-!
# JSON values and their text

The fields of an object keep their order. The compact form stands on one line with a blank
after each comma and colon; the indented form puts every item on a line of its own. Both
write text in ASCII: any other character is escaped by its UTF-16 units.
-/

namespace DriverPolicy

/-- A JSON value. -/
inductive Json where
  | null
  | boolean (value : Bool)
  | integer (value : Int)
  | number (value : Binary)
  | text (value : String)
  | list (items : List Json)
  | object (fields : List (String × Json))
deriving Inhabited, Repr

namespace Json

mutual

/-- Whether two values are the same. -/
def same : Json → Json → Bool
  | null, null => true
  | boolean a, boolean b => a = b
  | integer a, integer b => a = b
  | number a, number b => a = b
  | text a, text b => a = b
  | list as, list bs => sameItems as bs
  | object as, object bs => sameFields as bs
  | _, _ => false

/-- Whether two lists hold the same values. -/
def sameItems : List Json → List Json → Bool
  | [], [] => true
  | a :: as, b :: bs => a.same b && sameItems as bs
  | _, _ => false

/-- Whether two objects have the same fields in the same order. -/
def sameFields : List (String × Json) → List (String × Json) → Bool
  | [], [] => true
  | (key, a) :: as, (other, b) :: bs => key = other && a.same b && sameFields as bs
  | _, _ => false

end

mutual

/-- The same values are equal. -/
theorem same_iff (a b : Json) : a.same b = true ↔ a = b := by
  cases a with
  | list as => cases b <;> simp [same, sameItems_iff as]
  | object as => cases b <;> simp [same, sameFields_iff as]
  | _ => cases b <;> simp [same]

/-- The same items are equal lists. -/
theorem sameItems_iff (as bs : List Json) : sameItems as bs = true ↔ as = bs := by
  cases as with
  | nil => cases bs <;> simp [sameItems]
  | cons a as =>
    cases bs with
    | nil => simp [sameItems]
    | cons b bs => simp [sameItems, same_iff a, sameItems_iff as]

/-- The same fields are equal lists. -/
theorem sameFields_iff (as bs : List (String × Json)) : sameFields as bs = true ↔ as = bs := by
  match as, bs with
  | [], [] => simp [sameFields]
  | [], _ :: _ => simp [sameFields]
  | _ :: _, [] => simp [sameFields]
  | (key, a) :: as, (other, b) :: bs => simp [sameFields, same_iff a, sameFields_iff as]

end

instance : DecidableEq Json := fun a b => decidable_of_iff (a.same b = true) (same_iff a b)

/-- Numbers look as in plain text, the infinities and the missing number by their names. -/
def numberLayout : FloatLayout := { plainLayout with infinity := "Infinity", notANumber := "NaN" }

/-- Four hexadecimal digits after the escape of a UTF-16 unit. -/
def unitEscape (n : Nat) : List Char :=
  let digits := Nat.toDigits 16 n
  '\\' :: 'u' :: (List.replicate (4 - digits.length) '0' ++ digits)

/-- One character inside a JSON text. -/
def escapeChar (c : Char) : List Char :=
  if c = '"' then ['\\', '"']
  else if c = '\\' then ['\\', '\\']
  else if c = '\n' then ['\\', 'n']
  else if c = '\r' then ['\\', 'r']
  else if c = '\t' then ['\\', 't']
  else if c.toNat = 8 then ['\\', 'b']
  else if c.toNat = 12 then ['\\', 'f']
  else if 32 ≤ c.toNat && c.toNat < 127 then [c]
  else if c.toNat < 0x10000 then unitEscape c.toNat
  else
    let offset := c.toNat - 0x10000
    unitEscape (0xD800 + offset / 0x400) ++ unitEscape (0xDC00 + offset % 0x400)

/-- A string as a JSON text. -/
def quote (s : String) : String :=
  String.ofList ('"' :: s.toList.flatMap escapeChar ++ ['"'])

/-- A line break and two blanks for every level. -/
def lineBreak (level : Nat) : String := String.ofList ('\n' :: List.replicate (2 * level) ' ')

mutual

/-- The text of a value on one line, put in front of `rest`. -/
def compactOnto (acc : String) : Json → String
  | null => acc ++ "null"
  | boolean b => acc ++ (if b then "true" else "false")
  | integer n => acc ++ toString n
  | number x => acc ++ numberLayout.write x
  | text s => acc ++ quote s
  | list items => compactItems (acc ++ "[") "" items ++ "]"
  | object fields => compactFields (acc ++ "\x7b") "" fields ++ "\x7d"

/-- The items of a list on one line, a separator in front of each. -/
def compactItems (acc separator : String) : List Json → String
  | [] => acc
  | item :: items => compactItems (compactOnto (acc ++ separator) item) ", " items

/-- The fields of an object on one line, a separator in front of each. -/
def compactFields (acc separator : String) : List (String × Json) → String
  | [] => acc
  | (key, value) :: fields =>
    compactFields (compactOnto (acc ++ separator ++ quote key ++ ": ") value) ", " fields

end

/-- The text of a value on one line. -/
def compact (value : Json) : String := compactOnto "" value

mutual

/-- The indented text of a value that stands `level` levels deep, put behind `acc`. -/
def indentedOnto (acc : String) (level : Nat) : Json → String
  | list [] => acc ++ "[]"
  | object [] => acc ++ "\x7b\x7d"
  | list (item :: items) =>
    let first := indentedOnto (acc ++ "[" ++ lineBreak (level + 1)) (level + 1) item
    indentedItems first (level + 1) items ++ lineBreak level ++ "]"
  | object ((key, value) :: fields) =>
    let start := acc ++ "\x7b" ++ lineBreak (level + 1) ++ quote key ++ ": "
    let first := indentedOnto start (level + 1) value
    indentedFields first (level + 1) fields ++ lineBreak level ++ "\x7d"
  | null => acc ++ "null"
  | boolean b => acc ++ (if b then "true" else "false")
  | integer n => acc ++ toString n
  | number x => acc ++ numberLayout.write x
  | text s => acc ++ quote s

/-- The further items of a list, each on a line of its own. -/
def indentedItems (acc : String) (level : Nat) : List Json → String
  | [] => acc
  | item :: items =>
    indentedItems (indentedOnto (acc ++ "," ++ lineBreak level) level item) level items

/-- The further fields of an object, each on a line of its own. -/
def indentedFields (acc : String) (level : Nat) : List (String × Json) → String
  | [] => acc
  | (key, value) :: fields =>
    let start := acc ++ "," ++ lineBreak level ++ quote key ++ ": "
    indentedFields (indentedOnto start level value) level fields

end

/-- The text of a value with every item on a line of its own. -/
def indented (value : Json) : String := indentedOnto "" 0 value

/-- A string as a value, or null. -/
def optionalText : Option String → Json
  | some s => text s
  | none => null

/-- Strings as a list value. -/
def texts (items : List String) : Json := list (items.map text)

/-- Whether a value counts as present: null, false, zero and the empty values do not. -/
def isTruthy : Json → Bool
  | null => false
  | boolean b => b
  | integer n => n ≠ 0
  | number (.finite _ m _) => m ≠ 0
  | number _ => true
  | text s => s ≠ ""
  | list items => !items.isEmpty
  | object fields => !fields.isEmpty

/-- The first field of an object with the given key. -/
def field? (key : String) : Json → Option Json
  | object fields => (fields.find? (·.1 = key)).map (·.2)
  | _ => none

end Json

end DriverPolicy
