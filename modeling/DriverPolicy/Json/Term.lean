import DriverPolicy.Json
import DriverPolicy.Text.Quoted

/-!
# JSON values as terms

A term is how a value shows inside a message: texts stand between apostrophes, and the three
constants are capitalised. The display of a value is its term, but for a text the text itself.
-/

namespace DriverPolicy.Json

mutual

/-- A value as a term. -/
def term : Json → String
  | null => "None"
  | boolean b => if b then "True" else "False"
  | integer n => toString n
  | number x => x.text
  | text s => quoted s
  | list items => "[" ++ ", ".intercalate (termAll items) ++ "]"
  | object fields => "\x7b" ++ ", ".intercalate (termFields fields) ++ "\x7d"

/-- Values as terms. -/
def termAll : List Json → List String
  | [] => []
  | item :: items => item.term :: termAll items

/-- Fields as terms. -/
def termFields : List (String × Json) → List String
  | [] => []
  | (key, value) :: fields => (quoted key ++ ": " ++ value.term) :: termFields fields

end

/-- A value as it shows outside of other values. -/
def display : Json → String
  | text s => s
  | other => other.term

/-- One character of a term in ASCII: any other is written by its code. -/
def asciiChar (c : Char) : List Char :=
  if c.toNat < 0x80 then [c]
  else if c.toNat < 0x100 then '\\' :: 'x' :: hexDigits 2 c.toNat
  else if c.toNat < 0x10000 then '\\' :: 'u' :: hexDigits 4 c.toNat
  else '\\' :: 'U' :: hexDigits 8 c.toNat

/-- A value as a term in ASCII. -/
def asciiTerm (value : Json) : String := String.ofList (value.term.toList.flatMap asciiChar)

/-- The name of a value's type. -/
def typeName : Json → String
  | null => "NoneType"
  | boolean _ => "bool"
  | integer _ => "int"
  | number _ => "float"
  | text _ => "str"
  | list _ => "list"
  | object _ => "dict"

end DriverPolicy.Json
