import DriverPolicy.Json

/-!
# Looking into JSON values

A field of an object or an item of a list by its place, and the payload of a value by its kind.
Looking for what is not there gives null, and the payload of a value of another kind is none,
or in the short forms zero, false or empty.
-/

namespace DriverPolicy.Json

/-- Whether a value is null. -/
def isNull : Json → Bool
  | null => true
  | _ => false

/-- The field of an object with the given key; null without one. -/
def get (value : Json) (key : String) : Json := (value.field? key).getD .null

/-- Whether a value has a field with the given key. -/
def has (value : Json) (key : String) : Bool := (value.field? key).isSome

/-- The characters of a text. -/
def asText? : Json → Option String
  | text s => some s
  | _ => none

/-- The value of an integer. -/
def asInteger? : Json → Option Int
  | integer n => some n
  | _ => none

/-- The truth value of a boolean. -/
def asBoolean? : Json → Option Bool
  | boolean b => some b
  | _ => none

/-- The text in a field. -/
def text? (value : Json) (key : String) : Option String := (value.get key).asText?

/-- The integer in a field. -/
def integer? (value : Json) (key : String) : Option Int := (value.get key).asInteger?

/-- The boolean in a field. -/
def boolean? (value : Json) (key : String) : Option Bool := (value.get key).asBoolean?

/-- The characters of a text; none otherwise. -/
def asText (value : Json) : String := value.asText?.getD ""

/-- The value of an integer; zero otherwise. -/
def asInteger (value : Json) : Int := value.asInteger?.getD 0

/-- The items of a list; none otherwise. -/
def items : Json → List Json
  | list items => items
  | _ => []

/-- The fields of an object; none otherwise. -/
def fields : Json → List (String × Json)
  | object fields => fields
  | _ => []

/-- The characters in a field. -/
def textAt (value : Json) (key : String) : String := (value.get key).asText

/-- The characters in a field, as a list. -/
def charsAt (value : Json) (key : String) : List Char := (value.textAt key).toList

/-- The integer in a field; zero otherwise. -/
def integerAt (value : Json) (key : String) : Int := (value.get key).asInteger

/-- The items in a field. -/
def itemsAt (value : Json) (key : String) : List Json := (value.get key).items

/-- The truth value in a field; false otherwise. -/
def boolAt (value : Json) (key : String) : Bool := (value.boolean? key).getD false

/-- The item of a list with the given index; null without one. -/
def nth (value : Json) (index : Nat) : Json := (value.items[index]?).getD .null

end DriverPolicy.Json
