import DriverPolicy.Expression.Call
import DriverPolicy.Expression.Fragment
import DriverPolicy.Text.Letter

/-!
# Classifying and reading one argument

An argument with a bracket that does not come first, and does not begin with a quote, is a
nested call; so is a bare name that begins with a letter. Anything else that contains a
quote is a string, of which all quotes are dropped. The rest are numbers: a marker in
brackets, in any letter case, gives the kind; without one a point makes it a float, and
anything else is an int.
-/

namespace DriverPolicy

/-- Whether a text is a letter followed by letters and points. -/
def isBareName : List Char → Bool
  | [] => false
  | c :: rest => isLetter c && rest.all isNameChar

/-- Whether an argument is a nested call. -/
def isCallFragment (text : List Char) : Bool :=
  let opensOtherwise :=
    match text with
    | c :: _ => c = '(' || isQuote c
    | [] => false
  (text.contains '(' && !opensOtherwise) || isBareName text

/-- The words that a marker may hold. -/
def markerWords : List (List Char) :=
  ["double".toList, "float".toList, "long".toList, "int".toList]

/-- Whether a character stands for a small letter of a marker in some case; the letter i also has
the dotted capital and the dotless small form. -/
def matchesMarkerLetter (letter c : Char) : Bool :=
  lowerChar c = letter || (letter = 'i' && (c.toNat = 0x130 || c.toNat = 0x131))

/-- The small form of a character of a marker; the dotted capital keeps its dot as a mark. -/
def lowerMarkerChar (c : Char) : List Char :=
  if c.toNat = 0x130 then ['i', Char.ofNat 0x307] else [lowerChar c]

/-- The start of a text that spells a word in some case, and what follows. -/
def takeWord : List Char → List Char → Option (List Char × List Char)
  | [], text => some ([], text)
  | letter :: word, c :: text =>
    if matchesMarkerLetter letter c then
      (takeWord word text).map fun (taken, rest) => (c :: taken, rest)
    else none
  | _ :: _, [] => none

/-- A marker at the start of a text, and what follows its closing bracket. -/
def takeMarker? : List Char → Option (List Char × List Char)
  | '(' :: text =>
    markerWords.findSome? fun word =>
      match takeWord word (text.dropWhile isBlank) with
      | some (taken, rest) =>
        match rest.dropWhile isBlank with
        | ')' :: body => some (taken.flatMap lowerMarkerChar, body)
        | _ => none
      | none => none
  | _ => none

/-- The marker of an argument in small letters, if it has one, and the body after it. -/
def splitMarker (text : List Char) : Option (List Char) × List Char :=
  match takeMarker? text with
  | some (marker, body) => (some marker, trim body)
  | none => (none, text)

/-- The least and the greatest integer of 32 bits. -/
def intRange : Int × Int := (-2147483648, 2147483647)

/-- The least and the greatest integer of 64 bits. -/
def longRange : Int × Int := (-9223372036854775808, 9223372036854775807)

namespace Literal

/-- The fault of a number that does not read as its kind. -/
def badNumber {α : Type} (body : List Char) (kind : ArgumentKind) (source : List Char)
    (position : Int) : Except ReadingFault α :=
  .error (.expression
    ⟨.number (String.ofList body) kind.name, String.ofList source, position⟩)

/-- Read an integer within a range. -/
def readIntegerIn (range : Int × Int) (kind : ArgumentKind) (body source : List Char)
    (position : Int) : Except ReadingFault Int :=
  match readInteger body with
  | none => badNumber body kind source position
  | some (negative, digits) =>
    if integerDigitLimit < digits.length then .error (.tooManyDigits digits.length)
    else
      let value := signedValue negative digits
      if range.1 ≤ value && value ≤ range.2 then .ok value
      else badNumber body kind source position

/-- Read a finite number of 64 bits. -/
def readDouble (body source : List Char) (position : Int) : Except ReadingFault Binary :=
  match (Decimal.read body).map Decimal.toBinary with
  | some x => if x.isFinite then .ok x else badNumber body .double source position
  | none => badNumber body .double source position

/-- Read a number of 64 bits within the range of 32 bits and round it to these. -/
def readFloat (body source : List Char) (position : Int) : Except ReadingFault Binary :=
  match (Decimal.read body).map Decimal.toBinary with
  | some x => if x.fitsSingle then .ok x.toSingle else badNumber body .float source position
  | none => badNumber body .float source position

/-- Read an argument that is not a nested call. -/
def read (text source : List Char) (position : Int) : Except ReadingFault Literal :=
  if text.any isQuote then .ok (.string (String.ofList (text.filter fun c => !isQuote c)))
  else
    let (marker, body) := splitMarker text
    if marker = some "double".toList then return .double (← readDouble body source position)
    else if marker = some "float".toList || (marker = none && body.contains '.') then
      return .float (← readFloat body source position)
    else if marker = some "long".toList then
      return .long (← readIntegerIn longRange .long body source position)
    else return .int (← readIntegerIn intRange .int body source position)

end Literal

/-- Read an argument at `position`, its nested calls by `readCall`. -/
def Argument.readWith (readCall : List Char → Int → Except ReadingFault Call)
    (text source : List Char) (position : Int) : Except ReadingFault Argument :=
  if isCallFragment text then (readCall text position).map Call.toArgument
  else (Literal.read text source position).map .literal

end DriverPolicy
