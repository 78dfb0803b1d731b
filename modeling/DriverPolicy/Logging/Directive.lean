import DriverPolicy.Json.Term
import DriverPolicy.Number.Places
import DriverPolicy.Text.Letter

/-!
# Directives in message templates

A directive begins with a percent sign. It may select a value by a name in brackets; then
come flags, a least width, a precision after a point, and a letter that chooses the form in
which the value is written. Either length may be taken from a value of its own.
-/

namespace DriverPolicy

/-- Why a template cannot be filled. -/
inductive TemplateFault where
  | incompleteDirective
  | incompleteKey
  | unknownLetter (letter : Char) (index : Nat)
  | tooFewValues
  | tooManyValues
  | valuesWithoutNames
  | itemsWithoutNames
  | missingName (name : String)
  | lengthNotAnInteger
  | widthTooBig
  | precisionTooBig
  | widthOutOfRange
  | precisionOutOfRange
  | needsANumber (letter : Char) (typeName : String)
  | needsAnInteger (letter : Char) (typeName : String)
  | needsAReal (typeName : String)
  | needsACharacter
  | characterOutOfRange
  | infinityAsInteger
  | undefinedAsInteger
  | integerTooLarge
deriving DecidableEq, Repr

/-- A fault of a template as a kind of error. -/
def TemplateFault.kind : TemplateFault → String
  | incompleteDirective | incompleteKey | unknownLetter .. | widthTooBig | precisionTooBig
  | undefinedAsInteger => "ValueError"
  | missingName _ => "KeyError"
  | widthOutOfRange | precisionOutOfRange | characterOutOfRange | infinityAsInteger
  | integerTooLarge => "OverflowError"
  | _ => "TypeError"

/-- What is wrong with a template and its values. -/
def TemplateFault.message : TemplateFault → String
  | incompleteDirective => "incomplete format"
  | incompleteKey => "incomplete format key"
  | unknownLetter letter index =>
    let shown := if 31 ≤ letter.toNat && letter.toNat ≤ 126 then letter else '?'
    let code := String.ofList (hexDigits 1 letter.toNat)
    s!"unsupported format character '{shown}' (0x{code}) at index {index}"
  | tooFewValues => "not enough arguments for format string"
  | tooManyValues => "not all arguments converted during string formatting"
  | valuesWithoutNames => "format requires a mapping"
  | itemsWithoutNames => "list indices must be integers or slices, not str"
  | missingName name => quoted name
  | lengthNotAnInteger => "* wants int"
  | widthTooBig => "width too big"
  | precisionTooBig => "precision too big"
  | widthOutOfRange => "Python int too large to convert to C ssize_t"
  | precisionOutOfRange => "Python int too large to convert to C int"
  | needsANumber letter typeName =>
    s!"%{letter} format: a real number is required, not {typeName}"
  | needsAnInteger letter typeName =>
    s!"%{letter} format: an integer is required, not {typeName}"
  | needsAReal typeName => s!"must be real number, not {typeName}"
  | needsACharacter => "%c requires int or char"
  | characterOutOfRange => "%c arg not in range(0x110000)"
  | infinityAsInteger => "cannot convert float infinity to integer"
  | undefinedAsInteger => "cannot convert float NaN to integer"
  | integerTooLarge => "int too large to convert to float"

/-- How a directive selects its value. -/
inductive DirectiveKey where
  | none
  | unclosed
  | named (name : String)
deriving DecidableEq, Repr

/-- A width or a precision: a number, or one that comes from a value. -/
inductive FieldLength where
  | given (length : Nat)
  | fromValue
deriving DecidableEq, Repr

/-- What a length may be at most, and the faults of one that is greater: written in the template,
or taken from a value. -/
structure LengthLimit where
  /-- The greatest length. -/
  greatest : Nat
  /-- A greater length in the template. -/
  whenGiven : TemplateFault
  /-- A value of a greater magnitude. -/
  whenTaken : TemplateFault

/-- Widths fit into 64 bits. -/
def widthLimit : LengthLimit := ⟨9223372036854775807, .widthTooBig, .widthOutOfRange⟩

/-- Precisions fit into 32 bits. -/
def precisionLimit : LengthLimit := ⟨2147483647, .precisionTooBig, .precisionOutOfRange⟩

/-- The flags of a directive. -/
structure FieldFlags where
  /-- Blanks go behind the field. -/
  left : Bool
  /-- Numbers that are not negative get a plus. -/
  plus : Bool
  /-- Numbers that are not negative get a blank. -/
  blank : Bool
  /-- The alternate form is used. -/
  alternate : Bool
  /-- Numbers are filled with zeros. -/
  zero : Bool
deriving DecidableEq, Repr

/-- A directive. Without a letter the template ends before it is complete. -/
structure Directive where
  /-- How the value is selected. -/
  key : DirectiveKey
  /-- The flags. -/
  flags : FieldFlags
  /-- The least width. -/
  width : Option FieldLength
  /-- The precision. -/
  precision : Option FieldLength
  /-- The letter of the form. -/
  letter : Option Char
  /-- The number of characters after the percent sign. -/
  size : Nat
deriving DecidableEq, Repr

namespace Directive

/-- The characters before the bracket that closes a name in which `depth` more brackets are
open; none if it is never closed. -/
def untilClosed (depth : Nat) : List Char → Option (List Char)
  | [] => none
  | c :: rest =>
    if c = ')' then
      match depth with
      | 0 => some []
      | depth + 1 => (untilClosed depth rest).map (c :: ·)
    else (untilClosed (if c = '(' then depth + 1 else depth) rest).map (c :: ·)

/-- The name in brackets at the start of a text, and how many characters it takes. -/
def readKey (text : List Char) : DirectiveKey × Nat :=
  match text with
  | '(' :: inner =>
    match untilClosed 0 inner with
    | some name => (.named (String.ofList name), name.length + 2)
    | none => (.unclosed, text.length)
  | _ => (.none, 0)

/-- Whether a character is a flag. -/
def isFlag (c : Char) : Bool := c = '-' || c = '+' || c = ' ' || c = '#' || c = '0'

/-- The flags that some characters set. -/
def flagsOf (flags : List Char) : FieldFlags :=
  ⟨flags.contains '-', flags.contains '+', flags.contains ' ', flags.contains '#',
    flags.contains '0'⟩

/-- The length at the start of a text, and how many characters it takes. -/
def readLength (text : List Char) : Option FieldLength × Nat :=
  match text with
  | '*' :: _ => (some .fromValue, 1)
  | _ =>
    match text.takeWhile fun c => '0' ≤ c && c ≤ '9' with
    | [] => (none, 0)
    | digits => (some (.given (Nat.ofDigitChars 10 digits 0)), digits.length)

/-- The precision at the start of a text, and how many characters it takes; a point alone means
zero. -/
def readPrecision (text : List Char) : Option FieldLength × Nat :=
  match text with
  | '.' :: rest =>
    let (length, size) := readLength rest
    (some (length.getD (.given 0)), size + 1)
  | _ => (none, 0)

/-- How many characters a size letter takes; it has no meaning. -/
def sizeLetter : List Char → Nat
  | c :: _ => if c = 'h' || c = 'l' || c = 'L' then 1 else 0
  | [] => 0

/-- Read the directive after a percent sign. -/
def read (text : List Char) : Directive :=
  let (key, keySize) := readKey text
  let afterKey := text.drop keySize
  let flags := afterKey.takeWhile isFlag
  let afterFlags := afterKey.drop flags.length
  let (width, widthSize) := readLength afterFlags
  let afterWidth := afterFlags.drop widthSize
  let (precision, precisionSize) := readPrecision afterWidth
  let afterPrecision := afterWidth.drop precisionSize
  let ignored := sizeLetter afterPrecision
  let letter := (afterPrecision.drop ignored).head?
  { key, flags := flagsOf flags, width, precision, letter,
    size := keySize + flags.length + widthSize + precisionSize + ignored +
      (if letter.isSome then 1 else 0) }

end Directive

/-- A field as its parts: a sign, a mark in front of the digits, and the rest. -/
structure FieldParts where
  /-- The sign. -/
  sign : List Char
  /-- The mark. -/
  mark : List Char
  /-- The rest. -/
  body : List Char

/-- Write a field with blanks, or with zeros before its body, up to a width. -/
def FieldParts.write (parts : FieldParts) (left zeros : Bool) (width : Nat) : List Char :=
  let lead := parts.sign ++ parts.mark
  let missing := width - (lead.length + parts.body.length)
  if left then lead ++ parts.body ++ List.replicate missing ' '
  else if zeros then lead ++ List.replicate missing '0' ++ parts.body
  else List.replicate missing ' ' ++ lead ++ parts.body

namespace FieldFlags

/-- The sign of a number. -/
def signOf (flags : FieldFlags) (negative : Bool) : List Char :=
  if negative then ['-'] else if flags.plus then ['+'] else if flags.blank then [' '] else []

/-- The integer that a value stands for in an integer form. -/
def integerOf (letter : Char) : Json → Except TemplateFault Int
  | .integer n => .ok n
  | .boolean b => .ok (if b then 1 else 0)
  | .number x =>
    if letter = 'o' || letter = 'x' || letter = 'X' then .error (.needsAnInteger letter "float")
    else
      match x with
      | .finite negative m p =>
        let whole : Int := (m <<< p / unitsPerOne : Nat)
        .ok (if negative then -whole else whole)
      | .infinite _ => .error .infinityAsInteger
      | .notANumber => .error .undefinedAsInteger
  | other =>
    if letter = 'o' || letter = 'x' || letter = 'X' then
      .error (.needsAnInteger letter other.typeName)
    else .error (.needsANumber letter other.typeName)

/-- An integer in one of the integer forms. -/
def integerParts (flags : FieldFlags) (precision : Nat) (letter : Char) (n : Int) : FieldParts :=
  let base := if letter = 'o' then 8 else if letter = 'x' || letter = 'X' then 16 else 10
  let digits := Nat.toDigits base n.natAbs
  let filled := List.replicate (precision - digits.length) '0' ++ digits
  let mark := if flags.alternate && base ≠ 10 then ['0', letter] else []
  ⟨flags.signOf (n < 0), mark, if letter = 'X' then filled.map upperChar else filled⟩

/-- The floating-point value that a value stands for. -/
def realOf : Json → Except TemplateFault Binary
  | .number x => .ok x
  | .integer n =>
    match Binary.ofInt n with
    | .finite s m p => .ok (.finite s m p)
    | _ => .error .integerTooLarge
  | .boolean b => .ok (.ofNat (if b then 1 else 0))
  | other => .error (.needsAReal other.typeName)

/-- A floating-point value in one of its forms. -/
def realParts (flags : FieldFlags) (precision : Nat) (letter : Char) (x : Binary) : FieldParts :=
  let form := lowerChar letter
  let body :=
    match x with
    | .finite _ m p =>
      let units := m <<< p
      if form = 'f' then fixedPlaces flags.alternate precision units
      else if form = 'e' then scientificPlaces flags.alternate precision units
      else generalDigits flags.alternate precision units
    | .infinite _ => ['i', 'n', 'f']
    | .notANumber => ['n', 'a', 'n']
  let negative :=
    match x with
    | .finite s .. | .infinite s => s
    | .notANumber => false
  ⟨flags.signOf negative, [], if letter = form then body else body.map upperChar⟩

/-- The single character that a value stands for. -/
def characterOf : Json → Except TemplateFault Char
  | .text s =>
    match s.toList with
    | [c] => .ok c
    | _ => .error .needsACharacter
  | .integer n =>
    if n < 0 || 0x110000 ≤ n then .error .characterOutOfRange else .ok (Char.ofNat n.toNat)
  | .boolean b => .ok (Char.ofNat (if b then 1 else 0))
  | _ => .error .needsACharacter

/-- Write a value in the form that a letter stands for; the letter stands at `index` in the
template. -/
def writeValue (flags : FieldFlags) (width : Nat) (precision : Option Nat) (letter : Char)
    (index : Nat) (value : Json) : Except TemplateFault (List Char) :=
  let words (text : String) :=
    let cut := match precision with | some n => text.toList.take n | none => text.toList
    .ok ((FieldParts.mk [] [] cut).write flags.left false width)
  if letter = 's' then words value.display
  else if letter = 'r' then words value.term
  else if letter = 'a' then words value.asciiTerm
  else if "diuoxX".toList.contains letter then do
    let n ← integerOf letter value
    return (flags.integerParts (precision.getD 0) letter n).write flags.left flags.zero width
  else if "eEfFgG".toList.contains letter then do
    let x ← realOf value
    return (flags.realParts (precision.getD 6) letter x).write flags.left flags.zero width
  else if letter = 'c' then do
    return (FieldParts.mk [] [] [← characterOf value]).write flags.left false width
  else .error (.unknownLetter letter index)

end FieldFlags

end DriverPolicy
