import DriverPolicy.Number.Decimal
import DriverPolicy.Text.Rest
import DriverPolicy.Toml.Value

/-!
# The smallest parts of a TOML text

Blanks, comments, parts of keys, strings, numbers, dates and times of day. Each reader takes
its part from the start of a text and gives the rest, which is never longer than the text,
and shorter when something was taken.
-/

namespace DriverPolicy

/-- Why a TOML text cannot be read: it is malformed, or an integer has too many digits. -/
inductive TomlFault where
  | malformed
  | tooManyDigits (count : Nat)
deriving DecidableEq, Repr

namespace Toml

/-- Whether a character separates the parts of a line. -/
def isBlankChar (c : Char) : Bool := c = ' ' || c = '\t'

/-- Whether a control character is forbidden where a text stays on its line. -/
def isForbidden (c : Char) : Bool := (c.toNat < 32 && c ≠ '\t') || c.toNat = 127

/-- Whether a control character is forbidden where a text may go over several lines. -/
def isForbiddenInLines (c : Char) : Bool := isForbidden c && c ≠ '\n'

/-- Drop the blanks at the start of a text. -/
def skipBlanks (text : List Char) : Upto text := dropClass isBlankChar text

/-- Drop a comment up to the end of its line. -/
def skipComment (text : List Char) : Except TomlFault (Upto text) :=
  match text with
  | '#' :: rest =>
    if (rest.takeWhile (· ≠ '\n')).any isForbidden then .error .malformed
    else
      .ok (dropClass (· ≠ '\n') rest).past.upto
  | other => .ok (.whole other)

/-- Drop blanks, line breaks and comments. -/
def skipLines (text : List Char) : Except TomlFault (Upto text) :=
  let start := dropClass (fun c => isBlankChar c || c = '\n') text
  match hstart : start.1 with
  | '#' :: rest => do
    if (rest.takeWhile (· ≠ '\n')).any isForbidden then throw .malformed
    let line := dropClass (· ≠ '\n') rest
    let after ← skipLines line.1
    return ((start.tail hstart).andThen (line.andThen after)).upto
  | _ => .ok start
termination_by text.length
decreasing_by exact ((start.tail hstart).andThen line).2

/-! ### Strings -/

/-- The value of a hexadecimal digit. -/
def hexValue? (c : Char) : Option Nat :=
  if '0' ≤ c && c ≤ '9' then some (c.toNat - 48)
  else if 'a' ≤ c && c ≤ 'f' then some (c.toNat - 87)
  else if 'A' ≤ c && c ≤ 'F' then some (c.toNat - 55)
  else none

/-- The character with a code in hexadecimal digits; surrogates are no characters. -/
def charOfHex (digits : List Char) : Except TomlFault Char :=
  match digits.mapM hexValue? with
  | some values =>
    let code := values.foldl (16 * · + ·) 0
    if code.isValidChar then .ok (Char.ofNat code) else .error .malformed
  | none => .error .malformed

/-- The character that a letter after a backslash stands for. -/
def escapedChar? : Char → Option Char
  | 'b' => some (Char.ofNat 8)
  | 't' => some '\t'
  | 'n' => some '\n'
  | 'f' => some (Char.ofNat 12)
  | 'r' => some '\r'
  | '"' => some '"'
  | '\\' => some '\\'
  | _ => none

/-- Read what follows a backslash: a line break that is taken back together with the blanks
around it, or the code or the letter of a character. -/
def readEscape (inLines : Bool) (text : List Char) : Except TomlFault (Taken text (List Char)) :=
  match text with
  | 'u' :: a :: b :: c :: d :: rest => do
    return ([← charOfHex [a, b, c, d]], ((Upto.whole rest).beyond [a, b, c, d]).past)
  | 'U' :: a :: b :: c :: d :: e :: f :: g :: h :: rest => do
    let code := [a, b, c, d, e, f, g, h]
    return ([← charOfHex code], ((Upto.whole rest).beyond code).past)
  | x :: rest =>
    if inLines && (isBlankChar x || x = '\n') then
      let blanks := dropClass isBlankChar (x :: rest)
      if blanks.1 = [] || blanks.1.head? = some '\n' then
        .ok ([], (dropClass (fun c => isBlankChar c || c = '\n') rest).past)
      else .error .malformed
    else
      match escapedChar? x with
      | some c => .ok ([c], (Upto.whole rest).past)
      | none => .error .malformed
  | [] => .error .malformed

/-- Read a string in quotation marks, after the first one. -/
def readBasic (text : List Char) : Except TomlFault (Taken text (List Char)) :=
  match text with
  | [] => .error .malformed
  | c :: rest =>
    if c = '"' then .ok ([], (Upto.whole rest).past)
    else if c = '\\' then do
      let (chars, after) ← readEscape false rest
      let (more, final) ← readBasic after.1
      return (chars ++ more, (after.andAfter final).past)
    else if isForbidden c then .error .malformed
    else do
      let (more, final) ← readBasic rest
      return (c :: more, final.past)
termination_by text.length
decreasing_by
  · exact after.past.2
  · exact (Upto.whole rest).past.2

/-- Up to two more quotes that stand before the three closing ones belong to the string. -/
def takeExtraQuotes (quote : Char) (text : List Char) : List Char × Upto text :=
  match text with
  | a :: b :: rest =>
    if a = quote && b = quote then ([quote, quote], (Upto.whole rest).past.past.upto)
    else if a = quote then ([quote], (Upto.whole (b :: rest)).past.upto)
    else ([], .whole _)
  | [a] => if a = quote then ([quote], (Upto.whole []).past.upto) else ([], .whole _)
  | [] => ([], .whole _)

/-- Read a string of several lines in quotation marks, after the first three. -/
def readBasicLines (text : List Char) : Except TomlFault (Taken text (List Char)) :=
  match text with
  | [] => .error .malformed
  | '"' :: '"' :: '"' :: rest =>
    let (extra, after) := takeExtraQuotes '"' rest
    .ok (extra, after.past.past.past)
  | c :: rest =>
    if c = '\\' then do
      let (chars, after) ← readEscape true rest
      let (more, final) ← readBasicLines after.1
      return (chars ++ more, (after.andAfter final).past)
    else if isForbiddenInLines c then .error .malformed
    else do
      let (more, final) ← readBasicLines rest
      return (c :: more, final.past)
termination_by text.length
decreasing_by
  · exact after.past.2
  · exact (Upto.whole rest).past.2

/-- Read a string in apostrophes, after the first one. -/
def readLiteral (text : List Char) : Except TomlFault (Taken text (List Char)) :=
  match text with
  | [] => .error .malformed
  | c :: rest =>
    if c = '\'' then .ok ([], (Upto.whole rest).past)
    else if isForbidden c then .error .malformed
    else do
      let (more, final) ← readLiteral rest
      return (c :: more, final.past)

/-- Read a string of several lines in apostrophes, after the first three. -/
def readLiteralLines (text : List Char) : Except TomlFault (Taken text (List Char)) :=
  match text with
  | [] => .error .malformed
  | '\'' :: '\'' :: '\'' :: rest =>
    let (extra, after) := takeExtraQuotes '\'' rest
    .ok (extra, after.past.past.past)
  | c :: rest =>
    if isForbiddenInLines c then .error .malformed
    else do
      let (more, final) ← readLiteralLines rest
      return (c :: more, final.past)

/-- A line break right after the three opening quotes is dropped. -/
def dropLineBreak (text : List Char) : Upto text :=
  match text with
  | '\n' :: rest => (Upto.whole rest).past.upto
  | other => .whole other

/-- Read a string of any form; none if the text does not begin with a quote. -/
def readString? (text : List Char) : Option (Except TomlFault (Taken text String)) :=
  match text with
  | '"' :: '"' :: '"' :: rest =>
    let start := dropLineBreak rest
    some do
      let (chars, after) ← readBasicLines start.1
      return (String.ofList chars, (start.andAfter after).past.past.past)
  | '\'' :: '\'' :: '\'' :: rest =>
    let start := dropLineBreak rest
    some do
      let (chars, after) ← readLiteralLines start.1
      return (String.ofList chars, (start.andAfter after).past.past.past)
  | '"' :: rest => some do
    let (chars, after) ← readBasic rest
    return (String.ofList chars, after.past)
  | '\'' :: rest => some do
    let (chars, after) ← readLiteral rest
    return (String.ofList chars, after.past)
  | _ => none

/-! ### Keys -/

/-- Whether a character may stand in a key without quotes. -/
def isBareKeyChar (c : Char) : Bool :=
  ('a' ≤ c && c ≤ 'z') || ('A' ≤ c && c ≤ 'Z') || ('0' ≤ c && c ≤ '9') || c = '-' || c = '_'

/-- Read one part of a key: bare, or a string on one line. -/
def readKeyPart (text : List Char) : Except TomlFault (Taken text String) :=
  match text with
  | '"' :: rest => do
    let (chars, after) ← readBasic rest
    return (String.ofList chars, after.past)
  | '\'' :: rest => do
    let (chars, after) ← readLiteral rest
    return (String.ofList chars, after.past)
  | c :: rest =>
    if isBareKeyChar c then
      .ok (String.ofList (c :: rest.takeWhile isBareKeyChar), (dropClass isBareKeyChar rest).past)
    else .error .malformed
  | [] => .error .malformed

/-- Read a key: parts with points between them, and the blanks after it. -/
def readKey (text : List Char) : Except TomlFault (Taken text (List String)) := do
  let (part, afterPart) ← readKeyPart text
  let blanks := skipBlanks afterPart.1
  match hpoint : blanks.1 with
  | '.' :: rest =>
    let start := skipBlanks rest
    let (parts, after) ← readKey start.1
    return (part :: parts,
      ((afterPart.andThen blanks).tail hpoint).andAfter (start.andAfter after))
  | _ => return ([part], afterPart.andThen blanks)
termination_by text.length
decreasing_by exact (((afterPart.andThen blanks).tail hpoint).andThen start).2

/-! ### Numbers -/

/-- Digits with single low lines between them: the digits, and the text after them. -/
def takeGroups (isDigit : Char → Bool) (text : List Char) : List Char × Upto text :=
  match text with
  | '_' :: c :: rest =>
    if isDigit c then
      let (digits, after) := takeGroups isDigit rest
      (c :: digits, after.past.past.upto)
    else ([], .whole _)
  | c :: rest =>
    if isDigit c then
      let (digits, after) := takeGroups isDigit rest
      (c :: digits, after.past.upto)
    else ([], .whole _)
  | [] => ([], .whole _)

/-- One or more digits with single low lines between them. -/
def takeDigits? (isDigit : Char → Bool) (text : List Char) : Option (List Char × After text) :=
  match text with
  | c :: rest =>
    if isDigit c then
      let (digits, after) := takeGroups isDigit rest
      some (c :: digits, after.past)
    else none
  | [] => none

/-- The base that a letter after a zero stands for, and its digits. -/
def baseOf? : Char → Option (Nat × (Char → Bool))
  | 'x' => some (16, fun c => (hexValue? c).isSome)
  | 'o' => some (8, fun c => '0' ≤ c && c ≤ '7')
  | 'b' => some (2, fun c => c = '0' || c = '1')
  | _ => none

/-- Read an integer in another base. -/
def readBased? (text : List Char) : Option (Int × After text) :=
  match text with
  | '0' :: letter :: rest => do
    let (base, isDigit) ← baseOf? letter
    let (digits, after) ← takeDigits? isDigit rest
    let value := digits.foldl (fun n c => base * n + (hexValue? c).getD 0) 0
    some (value, after.past.past)
  | _ => none

/-- Drop a sign, and say whether it is a minus. -/
def takeSign (text : List Char) : Bool × Upto text :=
  match text with
  | '-' :: rest => (true, (Upto.whole rest).past.upto)
  | '+' :: rest => (false, (Upto.whole rest).past.upto)
  | other => (false, .whole other)

/-- The whole part of a number: a zero, or digits that do not begin with one. -/
def takeWhole? (text : List Char) : Option (List Char × After text) :=
  match text with
  | '0' :: rest => some (['0'], (Upto.whole rest).past)
  | other => takeDigits? Char.isDigit other

/-- The digits of a fraction after its point. -/
def takeFraction (text : List Char) : List Char × Upto text :=
  match text with
  | '.' :: rest =>
    match takeDigits? Char.isDigit rest with
    | some (digits, after) => (digits, after.past.upto)
    | none => ([], .whole _)
  | other => ([], .whole other)

/-- An exponent after its letter. -/
def takeExponent (text : List Char) : Option Int × Upto text :=
  match text with
  | c :: rest =>
    if c = 'e' || c = 'E' then
      let (negative, unsigned) := takeSign rest
      match takeDigits? Char.isDigit unsigned.1 with
      | some (digits, after) =>
        (some (signedValue negative digits), (unsigned.andAfter after).past.upto)
      | none => (none, .whole _)
    else (none, .whole _)
  | [] => (none, .whole _)

/-- Read a number; one with a fraction or an exponent is floating. -/
def readNumber? (text : List Char) : Option (Except TomlFault (Taken text TomlValue)) :=
  match readBased? text with
  | some (value, after) => some (.ok (.integer value, after))
  | none =>
    let (negative, unsigned) := takeSign text
    match takeWhole? unsigned.1 with
    | none => none
    | some (whole, afterWhole) =>
      let (fraction, afterFraction) := takeFraction afterWhole.1
      let (exponent?, after) := takeExponent afterFraction.1
      let rest := unsigned.andAfter (afterWhole.andThen (afterFraction.andThen after))
      if fraction = [] && exponent?.isNone then
        if integerDigitLimit < whole.length then some (.error (.tooManyDigits whole.length))
        else some (.ok (.integer (signedValue negative whole), rest))
      else
        let decimal : Decimal := ⟨negative, whole ++ fraction, fraction.length, exponent?.getD 0⟩
        some (.ok (.number decimal.toBinary, rest))

/-- Read an infinity or the value that is not a number. -/
def readSpecial? (text : List Char) : Option (Binary × After text) :=
  let (negative, unsigned) := takeSign text
  match hword : unsigned.1 with
  | 'i' :: 'n' :: 'f' :: rest =>
    some (.infinite negative, (unsigned.tail hword).andThen ((Upto.whole rest).beyond ['n', 'f']))
  | 'n' :: 'a' :: 'n' :: rest =>
    some (.notANumber, (unsigned.tail hword).andThen ((Upto.whole rest).beyond ['a', 'n']))
  | _ => none

/-! ### Dates and times -/

/-- The value of two digits. -/
def pair? (a b : Char) : Option Nat :=
  if a.isDigit && b.isDigit then some (10 * (a.toNat - 48) + (b.toNat - 48)) else none

/-- A fraction of a second in microseconds; digits beyond the sixth are dropped. -/
def takeMicroseconds (text : List Char) : Nat × Upto text :=
  match text with
  | '.' :: rest =>
    let digits := rest.takeWhile Char.isDigit
    if digits = [] then (0, .whole _)
    else
      (digitsValue ((digits ++ List.replicate 6 '0').take 6),
        (dropClass Char.isDigit rest).past.upto)
  | other => (0, .whole other)

/-- Read a time of day. -/
def readTime? (text : List Char) : Option (TimeOfDay × After text) :=
  match text with
  | a :: b :: ':' :: c :: d :: ':' :: e :: f :: rest => do
    let hour ← pair? a b
    let minute ← pair? c d
    let second ← pair? e f
    if 23 < hour || 59 < minute || 59 < second then none
    else
      let (microsecond, after) := takeMicroseconds rest
      some (⟨hour, minute, second, microsecond⟩, (after.beyond [b, ':', c, d, ':', e, f]).past)
  | _ => none

/-- The offset of a time in minutes, if one follows. -/
def takeOffset (text : List Char) : Option Int × Upto text :=
  match text with
  | sign :: a :: b :: ':' :: c :: d :: rest =>
    match (if sign = '+' || sign = '-' then some () else none), pair? a b, pair? c d with
    | some _, some hour, some minute =>
      if 23 < hour || 59 < minute then (none, .whole _)
      else
        let minutes : Int := hour * 60 + minute
        (some (if sign = '-' then -minutes else minutes),
          (Upto.whole rest).beyond [sign, a, b, ':', c, d])
    | _, _, _ =>
      if sign = 'Z' || sign = 'z' then
        (some 0, (Upto.whole (a :: b :: ':' :: c :: d :: rest)).past.upto)
      else (none, .whole _)
  | c :: rest =>
    if c = 'Z' || c = 'z' then (some 0, (Upto.whole rest).past.upto) else (none, .whole _)
  | [] => (none, .whole _)

/-- The day of a year, a month and a day of the month, if there is such a day. -/
def dayOf? (year month day : Nat) : Option CalendarDay :=
  if 1 ≤ year && 1 ≤ month && month ≤ 12 && 1 ≤ day && day ≤ daysInMonth year month then
    some ⟨year, month, day⟩
  else none

/-- The time of day that may follow a date, and its offset. -/
def takeClock (text : List Char) : Option (TimeOfDay × Option Int) × Upto text :=
  match text with
  | mark :: clock =>
    if mark = 'T' || mark = 't' || mark = ' ' then
      match readTime? clock with
      | some (time, afterTime) =>
        let (offset, after) := takeOffset afterTime.1
        (some (time, offset), (afterTime.andThen after).past.upto)
      | none => (none, .whole _)
    else (none, .whole _)
  | [] => (none, .whole _)

/-- Read a date, and the time of day and the offset that may follow it. -/
def readDate? (text : List Char) : Option (Except TomlFault (Taken text TomlValue)) :=
  match text with
  | a :: b :: c :: d :: '-' :: e :: f :: '-' :: g :: h :: rest => do
    let year := 100 * (← pair? a b) + (← pair? c d)
    let month ← pair? e f
    let day ← pair? g h
    match dayOf? year month day with
    | none => some (.error .malformed)
    | some date =>
      let (clock?, left) := takeClock rest
      let after := (left.beyond [b, c, d, '-', e, f, '-', g, h]).past
      match clock? with
      | some (time, offset) => some (.ok (.dateTime date time offset, after))
      | none => some (.ok (.date date, after))
  | _ => none

end Toml

end DriverPolicy
