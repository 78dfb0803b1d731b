import DriverPolicy.Text.Printable

/-!
# Quoted text

Messages and outlines show a text between quotes, on one line. The quote is an apostrophe
unless the text holds an apostrophe and no quotation mark. Inside, the quote and the
backslash are written after a backslash, line breaks and tabs by their letters, and any
other unprintable character by its code in two, four or eight hexadecimal digits.
-/

namespace DriverPolicy

/-- A number in small hexadecimal digits, at least `width` of them. -/
def hexDigits (width n : Nat) : List Char :=
  let digits := Nat.toDigits 16 n
  List.replicate (width - digits.length) '0' ++ digits

/-- The quote that surrounds a text. -/
def quoteFor (text : List Char) : Char :=
  if text.contains '\'' && !text.contains '"' then '"' else '\''

/-- One character as it is written between the given quotes. -/
def quotedChar (quote c : Char) : List Char :=
  if c = quote || c = '\\' then ['\\', c]
  else if c = '\n' then ['\\', 'n']
  else if c = '\r' then ['\\', 'r']
  else if c = '\t' then ['\\', 't']
  else if isPrintable c then [c]
  else if c.toNat < 0x100 then '\\' :: 'x' :: hexDigits 2 c.toNat
  else if c.toNat < 0x10000 then '\\' :: 'u' :: hexDigits 4 c.toNat
  else '\\' :: 'U' :: hexDigits 8 c.toNat

/-- A text between quotes. -/
def quotedChars (text : List Char) : List Char :=
  let quote := quoteFor text
  quote :: text.flatMap (quotedChar quote) ++ [quote]

/-- A string between quotes. -/
def quoted (text : String) : String := String.ofList (quotedChars text.toList)

end DriverPolicy
