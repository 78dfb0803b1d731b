/-!
# Blank characters

Blanks are the characters that may stand around names, brackets, commas and arguments. The
class is the Unicode one, so line breaks, no-break spaces and the ideographic space belong
to it. Trimming a text removes the blanks at its ends and nothing else.
-/

namespace DriverPolicy

/-- The code points of the blank characters. -/
def blankCodes : List Nat :=
  [0x09, 0x0A, 0x0B, 0x0C, 0x0D, 0x1C, 0x1D, 0x1E, 0x1F, 0x20, 0x85, 0xA0, 0x1680,
   0x2000, 0x2001, 0x2002, 0x2003, 0x2004, 0x2005, 0x2006, 0x2007, 0x2008, 0x2009, 0x200A,
   0x2028, 0x2029, 0x202F, 0x205F, 0x3000]

/-- Whether a character is blank. -/
def isBlank (c : Char) : Bool := blankCodes.contains c.toNat

/-- Drop the blanks at the start. -/
def trimLeft (text : List Char) : List Char := text.dropWhile isBlank

/-- Drop the blanks at the end. -/
def trimRight (text : List Char) : List Char := (text.reverse.dropWhile isBlank).reverse

/-- Drop the blanks at both ends. -/
def trim (text : List Char) : List Char := trimRight (trimLeft text)

/-- Whether a text holds blanks only; the empty text does. -/
def allBlank (text : List Char) : Bool := text.all isBlank

/-- A string without the blanks at its ends. -/
def trimmed (text : String) : String := String.ofList (trim text.toList)

/-- Dropping blanks at the end never lengthens a text. -/
theorem length_trimRight_le (text : List Char) : (trimRight text).length ≤ text.length := by
  simpa [trimRight] using (List.dropWhile_sublist isBlank (l := text.reverse)).length_le

/-- Dropping blanks at the start never lengthens a text. -/
theorem length_trimLeft_le (text : List Char) : (trimLeft text).length ≤ text.length :=
  (List.dropWhile_sublist isBlank).length_le

/-- Trimming never lengthens a text. -/
theorem length_trim_le (text : List Char) : (trim text).length ≤ text.length :=
  Nat.le_trans (length_trimRight_le _) (length_trimLeft_le _)

end DriverPolicy
