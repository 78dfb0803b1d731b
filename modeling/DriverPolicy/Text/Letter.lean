/-!
# Latin letters and their case

Names, markers and key words are written with the twenty-six Latin letters. Case is mapped
for these letters alone: a key word holds no other letter, so a text whose letters are
mapped equals a key word exactly when the fully mapped text does.
-/

namespace DriverPolicy

/-- Whether a character is one of the fifty-two Latin letters. -/
def isLetter (c : Char) : Bool := ('a' ≤ c && c ≤ 'z') || ('A' ≤ c && c ≤ 'Z')

/-- Whether a character may stand in a policy name. -/
def isNameChar (c : Char) : Bool := isLetter c || c == '.'

/-- A capital letter's small form; any other character is kept. -/
def lowerChar (c : Char) : Char :=
  if 'A' ≤ c && c ≤ 'Z' then Char.ofNat (c.toNat + 32) else c

/-- A small letter's capital form; any other character is kept. -/
def upperChar (c : Char) : Char :=
  if 'a' ≤ c && c ≤ 'z' then Char.ofNat (c.toNat - 32) else c

/-- A text with its Latin letters made small. -/
def lowered (text : String) : String := String.ofList (text.toList.map lowerChar)

end DriverPolicy
