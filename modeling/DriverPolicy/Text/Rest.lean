/-!
# What is left of a text

A reader takes its part from the start of a text and gives the rest. That the rest is shorter
than the text, or no longer, is part of its type, so whoever calls readers again and again
comes to an end. The functions here follow a rest back to the text that it was left of.
-/

namespace DriverPolicy

/-- A text that is left over after something was taken from `text`. -/
abbrev After (text : List Char) := { rest : List Char // rest.length < text.length }

/-- A text that is left over after something or nothing was taken from `text`. -/
abbrev Upto (text : List Char) := { rest : List Char // rest.length ≤ text.length }

/-- What a reader takes: a value, and the text after it. -/
abbrev Taken (text : List Char) (α : Type) := α × After text

namespace Upto

variable {text : List Char}

/-- The text of which nothing was taken. -/
def whole (text : List Char) : Upto text := ⟨text, Nat.le_refl _⟩

/-- The same rest, seen from one character before. -/
def past {c : Char} (left : Upto text) : After (c :: text) := ⟨left.1, Nat.lt_succ_of_le left.2⟩

/-- The same rest, seen from several characters before. -/
def beyond (front : List Char) (left : Upto text) : Upto (front ++ text) :=
  ⟨left.1, Nat.le_trans left.2 (List.sublist_append_right front text).length_le⟩

/-- What is left of a rest is left of the text. -/
def andThen (left : Upto text) (next : Upto left.1) : Upto text :=
  ⟨next.1, Nat.le_trans next.2 left.2⟩

/-- What is left of a rest, once something was taken from it, is left of the text. -/
def andAfter (left : Upto text) (next : After left.1) : After text :=
  ⟨next.1, Nat.lt_of_lt_of_le next.2 left.2⟩

/-- A rest without its first character. -/
def tail {c : Char} {rest : List Char} (left : Upto text) (h : left.1 = c :: rest) : After text :=
  ⟨rest, Nat.lt_of_lt_of_le (h ▸ Nat.lt_succ_self rest.length) left.2⟩

end Upto

namespace After

variable {text : List Char}

/-- A shorter text is no longer. -/
def upto (left : After text) : Upto text := ⟨left.1, Nat.le_of_lt left.2⟩

/-- The same rest, seen from one character before. -/
def past {c : Char} (left : After text) : After (c :: text) := left.upto.past

/-- What is left of a rest is left of the text. -/
def andThen (left : After text) (next : Upto left.1) : After text :=
  ⟨next.1, Nat.lt_of_le_of_lt next.2 left.2⟩

/-- What is left of a rest, once something was taken from it, is left of the text. -/
def andAfter (left : After text) (next : After left.1) : After text := left.andThen next.upto

/-- A rest without its first character. -/
def tail {c : Char} {rest : List Char} (left : After text) (h : left.1 = c :: rest) : After text :=
  left.upto.tail h

end After

/-- Drop characters of a class. -/
def dropClass (inClass : Char → Bool) (text : List Char) : Upto text :=
  ⟨text.dropWhile inClass, (List.dropWhile_sublist inClass).length_le⟩

end DriverPolicy
