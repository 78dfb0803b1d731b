/-!
# Similar texts

Two texts are compared by their longest common block, and the parts before and after it in
the same way. The likeness of the texts is the part of their characters that lies in these
blocks; texts with a likeness of at least three fifths are similar.
-/

namespace DriverPolicy

/-- How many characters two texts have in common at their start. -/
def commonStart : List Char → List Char → Nat
  | a :: as, b :: bs => if a = b then commonStart as bs + 1 else 0
  | _, _ => 0

/-- A block that two texts have in common: where it starts in each, and its length. -/
structure CommonBlock where
  /-- Where it starts in the first text. -/
  first : Nat
  /-- Where it starts in the second text. -/
  second : Nat
  /-- Its length. -/
  length : Nat
deriving DecidableEq, Repr

/-- The longest common block; of several the one that starts earliest in the first text, and of
these the one that starts earliest in the second. -/
def longestBlock (a b : List Char) : CommonBlock :=
  let places := (List.range a.length).flatMap fun i => (List.range b.length).map (i, ·)
  places.foldl (fun best (i, j) =>
    let length := commonStart (a.drop i) (b.drop j)
    if best.length < length then ⟨i, j, length⟩ else best) ⟨0, 0, 0⟩

/-- How many characters of two texts lie in common blocks. -/
def commonLength (a b : List Char) : Nat :=
  match longestBlock a b with
  | ⟨first, second, length⟩ =>
    if _h : 0 < length ∧ first < a.length then
      commonLength (a.take first) (b.take second) + length +
        commonLength (a.drop (first + length)) (b.drop (second + length))
    else 0
termination_by a.length
decreasing_by
  all_goals simp only [List.length_take, List.length_drop]; omega

/-- A candidate and its likeness to a text, `common / total` doubled. -/
structure Likeness where
  /-- The candidate. -/
  candidate : String
  /-- The characters in common blocks. -/
  common : Nat
  /-- The characters of both texts. -/
  total : Nat
deriving DecidableEq, Repr

namespace Likeness

/-- The likeness of a candidate to a text. -/
def of (text candidate : String) : Likeness :=
  ⟨candidate, commonLength candidate.toList text.toList, candidate.length + text.length⟩

/-- Whether the likeness is at least three fifths. -/
def isSimilar (x : Likeness) : Bool := 3 * x.total ≤ 10 * x.common

/-- Whether a candidate comes before another: it is more like the text, or as much and greater. -/
def isBefore (x y : Likeness) : Bool :=
  y.common * x.total < x.common * y.total ||
    (y.common * x.total = x.common * y.total && y.candidate ≤ x.candidate)

end Likeness

/-- The candidates that are similar to a text, at most three of them, in the order of the
alphabet. -/
def similarTexts (text : String) (candidates : List String) : List String :=
  let similar := (candidates.map (Likeness.of text)).filter Likeness.isSimilar
  let best := (similar.mergeSort Likeness.isBefore).take 3
  (best.map (·.candidate)).mergeSort (· ≤ ·)

end DriverPolicy
