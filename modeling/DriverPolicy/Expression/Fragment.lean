import DriverPolicy.Expression.Head

/-!
# Arguments of a call

The text between the brackets of a call is cut at the commas that stand outside every
quotation and every pair of brackets. A quotation runs from a quote to the next quote of the
same kind; a quote without a partner is an ordinary character. Each piece is trimmed and
keeps the position of its first character. Pieces of blanks only, a closing bracket without
a partner and an opening bracket without one are faults; the first of them is reported.

The pieces are disjoint parts of the text: together with the commas between them they are
no longer than the text.
-/

namespace DriverPolicy

/-- One argument without the blanks around it. -/
structure Fragment where
  /-- The text of the argument. -/
  text : List Char
  /-- The position of its first character in the whole expression. -/
  position : Int
deriving DecidableEq, Repr

/-- Whether a character opens and closes quotations. -/
def isQuote (c : Char) : Bool := c = '"' || c = '\''

/-- Each character of a text, and whether it belongs to a quotation. `open?` is the quote of
the quotation that the text starts in. -/
def shield (open? : Option Char) : List Char → List (Char × Bool)
  | [] => []
  | c :: rest =>
    match open? with
    | some quote => (c, true) :: shield (if c = quote then none else some quote) rest
    | none =>
      if isQuote c && rest.contains c then (c, true) :: shield (some c) rest
      else (c, false) :: shield none rest

namespace Fragment

/-- The argument cut from `raw`, which starts at `position`; none if it is blank. -/
def ofRaw? (raw : List Char) (position : Int) : Option Fragment :=
  if allBlank raw then none
  else some ⟨trim raw, position + (raw.takeWhile isBlank).length⟩

/-- Close the piece `raw` that starts at `position`. -/
def close (source raw : List Char) (position : Int) : Except ReadingFault Fragment :=
  match ofRaw? raw position with
  | some fragment => .ok fragment
  | none => malformed .emptyArgument source position

/-- Cut marked characters into arguments, inside `depth` brackets and after the characters of
`piece`, last first, of which the first stands at `start`. -/
def cut (source : List Char) (depth : Nat) (start : Int) (piece : List Char) :
    List (Char × Bool) → Except ReadingFault (List Fragment)
  | [] =>
    if 0 < depth then malformed .unclosedOpen source (start + piece.length)
    else do
      let last ← close source piece.reverse start
      return [last]
  | (c, isQuoted) :: rest =>
    if isQuoted then cut source depth start (c :: piece) rest
    else if c = '(' then cut source (depth + 1) start (c :: piece) rest
    else if c = ')' then
      if depth = 0 then malformed .unbalancedClose source (start + piece.length)
      else cut source (depth - 1) start (c :: piece) rest
    else if c = ',' && depth = 0 then do
      let fragment ← close source piece.reverse start
      let fragments ← cut source 0 (start + piece.length + 1) [] rest
      return fragment :: fragments
    else cut source depth start (c :: piece) rest

/-- Cut the text between the brackets of a call, which stands at `offset` in `source`, into its
arguments. Blank text has none. -/
def split (arguments source : List Char) (offset : Int) : Except ReadingFault (List Fragment) :=
  if allBlank arguments then .ok []
  else cut (Head.sourceOr source arguments) 0 offset [] (shield none arguments)

/-- The room that arguments take: their characters and one more for each. -/
def room : List Fragment → Nat
  | [] => 0
  | fragment :: rest => fragment.text.length + 1 + room rest

/-- A closed piece is no longer than it was. -/
theorem length_of_close {source raw : List Char} {position : Int} {fragment : Fragment}
    (h : close source raw position = .ok fragment) : fragment.text.length ≤ raw.length := by
  unfold close ofRaw? at h
  by_cases hblank : allBlank raw
  · simp [hblank, malformed] at h
  · simp only [hblank, Bool.false_eq_true, ↓reduceIte, Except.ok.injEq] at h
    subst h
    exact length_trim_le raw

/-- Marking keeps the number of characters. -/
theorem length_shield (open? : Option Char) (text : List Char) :
    (shield open? text).length = text.length := by
  induction text generalizing open? with
  | nil => rfl
  | cons c rest ih =>
    unfold shield
    split
    · simp [ih]
    · split <;> simp [ih]

/-- The arguments take at most the room of the text and one more. -/
theorem room_of_cut {source : List Char} {depth : Nat} {start : Int} {piece : List Char}
    {marked : List (Char × Bool)} {fragments : List Fragment}
    (h : cut source depth start piece marked = .ok fragments) :
    room fragments ≤ piece.length + marked.length + 1 := by
  induction marked generalizing depth start piece fragments with
  | nil =>
    unfold cut at h
    split at h
    · simp [malformed] at h
    · cases hlast : close source piece.reverse start with
      | error e => simp [hlast, bind, Except.bind] at h
      | ok last =>
        simp only [hlast, bind, Except.bind, pure, Except.pure, Except.ok.injEq] at h
        subst h
        have := length_of_close hlast
        simp only [List.length_reverse] at this
        simp [room]
        omega
  | cons marked rest ih =>
    obtain ⟨c, isQuoted⟩ := marked
    unfold cut at h
    simp only [List.length_cons]
    split at h
    · have := ih h; simp only [List.length_cons] at this; omega
    · split at h
      · have := ih h; simp only [List.length_cons] at this; omega
      · split at h
        · split at h
          · simp [malformed] at h
          · have := ih h; simp only [List.length_cons] at this; omega
        · split at h
          · cases hfirst : close source piece.reverse start with
            | error e => simp [hfirst, bind, Except.bind] at h
            | ok fragment =>
              cases htail : cut source 0 (start + piece.length + 1) [] rest with
              | error e => simp [hfirst, htail, bind, Except.bind] at h
              | ok tail =>
                simp only [hfirst, htail, bind, Except.bind, pure, Except.pure,
                  Except.ok.injEq] at h
                subst h
                have h1 := length_of_close hfirst
                have h2 := ih htail
                simp only [List.length_reverse, List.length_nil] at h1 h2
                simp only [room]
                omega
          · have := ih h; simp only [List.length_cons] at this; omega

/-- The arguments of a text take at most its room and one more. -/
theorem room_of_split {arguments source : List Char} {offset : Int} {fragments : List Fragment}
    (h : split arguments source offset = .ok fragments) :
    room fragments ≤ arguments.length + 1 := by
  unfold split at h
  split at h
  · obtain rfl := Except.ok.inj h
    simp [room]
  · have := room_of_cut h
    simpa [length_shield] using this

/-- Each argument's room is part of the whole. -/
theorem length_le_room {fragments : List Fragment} {fragment : Fragment}
    (h : fragment ∈ fragments) : fragment.text.length + 1 ≤ room fragments := by
  induction fragments with
  | nil => simp at h
  | cons first rest ih =>
    simp only [room]
    rcases List.mem_cons.mp h with rfl | hrest
    · omega
    · have := ih hrest
      omega

/-- An argument of a call's arguments is shorter than the call. -/
theorem length_lt_of_mem_split {text source : List Char} {offset : Int} {head : Head}
    {fragments : List Fragment} {fragment : Fragment}
    (hhead : Head.read text source offset = .ok head)
    (hsplit : split head.arguments source head.offset = .ok fragments)
    (hmem : fragment ∈ fragments) : fragment.text.length < text.length := by
  rcases Head.length_arguments_of_read hhead with hnil | hlt
  · rw [hnil] at hsplit
    have : fragments = [] := by simpa [split, allBlank] using hsplit.symm
    simp [this] at hmem
  · have h1 := room_of_split hsplit
    have h2 := length_le_room hmem
    omega

end Fragment

end DriverPolicy
