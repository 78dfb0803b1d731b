import DriverPolicy.Policy.Basic

/-!
# Equal values

Two JSON values are equal if they hold the same, whatever kind of number a number is given as and in
whatever order the fields of an object stand. Numbers are equal if they are the same number; what is not a
number equals nothing, not even itself.
-/

namespace DriverPolicy

/-- Whether a floating-point value is the number that an integer is. -/
def Binary.isInteger (n : Int) : Binary → Bool
  | finite s m p => m <<< p = n.natAbs * unitsPerOne && (n = 0 || s = decide (n < 0))
  | _ => false

/-- Whether two amounts are equal numbers. -/
def Amount.equals : Amount → Amount → Bool
  | whole a, whole b => a = b
  | real x, real y => x.equals y
  | whole n, real x | real x, whole n => x.isInteger n

namespace Json

/-- The number that a value is, if it is one; the two truth values count as one and zero. -/
def amount? : Json → Option Amount
  | boolean b => some (.whole (if b then 1 else 0))
  | integer n => some (.whole n)
  | number x => some (.real x)
  | _ => none

/-- Whether two values are equal numbers. -/
def equalNumbers (a b : Json) : Bool :=
  match a.amount?, b.amount? with
  | some m, some n => m.equals n
  | _, _ => false

mutual

/-- Whether two values are equal. -/
def equals : Json → Json → Bool
  | null, null => true
  | text a, text b => a = b
  | list as, list bs => equalItems as bs
  | object as, object bs => as.length = bs.length && equalFields as bs
  | a, b => a.equalNumbers b

/-- Whether two lists hold equal values. -/
def equalItems : List Json → List Json → Bool
  | [], [] => true
  | a :: as, b :: bs => a.equals b && equalItems as bs
  | _, _ => false

/-- Whether each of some fields has an equal one among others. -/
def equalFields : List (String × Json) → List (String × Json) → Bool
  | [], _ => true
  | (key, a) :: as, bs =>
    (match bs.find? (·.1 = key) with
      | some (_, b) => a.equals b
      | none => false) && equalFields as bs

end

/-- Amounts are equal if and only if they are so as values. -/
@[simp]
theorem equals_toJson (a b : Amount) : a.toJson.equals b.toJson = a.equals b := by
  cases a <;> cases b <;> simp [Amount.toJson, equals, equalNumbers, amount?]

/-- A field that no other has the name of does not matter to the others. -/
theorem equalFields_cons_of_not_mem {key : String} {as : List (String × Json)}
    (h : key ∉ as.map Prod.fst) (b : Json) (bs : List (String × Json)) :
    equalFields as ((key, b) :: bs) = equalFields as bs := by
  induction as with
  | nil => rfl
  | cons field as ih =>
    rw [List.map_cons, List.mem_cons, not_or] at h
    have hne : decide (key = field.1) = false := decide_eq_false h.1
    rw [equalFields, equalFields, List.find?_cons, hne, ih h.2]

/-- Objects that start with fields of one name, which no other field has, are equal if the values under it are
equal and the other fields are. -/
theorem equals_object_cons {key : String} {as : List (String × Json)} (h : key ∉ as.map Prod.fst)
    (a b : Json) (bs : List (String × Json)) :
    (object ((key, a) :: as)).equals (object ((key, b) :: bs)) =
      (a.equals b && (object as).equals (object bs)) := by
  have hfind : ((key, b) :: bs).find? (·.1 = key) = some (key, b) := by simp
  rw [equals, equals, equalFields, hfind, equalFields_cons_of_not_mem h, List.length_cons, List.length_cons,
    Bool.and_left_comm]
  simp only [Nat.add_right_cancel_iff]

/-- Objects without fields are equal. -/
@[simp]
theorem equals_object_nil : (object []).equals (object []) = true := rfl

/-- Records of two fields with the same names are equal if their values are. -/
theorem equals_object_pair {key key' : String} (hne : key ≠ key') (a b a' b' : Json) :
    (object [(key, a), (key', b)]).equals (object [(key, a'), (key', b')]) =
      (a.equals a' && b.equals b') := by
  rw [equals_object_cons (by simpa using hne), equals_object_cons List.not_mem_nil, equals_object_nil,
    Bool.and_true]

/-- Texts are equal as values if they are the same. -/
@[simp]
theorem equals_text (a b : String) : (text a).equals (text b) = decide (a = b) := by rw [equals]

/-- Integers are equal as values if they are the same. -/
@[simp]
theorem equals_integer (m n : Int) : (integer m).equals (integer n) = decide (m = n) := rfl

/-- So are texts that may be absent. -/
@[simp]
theorem equals_optionalText (a b : Option String) :
    (optionalText a).equals (optionalText b) = decide (a = b) := by
  cases a <;> cases b <;> simp [optionalText, equals, equalNumbers, amount?]

end Json

end DriverPolicy
