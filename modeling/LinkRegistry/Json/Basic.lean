/-!
# JSON values

A value as its text spells it. A number keeps its digits, and a string literal keeps whether it
spells a text at all: an escape may name half of a surrogate pair. `isSound` tells which values can
be taken at their word.
-/

namespace LinkRegistry

/-- A number literal: a sign, all its digits as one number, how many of them follow the point, and
a power of ten. -/
structure Json.Number where
  negative : Bool
  digits : Nat
  places : Nat
  exponent : Int
  /-- The literal has neither a point nor an exponent. -/
  plain : Bool
  deriving DecidableEq, Repr

/-- A JSON value. -/
inductive Json
  | null
  | bool (value : Bool)
  | number (value : Json.Number)
  /-- A string, or `none` if its escapes spell no text. -/
  | string (text : Option String)
  | array (items : List Json)
  | object (members : List (Option String × Json))

namespace Json

/-! ## Numbers -/

def Number.ofNat (value : Nat) : Number := ⟨false, value, 0, 0, true⟩

/-- The natural number that a literal spells, if it is written as one: without sign, point and
exponent. -/
def Number.natural? (literal : Number) : Option Nat :=
  if literal.plain && !literal.negative then some literal.digits else none

/-- The number rounded to 53 significant bits, a tie going to the even neighbour. -/
def roundToDouble (value : Nat) : Nat :=
  let excess := value.log2 + 1 - 53
  let unit := Nat.pow 2 excess
  let quotient := value / unit
  let twice := 2 * (value % unit)
  if unit < twice || (twice = unit && quotient % 2 = 1) then (quotient + 1) * unit
  else quotient * unit

/-- The longest run of leading digits that fits 64 bits, with the number of digits left off. -/
def leadingDigits : Nat → Nat → Nat × Nat
  | 0, digits => (digits, 0)
  | attempts + 1, digits =>
    if digits < Nat.pow 2 64 then (digits, 0)
    else
      let (leading, dropped) := leadingDigits attempts (digits / 10)
      (leading, dropped + 1)

/-- Whether a literal is too large for a double. The leading digits and the power of ten are
rounded before they are multiplied. -/
def Number.overflows (literal : Number) : Bool :=
  let (leading, dropped) := leadingDigits (literal.digits.log2 + 1) literal.digits
  let power := literal.exponent - literal.places + dropped
  if literal.plain && literal.digits < Nat.pow 2 64 || leading = 0 || power < 0 then false
  else if 308 < power then true
  else Nat.pow 2 1024 - Nat.pow 2 970 ≤ roundToDouble leading * roundToDouble (Nat.pow 10 power.toNat)

/-! ## Soundness and depth -/

mutual

/-- Whether a value nests at most `levels` arrays and objects and holds no number too large for a
double and no string without a text. -/
def isSound : Nat → Json → Bool
  | _, .null | _, .bool _ => true
  | _, .number value => !value.overflows
  | _, .string text => text.isSome
  | 0, .array _ | 0, .object _ => false
  | levels + 1, .array items => areSound levels items
  | levels + 1, .object members => membersAreSound levels members

/-- Whether every value of a list is sound. -/
def areSound (levels : Nat) : List Json → Bool
  | [] => true
  | item :: rest => isSound levels item && areSound levels rest

/-- Whether every name and value of a list of members is sound. -/
def membersAreSound (levels : Nat) : List (Option String × Json) → Bool
  | [] => true
  | (name, value) :: rest => name.isSome && isSound levels value && membersAreSound levels rest

end

mutual

/-- How many arrays and objects a value nests. -/
def depth : Json → Nat
  | .null | .bool _ | .number _ | .string _ => 0
  | .array items => depthOfItems items + 1
  | .object members => depthOfMembers members + 1

/-- The greatest depth in a list. -/
def depthOfItems : List Json → Nat
  | [] => 0
  | item :: rest => max (depth item) (depthOfItems rest)

/-- The greatest depth among members. -/
def depthOfMembers : List (Option String × Json) → Nat
  | [] => 0
  | (_, value) :: rest => max (depth value) (depthOfMembers rest)

end

def ofNat (value : Nat) : Json := .number (Number.ofNat value)

def ofText (text : String) : Json := .string (some text)

/-- The object with the given members. -/
def ofMembers (members : List (String × Json)) : Json :=
  .object (members.map fun (name, value) => (some name, value))

end Json

end LinkRegistry
