import LinkRegistry.Json.Parser
import LinkRegistry.Json.Printer
import LinkRegistry.Bytes

/-!
# JSON views of records

A record is viewed as an object of its fields and can be read from that object, in any order and
with other members beside them, or from an array of the fields in order. A choice is viewed as an
object whose member `type` names the case.

Where a value stands decides how closely it is looked at. A record is read as it comes, and the
members it does not know are passed over unseen. A choice has to be looked at as a whole before its
case is known, so everything inside one must be sound.
-/

namespace LinkRegistry.View

/-- Where a value stands. -/
inductive Position
  /-- Outside every choice, with room for so many nested arrays and objects. -/
  | direct (levels : Nat)
  /-- Inside a choice, which has been found sound. -/
  | buffered
  deriving DecidableEq, Repr

/-- The position inside an array or object, if there is room for one. -/
def Position.inner : Position → Option Position
  | .direct 0 => none
  | .direct (levels + 1) => some (.direct levels)
  | .buffered => some .buffered

/-- Reads a value that stands at a position. -/
abbrev Reader (α : Type) := Position → Json → Option α

/-- How deep a text may nest. -/
def maximalDepth : Nat := 127

def ofText? {α : Type} (reader : Reader α) (text : String) : Option α :=
  match Json.parse? text with
  | some json => reader (.direct maximalDepth) json
  | none => none

/-! ## Fields -/

/-- Reads a text. -/
def text : Reader String := fun _ json =>
  match json with
  | .string (some value) => some value
  | _ => none

/-- The natural number below a bound that a value is. -/
def naturalBelow (bound : Nat) : Json → Option Nat
  | .number literal =>
    match literal.natural? with
    | some value => if value < bound then some value else none
    | none => none
  | _ => none

def word32 : Reader UInt32 := fun _ json => (naturalBelow (Nat.pow 2 32) json).map UInt32.ofNat

def word64 : Reader UInt64 := fun _ json => (naturalBelow (Nat.pow 2 64) json).map UInt64.ofNat

/-- Reads an array, item by item. -/
def list {α : Type} (item : Reader α) : Reader (List α) := fun position json =>
  match json, position.inner with
  | .array items, some inner => items.mapM (item inner)
  | _, _ => none

/-- Reads a byte string, an array of numbers. -/
def bytes : Reader Bytes :=
  list fun _ json => (naturalBelow 256 json).map UInt8.ofNat

/-- Reads a value that may be null. -/
def option {α : Type} (reader : Reader α) : Reader (Option α) := fun position json =>
  match json with
  | .null => some none
  | json => (reader position json).map some

/-- The value of a field that may be missing. -/
def optionalField {α : Type} (reader : Reader α) (position : Position) :
    Option Json → Option (Option α)
  | some json => option reader position json
  | none => some none

/-- The values of the members of a name. -/
def membersNamed (name : String) (members : List (Option String × Json)) : List Json :=
  (members.filter (·.1 = some name)).map (·.2)

/-- The value of the field of a name, or `none` inside if it is missing. A field that stands twice
is refused. -/
def field? (members : List (Option String × Json)) (name : String) : Option (Option Json) :=
  match membersNamed name members with
  | [] => some none
  | [json] => some (some json)
  | _ => none

/-- The fields of a record in order, each with its value unless it is missing, and the position
they stand at. -/
def fields (names : List String) (position : Position) (json : Json) :
    Option (Position × List (Option Json)) :=
  match position.inner, json with
  | some inner, .array items =>
    if items.length = names.length then some (inner, items.map some) else none
  | some inner, .object members =>
    if members.all (·.1.isSome) then (names.mapM (field? members)).map (inner, ·) else none
  | _, _ => none

/-! ## Choices -/

/-- The case that a tag names: by its name, or by its number where numbers are taken. -/
def caseOf (cases : List String) (numbered : Bool) : Json → Option Nat
  | .string (some name) => cases.idxOf? name
  | .number literal =>
    if numbered then
      match literal.natural? with
      | some index => if index < cases.length then some index else none
      | none => none
    else none
  | _ => none

/-- The case of a choice and what is left without its tag: the other members, or the items after
the first. -/
def tagged (cases : List String) (numbered : Bool) : Json → Option (Nat × Json)
  | .object members =>
    match membersNamed "type" members with
    | [tag] =>
      (caseOf cases numbered tag).map (·, .object (members.filter (·.1 ≠ some "type")))
    | _ => none
  | .array (tag :: rest) => (caseOf cases numbered tag).map (·, .array rest)
  | _ => none

/-- Reads a choice at a position through a reader of sound values, which is told whether tags may
be numbers. -/
def choice {α : Type} (reader : Bool → Json → Option α) : Reader α := fun position json =>
  match position with
  | .direct levels => if json.isSound levels then reader false json else none
  | .buffered => reader true json

/-- Reads one of several names, alone or as the only member of an object that holds null. Inside a
choice an empty object is as good as null. -/
def name {α : Type} (cases : List (String × α)) : Reader α := fun position json =>
  match json, position with
  | .string (some name), _ => cases.lookup name
  | .object [(some name, .null)], .buffered => cases.lookup name
  | .object [(some name, .object [])], .buffered => cases.lookup name
  | .object [(some name, .null)], .direct (_ + 1) => cases.lookup name
  | _, _ => none

/-! ## Views of fields -/

def ofBytes (bytes : Bytes) : Json := .array (bytes.map fun byte => Json.ofNat byte.toNat)

end LinkRegistry.View
