import LinkRegistry.Json.Basic

/-!
# Writing JSON text

Compact text: no blanks, members in their order, the shortest escapes.
-/

namespace LinkRegistry.Json

/-- The lower-case hexadecimal digit of a number below sixteen. -/
def hexDigit (value : Nat) : Char :=
  if value < 10 then Char.ofNat (48 + value) else Char.ofNat (87 + value)

/-- A character as it stands in a string literal. -/
def escape (character : Char) : List Char :=
  if character = '"' then ['\\', '"']
  else if character = '\\' then ['\\', '\\']
  else if character = '\x08' then ['\\', 'b']
  else if character = '\x0c' then ['\\', 'f']
  else if character = '\n' then ['\\', 'n']
  else if character = '\r' then ['\\', 'r']
  else if character = '\t' then ['\\', 't']
  else if character.toNat < 0x20 then
    ['\\', 'u', '0', '0', hexDigit (character.toNat / 16), hexDigit (character.toNat % 16)]
  else [character]

/-- A string literal. What spells no text is written as half of a surrogate pair. -/
def writeString : Option String → List Char
  | some text => '"' :: text.toList.flatMap escape ++ ['"']
  | none => "\"\\ud800\"".toList

def writeNat (value : Nat) : List Char := Nat.toDigits 10 value

/-- A number literal. -/
def writeNumber (literal : Number) : List Char :=
  let sign := if literal.negative then ['-'] else []
  let power := literal.exponent - literal.places
  let tail :=
    if literal.plain then []
    else 'e' :: (if power < 0 then ['-'] else []) ++ writeNat power.natAbs
  sign ++ writeNat literal.digits ++ tail

mutual

/-- The characters of a value. -/
def write : Json → List Char
  | .null => "null".toList
  | .bool true => "true".toList
  | .bool false => "false".toList
  | .number value => writeNumber value
  | .string text => writeString text
  | .array items => '[' :: writeItems items ++ [']']
  | .object members => '\x7b' :: writeMembers members ++ ['\x7d']

/-- The items of an array between commas. -/
def writeItems : List Json → List Char
  | [] => []
  | [item] => write item
  | item :: rest => write item ++ ',' :: writeItems rest

/-- The members of an object between commas. -/
def writeMembers : List (Option String × Json) → List Char
  | [] => []
  | [(name, value)] => writeString name ++ ':' :: write value
  | (name, value) :: rest => writeString name ++ ':' :: write value ++ ',' :: writeMembers rest

end

def render (json : Json) : String := String.ofList (write json)

end LinkRegistry.Json
