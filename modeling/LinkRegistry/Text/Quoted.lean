import LinkRegistry.Text.CharacterClass

/-!
# Quoted text

How texts and characters appear inside messages: between quotes, with a backslash before the quote
and the backslash, short escapes for the common control characters, and the code point in
hexadecimal for every other character that cannot be shown on its own.
-/

namespace LinkRegistry.Quoted

/-- The lower-case hexadecimal digits of a number, without leading zeros. -/
def hexDigits (number : Nat) : String := String.ofList (Nat.toDigits 16 number)

/-- Whether a character is shown by its code point. No ASCII character but a control character
is. -/
def isEscaped (character : Char) : Bool :=
  if 0x20 ≤ character.toNat && character.toNat < 0x7F then false
  else CodeRange.covers Table.escaped character

/-- A character as it appears between quotes of the given kind. -/
def escape (quote character : Char) : String :=
  if character = '\x00' then "\\0"
  else if character = '\t' then "\\t"
  else if character = '\n' then "\\n"
  else if character = '\r' then "\\r"
  else if character = '\\' || character = quote then String.ofList ['\\', character]
  else if isEscaped character then "\\u\x7b" ++ hexDigits character.toNat ++ "\x7d"
  else String.singleton character

/-- A text between double quotes. -/
def text (content : String) : String :=
  "\"" ++ String.join (content.toList.map (escape '"')) ++ "\""

/-- A character between single quotes. -/
def character (content : Char) : String :=
  "'" ++ escape '\'' content ++ "'"

end LinkRegistry.Quoted
