import LinkRegistry.Json.Basic

/-!
# Reading JSON text

Strict JSON over a list of characters, with blanks allowed around every token. Reading settles the
grammar only; whether numbers and strings can be taken at their word is asked of the value.
-/

namespace LinkRegistry.Json.Parser

/-- Space, tab, line feed and carriage return. -/
def isBlank (character : Char) : Bool :=
  character = ' ' || character = '\t' || character = '\n' || character = '\r'

/-- The characters from the first that is not blank. -/
def skipBlanks (input : List Char) : List Char := input.dropWhile isBlank

/-! ## Strings -/

/-- One place of a string literal: a character, or a code unit given by its number. -/
inductive Place
  | character (value : Char)
  | code (value : Nat)
  deriving DecidableEq, Repr

/-- The value of a hexadecimal digit. -/
def hexDigit? (character : Char) : Option Nat :=
  let code := character.toNat
  if 48 ≤ code && code ≤ 57 then some (code - 48)
  else if 65 ≤ code && code ≤ 70 then some (code - 55)
  else if 97 ≤ code && code ≤ 102 then some (code - 87)
  else none

/-- The code unit of four hexadecimal digits. -/
def codeUnit? (a b c d : Char) : Option Nat := do
  let a ← hexDigit? a
  let b ← hexDigit? b
  let c ← hexDigit? c
  let d ← hexDigit? d
  some (((a * 16 + b) * 16 + c) * 16 + d)

/-- The character that a one-letter escape stands for. -/
def escaped? (letter : Char) : Option Char :=
  match letter with
  | '"' => some '"'
  | '\\' => some '\\'
  | '/' => some '/'
  | 'b' => some '\x08'
  | 'f' => some '\x0c'
  | 'n' => some '\n'
  | 'r' => some '\r'
  | 't' => some '\t'
  | _ => none

/-- Takes the places of a string literal up to its closing quote. -/
def places : List Char → Option (List Place × List Char)
  | [] => none
  | '"' :: rest => some ([], rest)
  | '\\' :: 'u' :: a :: b :: c :: d :: rest =>
    match codeUnit? a b c d, places rest with
    | some code, some (others, rest) => some (.code code :: others, rest)
    | _, _ => none
  | '\\' :: letter :: rest =>
    match escaped? letter, places rest with
    | some value, some (others, rest) => some (.character value :: others, rest)
    | _, _ => none
  | character :: rest =>
    if character.toNat < 0x20 || character = '\\' then none
    else
      match places rest with
      | some (others, rest) => some (.character character :: others, rest)
      | none => none

/-- Whether a code unit is the first half of a surrogate pair. -/
def isHighHalf (code : Nat) : Bool := 0xD800 ≤ code && code ≤ 0xDBFF

/-- Whether a code unit is the second half of a surrogate pair. -/
def isLowHalf (code : Nat) : Bool := 0xDC00 ≤ code && code ≤ 0xDFFF

/-- The characters that the places of a literal spell, if every half of a pair stands with its
other half. -/
def spell? : List Place → Option (List Char)
  | [] => some []
  | .character value :: rest => (spell? rest).map (value :: ·)
  | .code high :: rest =>
    if isLowHalf high then none
    else if isHighHalf high then
      match rest with
      | .code low :: rest =>
        if isLowHalf low then
          (spell? rest).map (Char.ofNat (0x10000 + (high - 0xD800) * 0x400 + (low - 0xDC00)) :: ·)
        else none
      | _ => none
    else (spell? rest).map (Char.ofNat high :: ·)

/-- Takes the rest of a string literal after its opening quote. -/
def literal (input : List Char) : Option (Option String × List Char) :=
  match places input with
  | some (spelling, rest) => some ((spell? spelling).map String.ofList, rest)
  | none => none

/-! ## Numbers -/

def isDigit (character : Char) : Bool := '0' ≤ character && character ≤ '9'

/-- The number that decimal digits spell. -/
def decimal (digits : List Char) : Nat :=
  digits.foldl (fun value digit => 10 * value + (digit.toNat - 48)) 0

/-- Takes the digits before the point: one zero, or digits that begin with another. -/
def wholeDigits (input : List Char) : Option (List Char × List Char) :=
  match input.takeWhile isDigit with
  | [] => none
  | '0' :: _ :: _ => none
  | digits => some (digits, input.dropWhile isDigit)

/-- Takes the digits after a point, if there is one; there must be some. -/
def fractionDigits : List Char → Option (List Char × List Char)
  | '.' :: rest =>
    match rest.takeWhile isDigit with
    | [] => none
    | digits => some (digits, rest.dropWhile isDigit)
  | input => some ([], input)

/-- Takes the sign and the digits of an exponent after its letter. -/
def signedExponent (input : List Char) : Option (Int × List Char) :=
  let (negative, rest) :=
    match input with
    | '+' :: rest => (false, rest)
    | '-' :: rest => (true, rest)
    | rest => (false, rest)
  match rest.takeWhile isDigit with
  | [] => none
  | digits =>
    let value : Int := decimal digits
    some (if negative then -value else value, rest.dropWhile isDigit)

/-- Takes an exponent, if there is one. -/
def exponentPart : List Char → Option (Option Int × List Char)
  | 'e' :: rest | 'E' :: rest =>
    match signedExponent rest with
    | some (value, rest) => some (some value, rest)
    | none => none
  | input => some (none, input)

/-- Takes a number literal after its sign. -/
def unsignedNumber (negative : Bool) (input : List Char) : Option (Number × List Char) := do
  let (whole, rest) ← wholeDigits input
  let (fraction, rest) ← fractionDigits rest
  let (exponent, rest) ← exponentPart rest
  some
    (⟨negative, decimal (whole ++ fraction), fraction.length, exponent.getD 0,
      fraction.isEmpty && exponent.isNone⟩, rest)

/-! ## Values -/

/-- Takes the rest of a word. -/
def word (letters : List Char) (value : Json) (input : List Char) : Option (Json × List Char) :=
  if letters.isPrefixOf input then some (value, input.drop letters.length) else none

mutual

/-- Takes a value, within so many nested calls. -/
def value : Nat → List Char → Option (Json × List Char)
  | 0, _ => none
  | fuel + 1, input =>
    match skipBlanks input with
    | 'n' :: rest => word "ull".toList .null rest
    | 't' :: rest => word "rue".toList (.bool true) rest
    | 'f' :: rest => word "alse".toList (.bool false) rest
    | '"' :: rest => (literal rest).map fun (text, rest) => (.string text, rest)
    | '-' :: rest => (unsignedNumber true rest).map fun (parsed, rest) => (.number parsed, rest)
    | '[' :: rest =>
      match skipBlanks rest with
      | ']' :: rest => some (.array [], rest)
      | rest => (items fuel rest).map fun (items, rest) => (.array items, rest)
    | '{' :: rest =>
      match skipBlanks rest with
      | '}' :: rest => some (.object [], rest)
      | rest => (members fuel rest).map fun (members, rest) => (.object members, rest)
    | rest => (unsignedNumber false rest).map fun (parsed, rest) => (.number parsed, rest)

/-- Takes the items of an array up to its closing bracket. -/
def items : Nat → List Char → Option (List Json × List Char)
  | 0, _ => none
  | fuel + 1, input =>
    match value fuel input with
    | none => none
    | some (item, rest) =>
      match skipBlanks rest with
      | ']' :: rest => some ([item], rest)
      | ',' :: rest => (items fuel rest).map fun (others, rest) => (item :: others, rest)
      | _ => none

/-- Takes the members of an object up to its closing brace. -/
def members : Nat → List Char → Option (List (Option String × Json) × List Char)
  | 0, _ => none
  | fuel + 1, input =>
    match skipBlanks input with
    | '"' :: rest =>
      match literal rest with
      | none => none
      | some (name, rest) =>
        match skipBlanks rest with
        | ':' :: rest =>
          match value fuel rest with
          | none => none
          | some (member, rest) =>
            match skipBlanks rest with
            | '}' :: rest => some ([(name, member)], rest)
            | ',' :: rest =>
              (members fuel rest).map fun (others, rest) => ((name, member) :: others, rest)
            | _ => none
        | _ => none
    | _ => none

end

end LinkRegistry.Json.Parser

namespace LinkRegistry

/-- Reads a text as one value, with nothing but blanks around it. Two nested calls take at least one
character, so the length bounds their number. -/
def Json.parse? (text : String) : Option Json :=
  let input := text.toList
  match Parser.value (2 * input.length + 2) input with
  | some (json, rest) => if (Parser.skipBlanks rest).isEmpty then some json else none
  | none => none

end LinkRegistry
