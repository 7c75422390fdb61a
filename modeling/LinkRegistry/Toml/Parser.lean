import LinkRegistry.Toml.Value

/-!
# Reading TOML

A document is read line by line over a list of characters: comments, headers, and keys with their
values. Each part takes its characters off the front and gives the rest.
-/

namespace LinkRegistry.Toml.Parser

/-! ## Blanks, comments and line ends -/

def isBlank (character : Char) : Bool := character = ' ' || character = '\t'

/-- The characters from the first that is not blank. -/
def skipBlanks (input : List Char) : List Char := input.dropWhile isBlank

/-- Whether a character may stand in a comment: no control character but the tab. -/
def isCommentCharacter (character : Char) : Bool :=
  character = '\t' || (0x20 ≤ character.toNat && character.toNat ≠ 0x7F)

/-- The characters after a comment, if one begins here. -/
def skipComment : List Char → List Char
  | '#' :: rest => rest.dropWhile isCommentCharacter
  | input => input

/-- The characters after a line end. -/
def lineEnd? : List Char → Option (List Char)
  | '\n' :: rest => some rest
  | '\r' :: '\n' :: rest => some rest
  | _ => none

/-- The characters after the rest of a line, which holds no more than blanks and a comment. -/
def endOfLine? (input : List Char) : Option (List Char) :=
  match skipComment (skipBlanks input) with
  | [] => some []
  | rest => lineEnd? rest

/-- The characters after blanks, comments and line ends, within so many steps. A comment must end
with its line. -/
def skipLines : Nat → List Char → Option (List Char)
  | 0, _ => none
  | fuel + 1, input =>
    match skipBlanks input with
    | '#' :: rest =>
      match lineEnd? (skipComment ('#' :: rest)) with
      | some rest => skipLines fuel rest
      | none => none
    | rest =>
      match lineEnd? rest with
      | some rest => skipLines fuel rest
      | none => some rest

/-! ## Strings -/

/-- Whether a character may stand in a text as itself: no control character but the tab. -/
def isTextCharacter (character : Char) : Bool := isCommentCharacter character

/-- The value of a hexadecimal digit. -/
def hexDigit? (character : Char) : Option Nat :=
  let code := character.toNat
  if 48 ≤ code && code ≤ 57 then some (code - 48)
  else if 65 ≤ code && code ≤ 70 then some (code - 55)
  else if 97 ≤ code && code ≤ 102 then some (code - 87)
  else none

/-- The character whose code so many hexadecimal digits give. -/
def codePoint? (count : Nat) (input : List Char) : Option (Char × List Char) := do
  let digits := input.take count
  if digits.length = count then
    let code ← digits.foldlM (fun code digit => (hexDigit? digit).map (16 * code + ·)) 0
    if code.isValidChar then some (Char.ofNat code, input.drop count) else none
  else none

/-- Takes an escape after its backslash. -/
def escape? : List Char → Option (Char × List Char)
  | 'b' :: rest => some ('\x08', rest)
  | 't' :: rest => some ('\t', rest)
  | 'n' :: rest => some ('\n', rest)
  | 'f' :: rest => some ('\x0c', rest)
  | 'r' :: rest => some ('\r', rest)
  | '"' :: rest => some ('"', rest)
  | '\\' :: rest => some ('\\', rest)
  | 'u' :: rest => codePoint? 4 rest
  | 'U' :: rest => codePoint? 8 rest
  | _ => none

/-- Takes the rest of a text between single quotation marks of either kind on one line, within so
many steps. Only double quotes know escapes. -/
def line (quote : Char) : Nat → List Char → Option (List Char × List Char)
  | 0, _ => none
  | _, [] => none
  | fuel + 1, character :: rest =>
    if character = quote then some ([], rest)
    else if character = '\\' && quote = '"' then do
      let (escaped, rest) ← escape? rest
      let (others, rest) ← line quote fuel rest
      some (escaped :: others, rest)
    else if isTextCharacter character then do
      let (others, rest) ← line quote fuel rest
      some (character :: others, rest)
    else none

/-- The characters after the line end that a backslash swallows, with all blanks and line ends that
follow; `none` if no line end comes first. -/
def continuation? (input : List Char) : Option (List Char) :=
  match lineEnd? (skipBlanks input) with
  | none => none
  | some rest => some (swallow rest.length rest)
where
  /-- The characters after blanks and line ends. -/
  swallow : Nat → List Char → List Char
    | 0, input => input
    | fuel + 1, input =>
      match lineEnd? (skipBlanks input) with
      | some rest => swallow fuel rest
      | none => skipBlanks input

/-- Takes the rest of a text between triple quotation marks of either kind, within so many steps.
One or two marks may stand inside it, also before the closing ones. -/
def lines (quote : Char) : Nat → List Char → Option (List Char × List Char)
  | 0, _ => none
  | _, [] => none
  | fuel + 1, character :: rest =>
    if character = quote then
      match (character :: rest).takeWhile (· = quote), rest.dropWhile (· = quote) with
      | [_], rest => (lines quote fuel rest).map fun (others, rest) => (quote :: others, rest)
      | [_, _], rest =>
        (lines quote fuel rest).map fun (others, rest) => (quote :: quote :: others, rest)
      | [_, _, _], rest => some ([], rest)
      | [_, _, _, _], rest => some ([quote], rest)
      | [_, _, _, _, _], rest => some ([quote, quote], rest)
      | _, _ => none
    else if character = '\\' && quote = '"' then
      match continuation? rest with
      | some rest => lines quote fuel rest
      | none => do
        let (escaped, rest) ← escape? rest
        let (others, rest) ← lines quote fuel rest
        some (escaped :: others, rest)
    else
      match lineEnd? (character :: rest) with
      | some rest => (lines quote fuel rest).map fun (others, rest) => ('\n' :: others, rest)
      | none =>
        if isTextCharacter character then
          (lines quote fuel rest).map fun (others, rest) => (character :: others, rest)
        else none

/-- Takes a text after the first mark of a quotation. A line end right after triple marks is left
out. -/
def quoted (quote : Char) (input : List Char) : Option (String × List Char) :=
  let taken :=
    match input with
    | first :: second :: rest =>
      if first = quote && second = quote then
        let body := (lineEnd? rest).getD rest
        lines quote (body.length + 1) body
      else line quote (input.length + 1) input
    | _ => line quote (input.length + 1) input
  taken.map fun (characters, rest) => (String.ofList characters, rest)

/-! ## Keys -/

/-- Whether a character may stand in a bare key. -/
def isKeyCharacter (character : Char) : Bool :=
  character.isAlphanum || character = '_' || character = '-'

/-- Takes one part of a key: bare, or between quotation marks on one line. -/
def keyPart : List Char → Option (String × List Char)
  | '"' :: rest =>
    (line '"' (rest.length + 1) rest).map fun (characters, rest) => (String.ofList characters, rest)
  | '\'' :: rest =>
    (line '\'' (rest.length + 1) rest).map fun (characters, rest) =>
      (String.ofList characters, rest)
  | input =>
    match input.takeWhile isKeyCharacter with
    | [] => none
    | characters => some (String.ofList characters, input.dropWhile isKeyCharacter)

/-- The number of parts that a key must stay below, and of nested values. -/
def nestingLimit : Nat := 80

/-- Takes the parts of a key between points, at most so many. -/
def keyParts : Nat → List Char → Option (List String × List Char)
  | 0, _ => none
  | count + 1, input => do
    let (part, rest) ← keyPart (skipBlanks input)
    match skipBlanks rest with
    | '.' :: rest =>
      let (others, rest) ← keyParts count rest
      some (part :: others, rest)
    | rest => some ([part], rest)

/-- Takes a key: the parts before its last point, and the last part. -/
def key (input : List Char) : Option ((List String × String) × List Char) := do
  let (parts, rest) ← keyParts (nestingLimit - 1) input
  let last ← parts.getLast?
  some ((parts.dropLast, last), rest)

/-! ## Numbers and times -/

def isDigit (character : Char) : Bool := '0' ≤ character && character ≤ '9'

/-- Takes digits of a kind, with single underscores between them, within so many steps. -/
def digits (isOne : Char → Bool) : Nat → List Char → Option (List Char × List Char)
  | 0, _ => none
  | _, [] => none
  | fuel + 1, character :: rest =>
    if !isOne character then none
    else
      let next :=
        match rest with
        | '_' :: after => digits isOne fuel after
        | other :: _ => if isOne other then digits isOne fuel rest else some ([], rest)
        | [] => some ([], rest)
      next.map fun (others, rest) => (character :: others, rest)

/-- Takes decimal digits. -/
def decimalDigits (input : List Char) : Option (List Char × List Char) :=
  digits isDigit (input.length + 1) input

/-- Takes decimal digits that do not begin with a zero unless they are one. -/
def wholeDigits (input : List Char) : Option (List Char × List Char) :=
  match input with
  | '0' :: rest => some (['0'], rest)
  | input => decimalDigits input

/-- Takes a sign, if there is one: whether it is a minus. -/
def sign : List Char → Bool × List Char
  | '-' :: rest => (true, rest)
  | '+' :: rest => (false, rest)
  | input => (false, input)

/-- The number that digits spell in a base. -/
def numberOf (base : Nat) (digits : List Char) : Nat :=
  digits.foldl (fun value digit => base * value + (hexDigit? digit).getD 0) 0

/-- An integer that 64 bits hold. -/
def bounded (number : Int) (rest : List Char) : Option (Value × List Char) :=
  if -0x8000000000000000 ≤ number && number < 0x8000000000000000 then some (.integer number, rest) else none

/-- Takes an integer in a base given by its letter. -/
def basedInteger (base : Nat) (isOne : Char → Bool) (input : List Char) :
    Option (Value × List Char) := do
  let (spelled, rest) ← digits isOne (input.length + 1) input
  bounded (numberOf base spelled) rest

/-- Takes an integer. -/
def integer (input : List Char) : Option (Value × List Char) :=
  match input with
  | '0' :: 'x' :: rest => basedInteger 16 (fun character => (hexDigit? character).isSome) rest
  | '0' :: 'o' :: rest => basedInteger 8 (fun character => '0' ≤ character && character ≤ '7') rest
  | '0' :: 'b' :: rest => basedInteger 2 (fun character => character = '0' || character = '1') rest
  | input => do
    let (negative, rest) := sign input
    let (spelled, rest) ← wholeDigits rest
    let number : Int := numberOf 10 spelled
    bounded (if negative then -number else number) rest

/-- Takes the digits after a point, if there is one. -/
def fraction : List Char → Option (Option (List Char) × List Char)
  | '.' :: rest => (decimalDigits rest).map fun (spelled, rest) => (some spelled, rest)
  | input => some (none, input)

/-- Takes an exponent, if there is one. -/
def exponent : List Char → Option (Option Int × List Char)
  | 'e' :: rest | 'E' :: rest => do
    let (negative, rest) := sign rest
    let (spelled, rest) ← decimalDigits rest
    let number : Int := numberOf 10 spelled
    some (some (if negative then -number else number), rest)
  | input => some (none, input)

/-- Whether a decimal number is too large for a double. -/
def overflows (spelled : Nat) (power : Int) : Bool :=
  if spelled = 0 then false
  else if 400 < power then true
  else if power < 0 then (Nat.pow 2 1024 - Nat.pow 2 970) * Nat.pow 10 power.natAbs ≤ spelled
  else Nat.pow 2 1024 - Nat.pow 2 970 ≤ spelled * Nat.pow 10 power.toNat

/-- Takes a float: one that is spelled as such, and no positive one too large for a double. -/
def float (input : List Char) : Option (Value × List Char) := do
  let (negative, rest) := sign input
  match rest with
  | 'i' :: 'n' :: 'f' :: rest => some (.float, rest)
  | 'n' :: 'a' :: 'n' :: rest => some (.float, rest)
  | rest =>
    let (whole, rest) ← wholeDigits rest
    let (places, rest) ← fraction rest
    let (power, rest) ← exponent rest
    if places.isNone && power.isNone then none
    else
      let places := places.getD []
      let spelled := numberOf 10 (whole ++ places)
      if !negative && overflows spelled (power.getD 0 - places.length) then none
      else some (.float, rest)

/-- Takes a number of exactly so many digits within bounds. -/
def field (count lower upper : Nat) (input : List Char) : Option (Nat × List Char) :=
  let spelled := input.take count
  if spelled.length = count && spelled.all isDigit then
    let number := numberOf 10 spelled
    if lower ≤ number && number ≤ upper then some (number, input.drop count) else none
  else none

/-- Takes one given character. -/
def expect (wanted : Char) : List Char → Option (List Char)
  | character :: rest => if character = wanted then some rest else none
  | [] => none

/-- The days of a month. -/
def daysIn (year month : Nat) : Nat :=
  if month = 2 then
    if year % 4 = 0 && (year % 100 ≠ 0 || year % 400 = 0) then 29 else 28
  else if month = 4 || month = 6 || month = 9 || month = 11 then 30
  else 31

/-- Takes a date. -/
def date (input : List Char) : Option (List Char) := do
  let (year, rest) ← field 4 0 9999 input
  let rest ← expect '-' rest
  let (month, rest) ← field 2 1 12 rest
  let rest ← expect '-' rest
  let (_, rest) ← field 2 1 (daysIn year month) rest
  some rest

/-- Takes a time of day. -/
def timeOfDay (input : List Char) : Option (List Char) := do
  let (_, rest) ← field 2 0 23 input
  let rest ← expect ':' rest
  let (_, rest) ← field 2 0 59 rest
  let rest ← expect ':' rest
  let (_, rest) ← field 2 0 60 rest
  match rest with
  | '.' :: after =>
    match after.takeWhile isDigit with
    | [] => none
    | _ => some (after.dropWhile isDigit)
  | rest => some rest

/-- The characters after the offset of a time, if there is one. -/
def skipOffset (input : List Char) : Option (List Char) :=
  match input with
  | 'Z' :: rest | 'z' :: rest => some rest
  | '+' :: rest | '-' :: rest => do
    let (_, rest) ← field 2 0 23 rest
    let rest ← expect ':' rest
    let (_, rest) ← field 2 0 59 rest
    some rest
  | rest => some rest

/-- Takes a date with or without a time, or a time of day. -/
def time (input : List Char) : Option (Value × List Char) :=
  match date input with
  | none => (timeOfDay input).map (.time, ·)
  | some rest =>
    match rest with
    | ' ' :: after =>
      match timeOfDay after with
      | some after => (skipOffset after).map (.time, ·)
      | none => some (.time, rest)
    | 'T' :: after | 't' :: after => do
      let after ← timeOfDay after
      let after ← skipOffset after
      some (.time, after)
    | rest => some (.time, rest)

/-- Takes a number or a time. -/
def numeric (input : List Char) : Option (Value × List Char) :=
  (time input <|> float input) <|> integer input

/-! ## Values -/

/-- Takes a word. -/
def word (letters : List Char) (value : Value) (input : List Char) : Option (Value × List Char) :=
  if letters.isPrefixOf input then some (value, input.drop letters.length) else none

mutual

/-- Takes a value that nests less than `levels` arrays and tables, within so many nested calls. -/
def value (levels : Nat) : Nat → List Char → Option (Value × List Char)
  | 0, _ => none
  | _, [] => none
  | fuel + 1, character :: rest =>
    if character = '"' || character = '\'' then
      (quoted character rest).map fun (content, rest) => (.text content, rest)
    else if character = 't' then word "true".toList (.boolean true) (character :: rest)
    else if character = 'f' then word "false".toList (.boolean false) (character :: rest)
    else if character = '[' then
      match levels with
      | 0 => none
      | levels + 1 => (items levels fuel rest).map fun (items, rest) => (.array items, rest)
    else if character = '\x7b' then
      match levels with
      | 0 => none
      | levels + 1 =>
        match skipBlanks rest with
        | '\x7d' :: rest => some (.table [], rest)
        | rest =>
          (pairs levels fuel [] rest).map fun (members, rest) => (.table (toValues members), rest)
    else numeric (character :: rest)

/-- Takes the items of an array up to its closing bracket. A comma may follow the last. -/
def items (levels : Nat) : Nat → List Char → Option (List Value × List Char)
  | 0, _ => none
  | fuel + 1, input =>
    match skipLines (input.length + 1) input with
    | none => none
    | some (']' :: rest) => some ([], rest)
    | some rest =>
      match value levels fuel rest with
      | none => none
      | some (item, rest) =>
        match skipLines (rest.length + 1) rest with
        | some (',' :: rest) =>
          (items levels fuel rest).map fun (others, rest) => (item :: others, rest)
        | some (']' :: rest) => some ([item], rest)
        | _ => none

/-- Takes the pairs of an inline table up to its closing brace, adding them to its members. -/
def pairs (levels : Nat) : Nat → Members → List Char → Option (Members × List Char)
  | 0, _, _ => none
  | fuel + 1, members, input =>
    match key input with
    | none => none
    | some ((path, last), rest) =>
      match rest with
      | '=' :: rest =>
        match value levels fuel (skipBlanks rest) with
        | none => none
        | some (content, rest) =>
          match defineValue path last content members with
          | none => none
          | some members =>
            match skipBlanks rest with
            | ',' :: rest => pairs levels fuel members rest
            | '\x7d' :: rest => some (members, rest)
            | _ => none
      | _ => none

end

/-! ## Documents -/

/-- The step from a table to one that a header's path leads on to. -/
def atPath (path : List String) (change : Members → Option Members) (root : Members) :
    Option Members :=
  alter false change path root

/-- Reads the lines of a document, within so many steps. `current` leads to the table that keys go
to. -/
def document : Nat → List String → Members → List Char → Option Members
  | 0, _, _, _ => none
  | fuel + 1, current, root, input =>
    match skipBlanks input with
    | [] => some root
    | '#' :: rest =>
      match endOfLine? ('#' :: rest) with
      | some rest => document fuel current root rest
      | none => none
    | '[' :: '[' :: rest =>
      match key rest with
      | some ((path, last), ']' :: ']' :: rest) =>
        match endOfLine? rest, atPath path (appendTable last) root with
        | some rest, some root => document fuel (path ++ [last]) root rest
        | _, _ => none
      | _ => none
    | '[' :: rest =>
      match key rest with
      | some ((path, last), ']' :: rest) =>
        match endOfLine? rest, atPath path (openTable last) root with
        | some rest, some root => document fuel (path ++ [last]) root rest
        | _, _ => none
      | _ => none
    | rest =>
      match lineEnd? rest with
      | some rest => document fuel current root rest
      | none =>
        match key rest with
        | some ((path, last), '=' :: rest) =>
          match value (nestingLimit - 1) (2 * rest.length + 2) (skipBlanks rest) with
          | none => none
          | some (content, rest) =>
            match endOfLine? rest, atPath current (defineValue path last content) root with
            | some rest, some root => document fuel current root rest
            | _, _ => none
        | _ => none

end LinkRegistry.Toml.Parser

namespace LinkRegistry

/-- Reads a document: the members of its root table. A byte order mark before it is ignored. -/
def Toml.parse? (text : String) : Option (List (String × Toml.Value)) :=
  let input :=
    match text.toList with
    | '\uFEFF' :: rest => rest
    | input => input
  (Parser.document (input.length + 1) [] [] input).map toValues

end LinkRegistry
