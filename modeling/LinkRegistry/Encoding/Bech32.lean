import LinkRegistry.Bytes
import LinkRegistry.Text.Utf8

/-!
# Bech32 text

A human-readable part, the separator `1`, data in digits of five bits, and a checksum of six more.
A text is all lower case or all upper case. The checksum also tells the classic form from the
later one. Byte strings become digits as strings of bits, which are cut into groups.
-/

/-! ## Bit strings -/

namespace LinkRegistry.Bits

/-- The `width` low-order bits of a number, most significant first. -/
def ofNat : Nat → Nat → List Bool
  | 0, _ => []
  | width + 1, number => number.testBit width :: ofNat width number

/-- The number that bits stand for, most significant first. -/
def toNat (bits : List Bool) : Nat :=
  bits.foldl (fun number bit => 2 * number + bit.toNat) 0

/-- The bits of a list of numbers, `width` from each. -/
def ofDigits (width : Nat) (digits : List Nat) : List Bool :=
  digits.flatMap (ofNat width)

/-- Cuts bits into `count` groups of `width`; a last group that runs short is filled with zeros. -/
def groups (width : Nat) : Nat → List Bool → List Nat
  | 0, _ => []
  | count + 1, bits =>
    let group := bits.take width
    toNat (group ++ List.replicate (width - group.length) false) ::
      groups width count (bits.drop width)

end LinkRegistry.Bits

/-! ## Texts -/

namespace LinkRegistry.Bech32

def alphabet : List Char := "qpzry9x8gf2tvdw0s3jn54khce6mua7l".toList

/-- Which checksum constant a text was made with. -/
inductive Form
  | classic
  | modified
  deriving DecidableEq, Repr

/-- Why a text is not bech32. -/
inductive Error
  | missingSeparator
  | invalidLength
  | invalidCharacter (character : Char)
  | mixedCase
  | invalidChecksum
  | invalidPadding
  deriving DecidableEq, Repr

def Error.message : Error → String
  | .missingSeparator => "missing human-readable separator, \"1\""
  | .invalidLength => "invalid length"
  | .invalidCharacter character => s!"invalid character (code={character})"
  | .mixedCase => "mixed-case strings not allowed"
  | .invalidChecksum => "invalid checksum"
  | .invalidPadding => "invalid padding"

/-! ## Checksum -/

/-- The generator words, one for each of the five bits that a step shifts out. -/
def generators : List Nat := [0x3b6a57b2, 0x26508e6d, 0x1ea119fa, 0x3d4233dd, 0x2a1462b3]

/-- What the five high bits of a checksum state feed back into it. -/
def feedback (high : Nat) : Nat :=
  (generators.zipIdx.map fun (generator, place) => if high.testBit place then generator else 0).foldl
    (· ^^^ ·) 0

/-- One step of the checksum over a digit. -/
def polymodStep (state digit : Nat) : Nat :=
  ((state % 0x2000000) * 32 ^^^ digit) ^^^ feedback (state / 0x2000000)

/-- The checksum state after a list of digits. -/
def polymod (digits : List Nat) : Nat := digits.foldl polymodStep 1

/-- The digits that the human-readable part contributes to the checksum. -/
def expand (label : Bytes) : List Nat :=
  label.map (fun byte => byte.toNat / 32) ++ [0] ++ label.map (fun byte => byte.toNat % 32)

/-- The checksum constant of a form. -/
def Form.constant : Form → Nat
  | .classic => 1
  | .modified => 0x2bc830a3

/-- The form whose checksum a list of digits carries. -/
def form? (label : Bytes) (digits : List Nat) : Option Form :=
  let state := polymod (expand label ++ digits)
  if state = Form.classic.constant then some .classic
  else if state = Form.modified.constant then some .modified
  else none

/-- The six digits that complete a classic text. -/
def checksum (label : Bytes) (digits : List Nat) : List Nat :=
  let state := polymod (expand label ++ digits ++ List.replicate 6 0) ^^^ Form.classic.constant
  Bits.groups 5 6 (Bits.ofNat 30 state)

/-! ## Letter case -/

/-- The letter case seen so far in a text. -/
inductive Case
  | unseen
  | lower
  | upper
  deriving DecidableEq, Repr

def isLower (character : Char) : Bool := 'a' ≤ character && character ≤ 'z'

def isUpper (character : Char) : Bool := 'A' ≤ character && character ≤ 'Z'

/-- The case seen after one more character, or `none` if it differs from the case before. -/
def Case.see (seen : Case) (character : Char) : Option Case :=
  if isLower character then if seen = .upper then none else some .lower
  else if isUpper character then if seen = .lower then none else some .upper
  else some seen

/-- A character in lower case. -/
def lowerChar (character : Char) : Char :=
  if isUpper character then Char.ofNat (character.toNat + 32) else character

/-! ## Human-readable part -/

/-- Looks through the bytes of a human-readable part: each is a visible ASCII character, and the
letters share one case. -/
def labelCase (seen : Case) : Bytes → Except Error Case
  | [] => .ok seen
  | byte :: rest =>
    let character := Char.ofNat byte.toNat
    if byte < 33 || 126 < byte then .error (.invalidCharacter character)
    else
      match seen.see character with
      | none => .error .mixedCase
      | some next => labelCase next rest

/-- Checks the length and the characters of a human-readable part, and tells its case. -/
def checkLabel (label : String) : Except Error Case :=
  let bytes := Utf8.encode label
  if bytes.isEmpty || 83 < bytes.length then .error .invalidLength else labelCase .unseen bytes

/-- A text with every upper-case ASCII letter in lower case. -/
def lowerText (text : String) : String := String.ofList (text.toList.map lowerChar)

/-- The human-readable part as it is read: in lower case if it was written in upper case. -/
def normalLabel (label : String) (seen : Case) : String :=
  if seen = .upper then lowerText label else label

/-! ## Data part -/

/-- Reads the digits of a data part, given the case of what stands before them. -/
def readDigits (seen : Case) : List Char → Except Error (List Nat)
  | [] => .ok []
  | character :: rest =>
    if 0x80 ≤ character.toNat then .error (.invalidCharacter character)
    else
      match seen.see character with
      | none => .error .mixedCase
      | some next =>
        match alphabet.idxOf? (lowerChar character) with
        | none => .error (.invalidCharacter character)
        | some digit =>
          match readDigits next rest with
          | .ok digits => .ok (digit :: digits)
          | .error error => .error error

/-- The characters before and after the last separator. -/
def splitLast (characters : List Char) : Option (List Char × List Char) :=
  let reversed := characters.reverse
  match reversed.dropWhile (· ≠ '1') with
  | [] => none
  | _ :: label => some (label.reverse, (reversed.takeWhile (· ≠ '1')).reverse)

/-- A text that has been read: its human-readable part in lower case, its data digits without the
checksum, and its form. -/
structure Reading where
  label : String
  digits : List Nat
  form : Form
  deriving DecidableEq, Repr

/-- Reads a bech32 text and checks its checksum. -/
def read (text : String) : Except Error Reading :=
  match splitLast text.toList with
  | none => .error .missingSeparator
  | some (labelCharacters, dataCharacters) =>
    let written := String.ofList labelCharacters
    match checkLabel written with
    | .error error => .error error
    | .ok seen =>
      match readDigits seen dataCharacters with
      | .error error => .error error
      | .ok digits =>
        if digits.length < 6 then .error .invalidLength
        else
          let label := normalLabel written seen
          match form? (Utf8.encode label) digits with
          | none => .error .invalidChecksum
          | some form => .ok ⟨label, digits.take (digits.length - 6), form⟩

/-! ## Bytes in data digits -/

/-- The data digits of a byte string. -/
def digitsOfBytes (bytes : Bytes) : List Nat :=
  Bits.groups 5 ((8 * bytes.length + 4) / 5) (Bits.ofDigits 8 (bytes.map UInt8.toNat))

/-- The byte string of data digits. What is left over must be fewer than five bits, all zero. -/
def bytesOfDigits (digits : List Nat) : Except Error Bytes :=
  let count := 5 * digits.length / 8
  let bits := Bits.ofDigits 5 digits
  let padding := bits.drop (8 * count)
  if 5 ≤ padding.length || padding.any id then .error .invalidPadding
  else .ok ((Bits.groups 8 count bits).map UInt8.ofNat)

/-- The classic text of a byte string under a human-readable part, which is put in lower case if it
is all upper case. -/
def write (label : String) (bytes : Bytes) : Except Error String :=
  match checkLabel label with
  | .error error => .error error
  | .ok seen =>
    let label := normalLabel label seen
    let digits := digitsOfBytes bytes
    let all := digits ++ checksum (Utf8.encode label) digits
    .ok (label ++ "1" ++ String.ofList (all.map fun digit => alphabet.getD digit 'q'))

end LinkRegistry.Bech32
