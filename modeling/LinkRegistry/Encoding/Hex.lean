import LinkRegistry.Text.Utf8
import LinkRegistry.Text.Quoted

/-!
# Hexadecimal text

Two digits a byte, high half first. Written in lower case, read in either.
-/

namespace LinkRegistry.Hex

/-- The digit of a number below sixteen. -/
def digit (value : Nat) : Char :=
  if value < 10 then Char.ofNat (48 + value) else Char.ofNat (87 + value)

/-- The value of a digit given as a byte of text, in either case. -/
def digitValue? (byte : UInt8) : Option Nat :=
  if 48 ≤ byte && byte ≤ 57 then some (byte.toNat - 48)
  else if 65 ≤ byte && byte ≤ 70 then some (byte.toNat - 55)
  else if 97 ≤ byte && byte ≤ 102 then some (byte.toNat - 87)
  else none

def encodeByte (byte : UInt8) : List Char := [digit (byte.toNat / 16), digit (byte.toNat % 16)]

def encode (bytes : Bytes) : String := String.ofList (bytes.flatMap encodeByte)

/-- Why a text is not hexadecimal. -/
inductive Error
  /-- The text has an odd number of bytes. -/
  | oddLength
  /-- The byte at this position is no digit. -/
  | badDigit (byte : UInt8) (position : Nat)
  deriving DecidableEq, Repr

/-- The text of a reading failure. A byte is shown as the character of that code. -/
def Error.message : Error → String
  | .oddLength => "Odd number of digits"
  | .badDigit byte position =>
    s!"Invalid character {Quoted.character (Char.ofNat byte.toNat)} at position {position}"

/-- Reads pairs of digits; `position` counts the digits before them. -/
def decodePairs (position : Nat) : Bytes → Except Error Bytes
  | high :: low :: rest =>
    match digitValue? high with
    | none => .error (.badDigit high position)
    | some upper =>
      match digitValue? low with
      | none => .error (.badDigit low (position + 1))
      | some lower =>
        match decodePairs (position + 2) rest with
        | .ok bytes => .ok (UInt8.ofNat (16 * upper + lower) :: bytes)
        | .error error => .error error
  | [_] => .error .oddLength
  | [] => .ok []

/-- Reads a hexadecimal text. An odd length is found before any digit is looked at. -/
def decode (text : String) : Except Error Bytes :=
  let digits := Utf8.encode text
  if digits.length % 2 = 1 then .error .oddLength else decodePairs 0 digits

end LinkRegistry.Hex
