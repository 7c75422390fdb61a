import LinkRegistry.Text.Utf8
import LinkRegistry.Text.Quoted

/-!
# Base58 text

A byte string read as one big-endian number in base 58, over the alphabet without `0`, `O`, `I` and
`l`. Each leading `1` stands for a leading zero byte.
-/

namespace LinkRegistry.Base58

def alphabet : List Char := "123456789ABCDEFGHJKLMNPQRSTUVWXYZabcdefghijkmnopqrstuvwxyz".toList

def digitValue? (byte : UInt8) : Option Nat := alphabet.idxOf? (Char.ofNat byte.toNat)

/-- Why a text is not base58. -/
inductive Error
  /-- The ASCII byte at this index is no digit. -/
  | badDigit (byte : UInt8) (index : Nat)
  /-- A character outside ASCII begins at this index. -/
  | nonAscii (index : Nat)
  deriving DecidableEq, Repr

def Error.message : Error → String
  | .badDigit byte index =>
    let shown := Quoted.character (Char.ofNat byte.toNat)
    s!"provided string contained invalid character {shown} at byte {index}"
  | .nonAscii index =>
    s!"provided string contained non-ascii character starting at byte {index}"

/-- The number that digits stand for, continuing from the digits before `index`. -/
def number (index value : Nat) : Bytes → Except Error Nat
  | [] => .ok value
  | byte :: rest =>
    if 0x80 ≤ byte then .error (.nonAscii index)
    else
      match digitValue? byte with
      | none => .error (.badDigit byte index)
      | some digit => number (index + 1) (58 * value + digit) rest

/-- The bytes of a number, most significant first and without leading zeros, given a bound on their
count. -/
def minimalBytes : Nat → Nat → Bytes
  | 0, _ => []
  | width + 1, value =>
    if value = 0 then [] else minimalBytes width (value / 256) ++ [UInt8.ofNat (value % 256)]

/-- Reads a base58 text. The first byte that is no digit is reported. -/
def decode (text : String) : Except Error Bytes :=
  let digits := Utf8.encode text
  match number 0 0 digits with
  | .error error => .error error
  | .ok value =>
    .ok ((digits.takeWhile (· = 49)).map (fun _ => 0) ++ minimalBytes digits.length value)

end LinkRegistry.Base58
