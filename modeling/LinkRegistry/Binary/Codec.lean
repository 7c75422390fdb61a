import LinkRegistry.Binary.Reader

/-!
# Binary record formats

A codec is the two directions of one format: how a value is written, how it is read back, and
whether its lengths fit the four bytes they are written in. Formats of records are put together
from those of their fields.
-/

namespace LinkRegistry.Binary

/-- A binary format of the values of a type. -/
structure Codec (α : Type) where
  /-- The bytes of a value. -/
  write : α → Bytes
  /-- Takes a value off the front of a byte string. -/
  read : Reader α
  /-- Whether every length inside a value can be written. -/
  fits : α → Bool

/-- The number of items that a length field can count. -/
def lengthBound : Nat := Nat.pow 2 32

/-- A length as it is written. -/
def writeLength (length : Nat) : Bytes := Bytes.littleEndian 4 length

def readLength : Reader Nat := Reader.number 4

namespace Codec

variable {α β : Type}

/-- Reads a whole byte string as one value. -/
def decode (codec : Codec α) (bytes : Bytes) : Except Error α :=
  match codec.read bytes with
  | .error error => .error error
  | .ok (value, rest) => if rest.isEmpty then .ok value else .error .trailingBytes

/-- The bytes of a value, if its lengths can be written. -/
def encode? (codec : Codec α) (value : α) : Option Bytes :=
  if codec.fits value then some (codec.write value) else none

/-- Numbers of 32 bits. -/
def word32 : Codec UInt32 where
  write value := Bytes.littleEndian 4 value.toNat
  read := (Reader.number 4).map UInt32.ofNat
  fits _ := true

/-- Numbers of 64 bits. -/
def word64 : Codec UInt64 where
  write value := Bytes.littleEndian 8 value.toNat
  read := (Reader.number 8).map UInt64.ofNat
  fits _ := true

/-- Byte strings. -/
def bytes : Codec Bytes where
  write value := writeLength value.length ++ value
  read := readLength.andThen Reader.bytes
  fits value := value.length < lengthBound

/-- Takes a text of so many bytes. -/
def readText (length : Nat) : Reader String :=
  (Reader.bytes length).andThen fun content =>
    match Utf8.decode content with
    | .ok text => Reader.pure text
    | .error error => Reader.fail (.badText error)

/-- Texts, in UTF-8. -/
def text : Codec String where
  write value :=
    let content := Utf8.encode value
    writeLength content.length ++ content
  read := readLength.andThen readText
  fits value := (Utf8.encode value).length < lengthBound

/-- Lists of values, one after another. -/
def list (codec : Codec α) : Codec (List α) where
  write values := writeLength values.length ++ values.flatMap codec.write
  read := readLength.andThen (Reader.list codec.read)
  fits values := values.length < lengthBound && values.all codec.fits

/-- A value that may be absent, behind a byte that tells. -/
def option (codec : Codec α) : Codec (Option α) where
  write
    | none => [0]
    | some value => 1 :: codec.write value
  read := Reader.byte.andThen fun flag =>
    if flag = 0 then Reader.pure none
    else if flag = 1 then codec.read.map some
    else Reader.fail (.badOption flag)
  fits
    | none => true
    | some value => codec.fits value

/-- Two values, one after the other. -/
def pair (first : Codec α) (second : Codec β) : Codec (α × β) where
  write value := first.write value.1 ++ second.write value.2
  read := first.read.andThen fun left => second.read.map fun right => (left, right)
  fits value := first.fits value.1 && second.fits value.2

/-- The same format for another presentation of its values. -/
def via (codec : Codec α) (wrap : α → β) (unwrap : β → α) : Codec β where
  write value := codec.write (unwrap value)
  read := codec.read.map wrap
  fits value := codec.fits (unwrap value)

/-- A choice between two formats, behind a tag byte. -/
def either (first : Codec α) (second : Codec β) : Codec (α ⊕ β) where
  write
    | .inl value => 0 :: first.write value
    | .inr value => 1 :: second.write value
  read := Reader.byte.andThen fun tag =>
    if tag = 0 then first.read.map .inl
    else if tag = 1 then second.read.map .inr
    else Reader.fail (.badTag tag)
  fits
    | .inl value => first.fits value
    | .inr value => second.fits value

end Codec

end LinkRegistry.Binary
