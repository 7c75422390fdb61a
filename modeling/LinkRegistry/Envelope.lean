import LinkRegistry.BitSelector

/-!
# Signature envelopes

A signature with the kind of document it was made over, or the signatures of selected members of a
threshold key.
-/

namespace LinkRegistry

/-- How a signed plaintext was wrapped. -/
inductive ValueType
  /-- Plain bytes, signed as they are. -/
  | raw
  /-- A canonical binary sign-document. -/
  | direct
  /-- A legacy JSON sign-document. -/
  | legacyJson
  deriving DecidableEq, Repr

namespace ValueType

/-- The name of a value type in messages. -/
def name : ValueType → String
  | .raw => "Raw"
  | .direct => "ChainDirect"
  | .legacyJson => "ChainLegacyJson"

/-- The tag of a value type. -/
def tag : ValueType → UInt8
  | .raw => 0
  | .direct => 1
  | .legacyJson => 2

def codec : Binary.Codec ValueType where
  write valueType := [valueType.tag]
  read := Binary.Reader.byte.andThen fun tag =>
    if tag = 0 then Binary.Reader.pure .raw
    else if tag = 1 then Binary.Reader.pure .direct
    else if tag = 2 then Binary.Reader.pure .legacyJson
    else Binary.Reader.fail (.unknownVariant "value type" tag)
  fits _ := true

end ValueType

/-- A signature, or the signatures of the members that a selector names. -/
inductive Envelope
  | single (valueType : ValueType) (signature : Bytes)
  | multi (selector : BitSelector) (parts : List Envelope)

namespace Envelope

mutual

/-- The envelope with another value type on every signature in it. -/
def retag (valueType : ValueType) : Envelope → Envelope
  | .single _ signature => .single valueType signature
  | .multi selector parts => .multi selector (retagAll valueType parts)

/-- A list of envelopes with another value type on every signature. -/
def retagAll (valueType : ValueType) : List Envelope → List Envelope
  | [] => []
  | part :: rest => retag valueType part :: retagAll valueType rest

end

/-! ## Binary format -/

mutual

/-- The bytes of an envelope's record. -/
def write : Envelope → Bytes
  | .single valueType signature => 0 :: valueType.tag :: Binary.Codec.bytes.write signature
  | .multi selector parts =>
    1 :: BitSelector.codec.write selector ++ Binary.writeLength parts.length ++ writeAll parts

/-- The bytes of the records of a list of envelopes. -/
def writeAll : List Envelope → Bytes
  | [] => []
  | part :: rest => write part ++ writeAll rest

end

mutual

/-- Whether every length inside an envelope can be written. -/
def fits : Envelope → Bool
  | .single _ signature => signature.length < Binary.lengthBound
  | .multi selector parts =>
    BitSelector.codec.fits selector && parts.length < Binary.lengthBound && fitsAll parts

/-- Whether every length inside a list of envelopes can be written. -/
def fitsAll : List Envelope → Bool
  | [] => true
  | part :: rest => fits part && fitsAll rest

end

/-- Takes an envelope nested less than `depth` deep. -/
def readWithin : Nat → Binary.Reader Envelope
  | 0 => Binary.Reader.fail .endOfInput
  | depth + 1 => Binary.Reader.byte.andThen fun tag =>
    if tag = 0 then
      (ValueType.codec.pair Binary.Codec.bytes).read.map fun (valueType, signature) =>
        .single valueType signature
    else if tag = 1 then
      BitSelector.codec.read.andThen fun selector =>
        Binary.readLength.andThen fun count =>
          (Binary.Reader.list (readWithin depth) count).map (.multi selector)
    else Binary.Reader.fail (.unknownVariant "signature" tag)

/-- Takes an envelope. Every level of nesting takes a byte, so the input's length bounds the
depth. -/
def read : Binary.Reader Envelope := fun bytes => readWithin bytes.length bytes

def codec : Binary.Codec Envelope where
  write := write
  read := read
  fits := fits

end Envelope

end LinkRegistry
