import LinkRegistry.Binary.Codec

/-!
# Foreign addresses

The textual address of an account on a foreign chain, in one of three encodings.
-/

namespace LinkRegistry

/-- An address with what its encoding says about it. -/
inductive Address
  /-- Bech32 text with the human-readable part it must have. -/
  | bech32 (value label : String)
  | base58 (value : String)
  /-- Hexadecimal text behind a literal lead, usually `0x`. -/
  | hex (value lead : String)
  deriving DecidableEq, Repr

namespace Address

/-- The address as text, as store keys hold it. -/
def value : Address → String
  | .bech32 value _ | .base58 value | .hex value _ => value

/-- The name of the encoding. -/
def encoding : Address → String
  | .bech32 _ _ => "bech32"
  | .base58 _ => "base58"
  | .hex _ _ => "hex"

def codec : Binary.Codec Address where
  write
    | .bech32 value label => 0 :: Binary.Codec.text.write value ++ Binary.Codec.text.write label
    | .base58 value => 1 :: Binary.Codec.text.write value
    | .hex value lead => 2 :: Binary.Codec.text.write value ++ Binary.Codec.text.write lead
  read := Binary.Reader.byte.andThen fun tag =>
    if tag = 0 then
      (Binary.Codec.text.pair Binary.Codec.text).read.map fun (value, label) => .bech32 value label
    else if tag = 1 then Binary.Codec.text.read.map .base58
    else if tag = 2 then
      (Binary.Codec.text.pair Binary.Codec.text).read.map fun (value, lead) => .hex value lead
    else Binary.Reader.fail (.unknownVariant "address" tag)
  fits
    | .bech32 value other | .hex value other =>
      Binary.Codec.text.fits value && Binary.Codec.text.fits other
    | .base58 value => Binary.Codec.text.fits value

end Address

end LinkRegistry
