import LinkRegistry.Binary.Codec

/-!
# Bit selectors

A compact set of positions, which tells whose signatures a threshold signature holds. Position `i`
is bit `7 - i % 8` of byte `i / 8`, so the first position is the highest bit of the first byte.
-/

namespace LinkRegistry

/-- A selection among `bits` positions. The bytes may be too few or too many. -/
structure BitSelector where
  bits : UInt32
  bytes : Bytes
  deriving DecidableEq, Repr

namespace BitSelector

/-- The bytes that so many positions take. -/
def byteCount (bits : UInt32) : Nat := (bits.toNat + 7) / 8

def empty (bits : UInt32) : BitSelector := ⟨bits, List.replicate (byteCount bits) 0⟩

/-- A byte with the bit of a position set. -/
def setBit (byte : UInt8) (position : Nat) : UInt8 :=
  UInt8.ofNat (byte.toNat ||| Nat.pow 2 (7 - position % 8))

/-- Selects a position. One out of range is ignored. -/
def set (selector : BitSelector) (position : Nat) : BitSelector :=
  if position < selector.bits.toNat then
    { selector with bytes := selector.bytes.modify (position / 8) (setBit · position) }
  else selector

/-- Whether a position is selected. Positions out of range are not. -/
def get (selector : BitSelector) (position : Nat) : Bool :=
  position < selector.bits.toNat &&
    match selector.bytes[position / 8]? with
    | some byte => byte.toNat.testBit (7 - position % 8)
    | none => false

/-- The selected positions in ascending order. -/
def indices (selector : BitSelector) : List Nat :=
  (List.range (min selector.bits.toNat (8 * selector.bytes.length))).filter selector.get

def countOnes (selector : BitSelector) : Nat := selector.indices.length

/-- Whether the bytes are just as many as the positions take. -/
def isWellFormed (selector : BitSelector) : Bool :=
  selector.bytes.length = byteCount selector.bits

/-- The selector of a list of positions, those in range. -/
def ofIndices (bits : UInt32) (positions : List Nat) : BitSelector :=
  positions.foldl set (empty bits)

def codec : Binary.Codec BitSelector :=
  (Binary.Codec.word32.pair Binary.Codec.bytes).via (fun (bits, bytes) => ⟨bits, bytes⟩)
    (fun selector => (selector.bits, selector.bytes))

end BitSelector

end LinkRegistry
