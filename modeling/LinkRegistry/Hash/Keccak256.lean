import LinkRegistry.Bytes

/-!
# Keccak-256

The sponge with a rate of 136 bytes and the padding byte `01`. The state is 25 lanes of 64
bits; lane `(x, y)` stands at index `x + 5 * y`.
-/

namespace LinkRegistry.Keccak256

/-- The 25 lanes in index order. -/
abbrev State := List UInt64

def lane (state : State) (index : Nat) : UInt64 := state.getD index 0

/-- A lane turned left. -/
def rotateLeft (word : UInt64) (amount : Nat) : UInt64 :=
  if amount = 0 then word
  else word <<< UInt64.ofNat amount ||| word >>> UInt64.ofNat (64 - amount)

/-- The rotation of each lane. -/
def turns : List Nat :=
  [0, 1, 62, 28, 27, 36, 44, 6, 55, 20, 3, 10, 43,
   25, 39, 41, 45, 15, 21, 8, 18, 2, 61, 56, 14]

/-- The constant that each round adds to the first lane. -/
def roundConstants : List UInt64 :=
  [0x0000000000000001, 0x0000000000008082, 0x800000000000808a, 0x8000000080008000,
   0x000000000000808b, 0x0000000080000001, 0x8000000080008081, 0x8000000000008009,
   0x000000000000008a, 0x0000000000000088, 0x0000000080008009, 0x000000008000000a,
   0x000000008000808b, 0x800000000000008b, 0x8000000000008089, 0x8000000000008003,
   0x8000000000008002, 0x8000000000000080, 0x000000000000800a, 0x800000008000000a,
   0x8000000080008081, 0x8000000000008080, 0x0000000080000001, 0x8000000080008008]

/-- Adds to each lane the parities of two neighbouring columns. -/
def theta (state : State) : State :=
  let columns := (List.range 5).map fun x =>
    lane state x ^^^ lane state (x + 5) ^^^ lane state (x + 10) ^^^ lane state (x + 15) ^^^
      lane state (x + 20)
  let parities := (List.range 5).map fun x =>
    columns.getD ((x + 4) % 5) 0 ^^^ rotateLeft (columns.getD ((x + 1) % 5) 0) 1
  (List.range 25).map fun index => lane state index ^^^ parities.getD (index % 5) 0

/-- Turns every lane and moves it: lane `(x, y)` comes from `(x + 3y, x)`. -/
def rhoPi (state : State) : State :=
  let turned := List.zipWith rotateLeft state turns
  (List.range 25).map fun index =>
    let x := index % 5
    let y := index / 5
    lane turned ((x + 3 * y) % 5 + 5 * x)

/-- Combines each lane with the next two of its row. -/
def chi (state : State) : State :=
  (List.range 25).map fun index =>
    let row := index / 5 * 5
    lane state index ^^^
      (~~~lane state (row + (index + 1) % 5) &&& lane state (row + (index + 2) % 5))

/-- Adds a round constant to the first lane. -/
def iota (constant : UInt64) : State → State
  | [] => []
  | first :: rest => (first ^^^ constant) :: rest

/-- The permutation of 24 rounds. -/
def permute (state : State) : State :=
  roundConstants.foldl (fun state constant => iota constant (chi (rhoPi (theta state)))) state

/-- Bytes taken in between two permutations. -/
def rate : Nat := 136

/-- Cuts a byte string into little-endian lanes. -/
def lanesOf : Nat → Bytes → State
  | 0, _ => []
  | count + 1, bytes =>
    UInt64.ofNat (Bytes.ofLittleEndian (bytes.take 8)) :: lanesOf count (bytes.drop 8)

/-- Takes so many blocks into the state. -/
def absorb : Nat → State → Bytes → State
  | 0, state, _ => state
  | count + 1, state, bytes =>
    let block := lanesOf 17 (bytes.take rate) ++ List.replicate 8 0
    absorb count (permute (List.zipWith (· ^^^ ·) state block)) (bytes.drop rate)

/-- The message with the padding bits, filling whole blocks. -/
def pad (message : Bytes) : Bytes :=
  let room := rate - message.length % rate
  if room = 1 then message ++ [0x81]
  else message ++ 0x01 :: List.replicate (room - 2) 0 ++ [0x80]

end LinkRegistry.Keccak256

namespace LinkRegistry

/-- The Keccak-256 digest, 32 bytes. -/
def keccak256 (message : Bytes) : Bytes :=
  let padded := Keccak256.pad message
  let state :=
    Keccak256.absorb (padded.length / Keccak256.rate) (List.replicate 25 0) padded
  (state.take 4).flatMap fun word => Bytes.littleEndian 8 word.toNat

end LinkRegistry
