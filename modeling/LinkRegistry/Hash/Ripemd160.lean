import LinkRegistry.Bytes

/-!
# RIPEMD-160

Two lines of five rounds run side by side over each block and are folded together at its end.
-/

namespace LinkRegistry.Ripemd160

/-- The five chaining words. -/
structure State where
  a : UInt32
  b : UInt32
  c : UInt32
  d : UInt32
  e : UInt32

def initial : State := ⟨0x67452301, 0xefcdab89, 0x98badcfe, 0x10325476, 0xc3d2e1f0⟩

/-- The boolean function of a round, counted from zero. -/
def mix (round : Nat) (x y z : UInt32) : UInt32 :=
  match round with
  | 0 => x ^^^ y ^^^ z
  | 1 => (x &&& y) ||| (~~~x &&& z)
  | 2 => (x ||| ~~~y) ^^^ z
  | 3 => (x &&& z) ||| (y &&& ~~~z)
  | _ => x ^^^ (y ||| ~~~z)

/-- A word turned left. -/
def rotateLeft (word : UInt32) (amount : Nat) : UInt32 :=
  word <<< UInt32.ofNat amount ||| word >>> UInt32.ofNat (32 - amount)

/-- The order in which the left line reads the words of a block, round by round. -/
def leftOrder : List (List Nat) :=
  [[0, 1, 2, 3, 4, 5, 6, 7, 8, 9, 10, 11, 12, 13, 14, 15],
   [7, 4, 13, 1, 10, 6, 15, 3, 12, 0, 9, 5, 2, 14, 11, 8],
   [3, 10, 14, 4, 9, 15, 8, 1, 2, 7, 0, 6, 13, 11, 5, 12],
   [1, 9, 11, 10, 0, 8, 12, 4, 13, 3, 7, 15, 14, 5, 6, 2],
   [4, 0, 5, 9, 7, 12, 2, 10, 14, 1, 3, 8, 11, 6, 15, 13]]

/-- The order in which the right line reads the words of a block. -/
def rightOrder : List (List Nat) :=
  [[5, 14, 7, 0, 9, 2, 11, 4, 13, 6, 15, 8, 1, 10, 3, 12],
   [6, 11, 3, 7, 0, 13, 5, 10, 14, 15, 8, 12, 4, 9, 1, 2],
   [15, 5, 1, 3, 7, 14, 6, 9, 11, 8, 12, 2, 10, 0, 4, 13],
   [8, 6, 4, 1, 3, 11, 15, 0, 5, 12, 2, 13, 9, 7, 10, 14],
   [12, 15, 10, 4, 1, 5, 8, 7, 6, 2, 13, 14, 0, 3, 9, 11]]

/-- The rotations of the left line. -/
def leftTurns : List (List Nat) :=
  [[11, 14, 15, 12, 5, 8, 7, 9, 11, 13, 14, 15, 6, 7, 9, 8],
   [7, 6, 8, 13, 11, 9, 7, 15, 7, 12, 15, 9, 11, 7, 13, 12],
   [11, 13, 6, 7, 14, 9, 13, 15, 14, 8, 13, 6, 5, 12, 7, 5],
   [11, 12, 14, 15, 14, 15, 9, 8, 9, 14, 5, 6, 8, 6, 5, 12],
   [9, 15, 5, 11, 6, 8, 13, 12, 5, 12, 13, 14, 11, 8, 5, 6]]

/-- The rotations of the right line. -/
def rightTurns : List (List Nat) :=
  [[8, 9, 9, 11, 13, 15, 15, 5, 7, 7, 8, 11, 14, 14, 12, 6],
   [9, 13, 15, 7, 12, 8, 9, 11, 7, 7, 12, 7, 6, 15, 13, 11],
   [9, 7, 15, 11, 8, 6, 6, 14, 12, 13, 5, 14, 13, 13, 7, 5],
   [15, 5, 8, 11, 14, 14, 6, 14, 6, 9, 12, 9, 12, 5, 15, 8],
   [8, 5, 12, 9, 12, 5, 14, 6, 8, 13, 6, 5, 15, 13, 11, 11]]

/-- The constants that the rounds of the left line add. -/
def leftConstants : List UInt32 := [0, 0x5a827999, 0x6ed9eba1, 0x8f1bbcdc, 0xa953fd4e]

/-- The constants that the rounds of the right line add. -/
def rightConstants : List UInt32 := [0x50a28be6, 0x5c4dd124, 0x6d703ef3, 0x7a6d76e9, 0]

/-- One step: the words turn by one place, and the new one takes in a word of the block. -/
def step (round : Nat) (constant : UInt32) (words : List UInt32) (state : State)
    (input : Nat × Nat) : State :=
  let sum := state.a + mix round state.b state.c state.d + words.getD input.1 0 + constant
  ⟨state.e, rotateLeft sum input.2 + state.e, state.b, rotateLeft state.c 10, state.d⟩

/-- The rounds of one line. `functions` names the boolean function of each. -/
def line (functions : List Nat) (constants : List UInt32) (order turns : List (List Nat))
    (words : List UInt32) (state : State) : State :=
  ((functions.zip constants).zip (order.zip turns)).foldl
    (fun state round =>
      (round.2.1.zip round.2.2).foldl (step round.1.1 round.1.2 words) state)
    state

/-- Cuts a byte string into little-endian words. -/
def wordsOf : Nat → Bytes → List UInt32
  | 0, _ => []
  | count + 1, bytes =>
    UInt32.ofNat (Bytes.ofLittleEndian (bytes.take 4)) :: wordsOf count (bytes.drop 4)

/-- Works one block into the chaining words. -/
def compress (state : State) (block : Bytes) : State :=
  let words := wordsOf 16 block
  let left := line [0, 1, 2, 3, 4] leftConstants leftOrder leftTurns words state
  let right := line [4, 3, 2, 1, 0] rightConstants rightOrder rightTurns words state
  ⟨state.b + left.c + right.d, state.c + left.d + right.e, state.d + left.e + right.a,
    state.e + left.a + right.b, state.a + left.b + right.c⟩

/-- Works so many blocks into the chaining words. -/
def absorb : Nat → State → Bytes → State
  | 0, state, _ => state
  | count + 1, state, bytes => absorb count (compress state (bytes.take 64)) (bytes.drop 64)

/-- The message with a one bit, zeros and its length in bits, filling whole blocks. -/
def pad (message : Bytes) : Bytes :=
  let zeros := (64 - (message.length + 9) % 64) % 64
  message ++ 0x80 :: List.replicate zeros 0 ++ Bytes.littleEndian 8 (8 * message.length)

end LinkRegistry.Ripemd160

namespace LinkRegistry

/-- The RIPEMD-160 digest, 20 bytes. -/
def ripemd160 (message : Bytes) : Bytes :=
  let padded := Ripemd160.pad message
  let state := Ripemd160.absorb (padded.length / 64) Ripemd160.initial padded
  [state.a, state.b, state.c, state.d, state.e].flatMap fun word =>
    Bytes.littleEndian 4 word.toNat

end LinkRegistry
