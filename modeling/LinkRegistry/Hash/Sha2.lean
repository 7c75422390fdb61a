import LinkRegistry.Bytes

/-!
# SHA-2

The compression function and the padding are the same for both word sizes; a `Variant` carries what
differs. SHA-256 works on words of 32 bits, SHA-512 on words of 64. A keyed digest is made of two
of SHA-256.
-/

namespace LinkRegistry.Sha2

/-- The word arithmetic, rotation amounts and constants of one member of the family. -/
structure Variant (Word : Type) where
  /-- Bytes in a word. -/
  width : Nat
  ofNat : Nat → Word
  toNat : Word → Nat
  add : Word → Word → Word
  and : Word → Word → Word
  xor : Word → Word → Word
  complement : Word → Word
  shiftRight : Word → Nat → Word
  rotateRight : Word → Nat → Word
  /-- The rotations of the state mixers for the first and the fifth variable. -/
  mixFirst : Nat × Nat × Nat
  mixFifth : Nat × Nat × Nat
  /-- Two rotations and a shift each, for the recent and the early word of the schedule. -/
  mixEarly : Nat × Nat × Nat
  mixRecent : Nat × Nat × Nat
  initial : List Word
  constants : List Word

variable {Word : Type}

/-- The working variables of the compression function. -/
structure State (Word : Type) where
  a : Word
  b : Word
  c : Word
  d : Word
  e : Word
  f : Word
  g : Word
  h : Word

/-- The variables in order. -/
def State.words (state : State Word) : List Word :=
  [state.a, state.b, state.c, state.d, state.e, state.f, state.g, state.h]

/-- Three rotations of a word, combined. -/
def Variant.rotations (variant : Variant Word) (amounts : Nat × Nat × Nat) (word : Word) : Word :=
  variant.xor (variant.xor (variant.rotateRight word amounts.1) (variant.rotateRight word amounts.2.1))
    (variant.rotateRight word amounts.2.2)

/-- Two rotations and a shift of a word, combined. -/
def Variant.smear (variant : Variant Word) (amounts : Nat × Nat × Nat) (word : Word) : Word :=
  variant.xor (variant.xor (variant.rotateRight word amounts.1) (variant.rotateRight word amounts.2.1))
    (variant.shiftRight word amounts.2.2)

/-- Takes each bit from the second word where the first has a one, else from the third. -/
def Variant.choose (variant : Variant Word) (x y z : Word) : Word :=
  variant.xor (variant.and x y) (variant.and (variant.complement x) z)

/-- The bit that at least two of three words have, bit by bit. -/
def Variant.majority (variant : Variant Word) (x y z : Word) : Word :=
  variant.xor (variant.xor (variant.and x y) (variant.and x z)) (variant.and y z)

/-- One round over a constant and a word of the schedule. -/
def Variant.round (variant : Variant Word) (state : State Word) (input : Word × Word) :
    State Word :=
  let first :=
    variant.add
      (variant.add (variant.add state.h (variant.rotations variant.mixFifth state.e))
        (variant.choose state.e state.f state.g))
      (variant.add input.1 input.2)
  let second :=
    variant.add (variant.rotations variant.mixFirst state.a)
      (variant.majority state.a state.b state.c)
  ⟨variant.add first second, state.a, state.b, state.c, variant.add state.d first, state.e, state.f,
    state.g⟩

/-- Adds so many words to a schedule given latest word first. Each new word depends on four of the
last sixteen. -/
def Variant.extend (variant : Variant Word) : Nat → List Word → List Word
  | 0, words => words
  | count + 1, words =>
    match words with
    | _ :: recent :: _ :: _ :: _ :: _ :: seventh :: _ :: _ :: _ :: _ :: _ :: _ :: _ :: early ::
        sixteenth :: _ =>
      let next :=
        variant.add
          (variant.add (variant.smear variant.mixRecent recent) seventh)
          (variant.add (variant.smear variant.mixEarly early) sixteenth)
      variant.extend count (next :: words)
    | _ => words

/-- Cuts a byte string into words. -/
def Variant.wordsOf (variant : Variant Word) : Nat → Bytes → List Word
  | 0, _ => []
  | count + 1, bytes =>
    variant.ofNat (Bytes.ofBigEndian (bytes.take variant.width)) ::
      variant.wordsOf count (bytes.drop variant.width)

/-- Works one block of sixteen words into the chaining words. -/
def Variant.compress (variant : Variant Word) (chaining : List Word) (block : Bytes) : List Word :=
  match chaining with
  | [a, b, c, d, e, f, g, h] =>
    let schedule :=
      (variant.extend (variant.constants.length - 16) (variant.wordsOf 16 block).reverse).reverse
    let final := (variant.constants.zip schedule).foldl variant.round ⟨a, b, c, d, e, f, g, h⟩
    List.zipWith variant.add chaining final.words
  | _ => chaining

/-- The message with a one bit, zeros and its length in bits, filling whole blocks. -/
def Variant.pad (variant : Variant Word) (message : Bytes) : Bytes :=
  let block := 16 * variant.width
  let field := 2 * variant.width
  let zeros := (block - (message.length + 1 + field) % block) % block
  message ++ 0x80 :: List.replicate zeros 0 ++ Bytes.bigEndian field (8 * message.length)

/-- Works so many blocks into the chaining words. -/
def Variant.absorb (variant : Variant Word) : Nat → List Word → Bytes → List Word
  | 0, chaining, _ => chaining
  | count + 1, chaining, bytes =>
    let block := 16 * variant.width
    variant.absorb count (variant.compress chaining (bytes.take block)) (bytes.drop block)

/-- The digest of a message. -/
def Variant.digest (variant : Variant Word) (message : Bytes) : Bytes :=
  let padded := variant.pad message
  let chaining := variant.absorb (padded.length / (16 * variant.width)) variant.initial padded
  chaining.flatMap fun word => Bytes.bigEndian variant.width (variant.toNat word)

end LinkRegistry.Sha2

namespace LinkRegistry

/-- SHA-2 on words of 32 bits. -/
def sha256Variant : Sha2.Variant UInt32 where
  width := 4
  ofNat := UInt32.ofNat
  toNat := UInt32.toNat
  add := (· + ·)
  and := (· &&& ·)
  xor := (· ^^^ ·)
  complement := (~~~ ·)
  shiftRight word amount := word >>> UInt32.ofNat amount
  rotateRight word amount :=
    word >>> UInt32.ofNat amount ||| word <<< UInt32.ofNat (32 - amount)
  mixFirst := (2, 13, 22)
  mixFifth := (6, 11, 25)
  mixEarly := (7, 18, 3)
  mixRecent := (17, 19, 10)
  initial :=
    [0x6a09e667, 0xbb67ae85, 0x3c6ef372, 0xa54ff53a, 0x510e527f, 0x9b05688c, 0x1f83d9ab,
     0x5be0cd19]
  constants :=
    [0x428a2f98, 0x71374491, 0xb5c0fbcf, 0xe9b5dba5, 0x3956c25b, 0x59f111f1, 0x923f82a4,
     0xab1c5ed5, 0xd807aa98, 0x12835b01, 0x243185be, 0x550c7dc3, 0x72be5d74, 0x80deb1fe,
     0x9bdc06a7, 0xc19bf174, 0xe49b69c1, 0xefbe4786, 0x0fc19dc6, 0x240ca1cc, 0x2de92c6f,
     0x4a7484aa, 0x5cb0a9dc, 0x76f988da, 0x983e5152, 0xa831c66d, 0xb00327c8, 0xbf597fc7,
     0xc6e00bf3, 0xd5a79147, 0x06ca6351, 0x14292967, 0x27b70a85, 0x2e1b2138, 0x4d2c6dfc,
     0x53380d13, 0x650a7354, 0x766a0abb, 0x81c2c92e, 0x92722c85, 0xa2bfe8a1, 0xa81a664b,
     0xc24b8b70, 0xc76c51a3, 0xd192e819, 0xd6990624, 0xf40e3585, 0x106aa070, 0x19a4c116,
     0x1e376c08, 0x2748774c, 0x34b0bcb5, 0x391c0cb3, 0x4ed8aa4a, 0x5b9cca4f, 0x682e6ff3,
     0x748f82ee, 0x78a5636f, 0x84c87814, 0x8cc70208, 0x90befffa, 0xa4506ceb, 0xbef9a3f7,
     0xc67178f2]

/-- SHA-2 on words of 64 bits. -/
def sha512Variant : Sha2.Variant UInt64 where
  width := 8
  ofNat := UInt64.ofNat
  toNat := UInt64.toNat
  add := (· + ·)
  and := (· &&& ·)
  xor := (· ^^^ ·)
  complement := (~~~ ·)
  shiftRight word amount := word >>> UInt64.ofNat amount
  rotateRight word amount :=
    word >>> UInt64.ofNat amount ||| word <<< UInt64.ofNat (64 - amount)
  mixFirst := (28, 34, 39)
  mixFifth := (14, 18, 41)
  mixEarly := (1, 8, 7)
  mixRecent := (19, 61, 6)
  initial :=
    [0x6a09e667f3bcc908, 0xbb67ae8584caa73b, 0x3c6ef372fe94f82b, 0xa54ff53a5f1d36f1,
     0x510e527fade682d1, 0x9b05688c2b3e6c1f, 0x1f83d9abfb41bd6b, 0x5be0cd19137e2179]
  constants :=
    [0x428a2f98d728ae22, 0x7137449123ef65cd, 0xb5c0fbcfec4d3b2f, 0xe9b5dba58189dbbc,
     0x3956c25bf348b538, 0x59f111f1b605d019, 0x923f82a4af194f9b, 0xab1c5ed5da6d8118,
     0xd807aa98a3030242, 0x12835b0145706fbe, 0x243185be4ee4b28c, 0x550c7dc3d5ffb4e2,
     0x72be5d74f27b896f, 0x80deb1fe3b1696b1, 0x9bdc06a725c71235, 0xc19bf174cf692694,
     0xe49b69c19ef14ad2, 0xefbe4786384f25e3, 0x0fc19dc68b8cd5b5, 0x240ca1cc77ac9c65,
     0x2de92c6f592b0275, 0x4a7484aa6ea6e483, 0x5cb0a9dcbd41fbd4, 0x76f988da831153b5,
     0x983e5152ee66dfab, 0xa831c66d2db43210, 0xb00327c898fb213f, 0xbf597fc7beef0ee4,
     0xc6e00bf33da88fc2, 0xd5a79147930aa725, 0x06ca6351e003826f, 0x142929670a0e6e70,
     0x27b70a8546d22ffc, 0x2e1b21385c26c926, 0x4d2c6dfc5ac42aed, 0x53380d139d95b3df,
     0x650a73548baf63de, 0x766a0abb3c77b2a8, 0x81c2c92e47edaee6, 0x92722c851482353b,
     0xa2bfe8a14cf10364, 0xa81a664bbc423001, 0xc24b8b70d0f89791, 0xc76c51a30654be30,
     0xd192e819d6ef5218, 0xd69906245565a910, 0xf40e35855771202a, 0x106aa07032bbd1b8,
     0x19a4c116b8d2d0c8, 0x1e376c085141ab53, 0x2748774cdf8eeb99, 0x34b0bcb5e19b48a8,
     0x391c0cb3c5c95a63, 0x4ed8aa4ae3418acb, 0x5b9cca4f7763e373, 0x682e6ff3d6b2b8a3,
     0x748f82ee5defb2fc, 0x78a5636f43172f60, 0x84c87814a1f0ab72, 0x8cc702081a6439ec,
     0x90befffa23631e28, 0xa4506cebde82bde9, 0xbef9a3f7b2c67915, 0xc67178f2e372532b,
     0xca273eceea26619c, 0xd186b8c721c0c207, 0xeada7dd6cde0eb1e, 0xf57d4f7fee6ed178,
     0x06f067aa72176fba, 0x0a637dc5a2c898a6, 0x113f9804bef90dae, 0x1b710b35131c471b,
     0x28db77f523047d84, 0x32caab7b40c72493, 0x3c9ebe0a15c9bebc, 0x431d67c49c100d4c,
     0x4cc5d4becb3e42b6, 0x597f299cfc657e2a, 0x5fcb6fab3ad6faec, 0x6c44198c4a475817]

/-- The SHA-256 digest, 32 bytes. -/
def sha256 (message : Bytes) : Bytes := sha256Variant.digest message

/-- The SHA-512 digest, 64 bytes. -/
def sha512 (message : Bytes) : Bytes := sha512Variant.digest message

/-! ## Keyed digests -/

/-- A key of the block length, zero-filled, with every byte changed by a mask. -/
def hmacKey (mask : UInt8) (key : Bytes) : Bytes :=
  let short := if 64 < key.length then sha256 key else key
  (short ++ List.replicate (64 - short.length) 0).map (· ^^^ mask)

/-- The keyed digest HMAC-SHA-256. -/
def hmacSha256 (key message : Bytes) : Bytes :=
  sha256 (hmacKey 0x5c key ++ sha256 (hmacKey 0x36 key ++ message))

end LinkRegistry
