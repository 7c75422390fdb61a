import LinkRegistry.Hash.Sha2

/-!
# Signatures on two curves

Arithmetic modulo a prime, and the two ways of signing that are built on it: Ed25519 on a twisted
Edwards curve, and ECDSA on secp256k1.
-/

/-! ## Arithmetic modulo a prime

Powers by repeated squaring, and inverses as powers. -/

namespace LinkRegistry.Modular

/-- `accumulator * base ^ exponent` modulo `modulus`, for an exponent below `2 ^ bits`. -/
def powWithin (modulus : Nat) : Nat → Nat → Nat → Nat → Nat
  | 0, _, _, accumulator => accumulator
  | bits + 1, base, exponent, accumulator =>
    if exponent = 0 then accumulator
    else
      powWithin modulus bits (base * base % modulus) (exponent / 2)
        (if exponent % 2 = 1 then accumulator * base % modulus else accumulator)

/-- A power modulo `modulus`. -/
def pow (modulus base exponent : Nat) : Nat :=
  powWithin modulus (exponent.log2 + 1) (base % modulus) exponent (1 % modulus)

/-- The inverse of a number modulo a prime, and zero for zero. -/
def inverse (prime number : Nat) : Nat := pow prime number (prime - 2)

/-- The difference of two numbers modulo `modulus`; the second is below it. -/
def sub (modulus left right : Nat) : Nat := (left + (modulus - right)) % modulus

end LinkRegistry.Modular

/-! ## Ed25519

Signatures on the twisted Edwards curve `-x² + y² = 1 + d x² y²`. A key is any encoding of a point,
also of one of small order, and a signature is right when the encoding of `s B - k A` is its first
half, byte for byte. -/

namespace LinkRegistry.Ed25519

def fieldOrder : Nat := Nat.pow 2 255 - 19

/-- The order of the base point, a prime. -/
def groupOrder : Nat := Nat.pow 2 252 + 27742317777372353535851937790883648493

def mul (left right : Nat) : Nat := left * right % fieldOrder

def sub (left right : Nat) : Nat := Modular.sub fieldOrder left right

/-- The curve constant, `-121665 / 121666`. -/
def d : Nat := 0x52036cee2b6ffe738cc740797779e89800700a4d4141d8ab75eb4dca135978a3

def rootOfMinusOne : Nat := 0x2b8324804fc1df0b2b4d00993dfbd7a72f431806ad2fe478c4ee1b274a0ea0b0

/-- A point as `(x / z, y / z)`, together with `t = x y / z`. -/
structure Point where
  x : Nat
  y : Nat
  z : Nat
  t : Nat

def Point.zero : Point := ⟨0, 1, 1, 0⟩

def Point.ofCoordinates (x y : Nat) : Point := ⟨x, y, 1, mul x y⟩

/-- The base point. -/
def base : Point :=
  .ofCoordinates 0x216936D3CD6E53FEC0A4E231FDD6DC5C692CC7609525A7B2C9562D608F25D51A
    0x6666666666666666666666666666666666666666666666666666666666666658

/-- The sum of two points. -/
def Point.add (left right : Point) : Point :=
  let a := mul (sub left.y left.x) (sub right.y right.x)
  let b := mul (left.y + left.x) (right.y + right.x)
  let c := mul (mul left.t (2 * d)) right.t
  let f := mul (2 * left.z) right.z
  let e := sub b a
  let g := sub f c
  let h := f + c
  let i := b + a
  ⟨mul e g, mul h i, mul g h, mul e i⟩

def Point.neg (point : Point) : Point := ⟨sub 0 point.x, point.y, point.z, sub 0 point.t⟩

/-- A multiple of a point, by the low `bits` bits of the factor from the highest down. -/
def Point.multiple (point : Point) (factor : Nat) : Nat → Point → Point
  | 0, sum => sum
  | bits + 1, sum =>
    let doubled := sum.add sum
    multiple point factor bits (if factor.testBit bits then doubled.add point else doubled)

/-- A multiple of a point by a factor below `2 ^ 256`. -/
def multiply (factor : Nat) (point : Point) : Point := point.multiple factor 256 .zero

/-- The 32 bytes of a point: the ordinate, with the parity of the abscissa in the highest bit. -/
def Point.encode (point : Point) : Bytes :=
  let inverse := Modular.inverse fieldOrder point.z
  let x := mul point.x inverse
  let y := mul point.y inverse
  Bytes.littleEndian 32 (y + x % 2 * Nat.pow 2 255)

/-- A square root of a quotient in the field, if there is one. -/
def rootOfQuotient? (numerator denominator : Nat) : Option Nat :=
  let cube := mul (mul denominator denominator) denominator
  let seventh := mul (mul cube cube) denominator
  let candidate :=
    mul (mul numerator cube)
      (Modular.pow fieldOrder (mul numerator seventh) ((fieldOrder - 5) / 8))
  let check := mul denominator (mul candidate candidate)
  if check = numerator % fieldOrder then some candidate
  else if check = sub 0 (numerator % fieldOrder) then some (mul candidate rootOfMinusOne)
  else none

/-- Reads 32 bytes as a point. The ordinate is reduced, and the sign of a zero abscissa is
ignored. -/
def Point.decode? (bytes : Bytes) : Option Point :=
  if bytes.length ≠ 32 then none
  else
    let number := Bytes.ofLittleEndian bytes
    let y := number % Nat.pow 2 255 % fieldOrder
    let square := mul y y
    match rootOfQuotient? (sub square 1) (mul d square + 1) with
    | none => none
    | some root =>
      let odd := number / Nat.pow 2 255 % 2
      let x := if root % 2 = odd then root else sub 0 root
      some (.ofCoordinates x y)

def digestScalar (message : Bytes) : Nat := Bytes.ofLittleEndian (sha512 message) % groupOrder

/-- Whether 64 bytes are a right signature over a message for a key, given as a point and as the
bytes it was read from. -/
def verify (key : Point) (keyBytes message signature : Bytes) : Bool :=
  let commitment := signature.take 32
  let scalar := Bytes.ofLittleEndian (signature.drop 32)
  if groupOrder ≤ scalar then false
  else
    let challenge := digestScalar (commitment ++ keyBytes ++ message)
    ((multiply scalar base).add (multiply challenge key.neg)).encode = commitment

/-! ### Signing -/

/-- The two halves of a seed's digest: the secret scalar and the secret that nonces derive from. -/
structure Secret where
  scalar : Nat
  nonceKey : Bytes

/-- Expands a seed. The scalar has its three low bits and its highest bit cleared and the second
highest set. -/
def Secret.ofSeed (seed : Bytes) : Secret :=
  let digest := sha512 seed
  let number := Bytes.ofLittleEndian (digest.take 32)
  ⟨number % Nat.pow 2 254 / 8 * 8 + Nat.pow 2 254, digest.drop 32⟩

def Secret.publicKey (secret : Secret) : Bytes := (multiply secret.scalar base).encode

/-- The signature of a message. -/
def Secret.sign (secret : Secret) (message : Bytes) : Bytes :=
  let nonce := digestScalar (secret.nonceKey ++ message)
  let commitment := (multiply nonce base).encode
  let challenge := digestScalar (commitment ++ secret.publicKey ++ message)
  commitment ++ Bytes.littleEndian 32 ((nonce + challenge * secret.scalar) % groupOrder)

end LinkRegistry.Ed25519

/-! ## ECDSA on secp256k1

The curve `y² = x³ + 7` over a prime field, its key encodings, and signatures over SHA-256 digests
with the nonce derived from the key and the digest. A signature holds the smaller of the two
possible values of `s`. -/

namespace LinkRegistry.Secp256k1

def fieldOrder : Nat := 0xFFFFFFFFFFFFFFFFFFFFFFFFFFFFFFFFFFFFFFFFFFFFFFFFFFFFFFFEFFFFFC2F

/-- The number of points, a prime. -/
def groupOrder : Nat := 0xFFFFFFFFFFFFFFFFFFFFFFFFFFFFFFFEBAAEDCE6AF48A03BBFD25E8CD0364141

/-- A point that is not the neutral one. -/
structure Point where
  x : Nat
  y : Nat
  deriving DecidableEq, Repr

/-- The base point. -/
def base : Point where
  x := 0x79BE667EF9DCBBAC55A06295CE870B07029BFCDB2DCE28D959F2815B16F81798
  y := 0x483ADA7726A3C4655DA4FBFC0E1108A8FD17B448A68554199C47D08FFB10D4B8

/-! ### Points with a common denominator

A triple stands for `(x / z², y / z³)`, and for the neutral point when `z` is zero. -/

/-- A point, or the neutral point, without division. -/
structure Weighted where
  x : Nat
  y : Nat
  z : Nat

def Weighted.zero : Weighted := ⟨1, 1, 0⟩

def Weighted.ofPoint (point : Point) : Weighted := ⟨point.x, point.y, 1⟩

def mul (left right : Nat) : Nat := left * right % fieldOrder

def sub (left right : Nat) : Nat := Modular.sub fieldOrder left right

/-- Twice a point. -/
def Weighted.double (point : Weighted) : Weighted :=
  if point.z = 0 || point.y = 0 then .zero
  else
    let square := mul point.y point.y
    let offset := mul 4 (mul point.x square)
    let slope := mul 3 (mul point.x point.x)
    let x := sub (mul slope slope) (mul 2 offset)
    let y := sub (mul slope (sub offset x)) (mul 8 (mul square square))
    ⟨x, y, mul 2 (mul point.y point.z)⟩

/-- The sum of two points. -/
def Weighted.add (left right : Weighted) : Weighted :=
  if left.z = 0 then right
  else if right.z = 0 then left
  else
    let leftSquare := mul left.z left.z
    let rightSquare := mul right.z right.z
    let leftX := mul left.x rightSquare
    let rightX := mul right.x leftSquare
    let leftY := mul left.y (mul rightSquare right.z)
    let rightY := mul right.y (mul leftSquare left.z)
    if leftX = rightX then
      if leftY = rightY then left.double else .zero
    else
      let width := sub rightX leftX
      let height := sub rightY leftY
      let square := mul width width
      let cube := mul square width
      let corner := mul leftX square
      let x := sub (sub (mul height height) cube) (mul 2 corner)
      let y := sub (mul height (sub corner x)) (mul leftY cube)
      ⟨x, y, mul width (mul left.z right.z)⟩

/-- A multiple of a point, by the low `bits` bits of the factor from the highest down. -/
def Weighted.multiple (point : Weighted) (factor : Nat) : Nat → Weighted → Weighted
  | 0, sum => sum
  | bits + 1, sum =>
    let doubled := sum.double
    multiple point factor bits (if factor.testBit bits then doubled.add point else doubled)

/-- The point a triple stands for, or `none` for the neutral point. -/
def Weighted.toPoint? (point : Weighted) : Option Point :=
  if point.z = 0 then none
  else
    let inverse := Modular.inverse fieldOrder point.z
    let square := mul inverse inverse
    some ⟨mul point.x square, mul point.y (mul square inverse)⟩

/-- A multiple of a point by a factor below `2 ^ 256`. -/
def multiply (factor : Nat) (point : Point) : Weighted :=
  (Weighted.ofPoint point).multiple factor 256 .zero

/-! ### Keys -/

/-- What `y²` is at an abscissa. -/
def curveAt (x : Nat) : Nat := (x * x % fieldOrder * x + 7) % fieldOrder

/-- The point with an abscissa and an ordinate of the given parity, if there is one. -/
def lift? (x : Nat) (odd : Bool) : Option Point :=
  if fieldOrder ≤ x then none
  else
    let root := Modular.pow fieldOrder (curveAt x) ((fieldOrder + 1) / 4)
    if mul root root = curveAt x then
      some ⟨x, if (root % 2 = 1) = odd then root else sub 0 root⟩
    else none

/-- The point with two given coordinates, if they are on the curve. -/
def onCurve? (x y : Nat) : Option Point :=
  if x < fieldOrder && y < fieldOrder && mul y y = curveAt x then some ⟨x, y⟩ else none

/-- Reads a key: the abscissa after a tag for the parity of the ordinate (even for the tag 5), or
both coordinates after the tag 4. -/
def parseKey? : Bytes → Option Point
  | [] => none
  | tag :: body =>
    if body.length = 32 then
      let x := Bytes.ofBigEndian body
      if tag = 2 || tag = 5 then lift? x false
      else if tag = 3 then lift? x true
      else none
    else if body.length = 64 && tag = 4 then
      onCurve? (Bytes.ofBigEndian (body.take 32)) (Bytes.ofBigEndian (body.drop 32))
    else none

/-- The 33 bytes of a key: parity tag and abscissa. -/
def Point.compressed (point : Point) : Bytes :=
  (if point.y % 2 = 1 then 3 else 2) :: Bytes.bigEndian 32 point.x

/-- The two coordinates of a key, 32 bytes each. -/
def Point.coordinates (point : Point) : Bytes :=
  Bytes.bigEndian 32 point.x ++ Bytes.bigEndian 32 point.y

/-- The 65 bytes of a key: the tag 4 and both coordinates. -/
def Point.uncompressed (point : Point) : Bytes := 4 :: point.coordinates

/-- The secret scalar of a seed, which must be neither zero nor beyond the group order. -/
def secret? (seed : Bytes) : Option Nat :=
  let scalar := Bytes.ofBigEndian seed
  if seed.length = 32 && 0 < scalar && scalar < groupOrder then some scalar else none

def publicKey? (secret : Nat) : Option Point := (multiply secret base).toPoint?

/-! ### Signatures -/

/-- The two scalars of a signature. -/
structure Signature where
  r : Nat
  s : Nat
  deriving DecidableEq, Repr

/-- Reads 64 bytes as a signature. Both scalars must be in range. -/
def Signature.parse? (bytes : Bytes) : Option Signature :=
  let r := Bytes.ofBigEndian (bytes.take 32)
  let s := Bytes.ofBigEndian (bytes.drop 32)
  if bytes.length = 64 && 0 < r && r < groupOrder && 0 < s && s < groupOrder then some ⟨r, s⟩
  else none

/-- The 64 bytes of a signature. -/
def Signature.bytes (signature : Signature) : Bytes :=
  Bytes.bigEndian 32 signature.r ++ Bytes.bigEndian 32 signature.s

/-- Whether `s` is the larger of the two values that would verify. -/
def Signature.isHigh (signature : Signature) : Bool := groupOrder / 2 < signature.s

def messageScalar (message : Bytes) : Nat := Bytes.ofBigEndian (sha256 message) % groupOrder

/-- Whether a signature over a message is right for a key. -/
def verify (key : Point) (message : Bytes) (signature : Signature) : Bool :=
  if signature.isHigh then false
  else
    let inverse := Modular.inverse groupOrder signature.s
    let first := messageScalar message * inverse % groupOrder
    let second := signature.r * inverse % groupOrder
    match ((multiply first base).add (multiply second key)).toPoint? with
    | none => false
    | some point => point.x % groupOrder = signature.r

/-! ### Deterministic nonces -/

/-- The state of the generator: a key and a block. -/
structure Generator where
  key : Bytes
  block : Bytes

/-- Works data into a generator behind a marker byte. -/
def Generator.stir (generator : Generator) (marker : UInt8) (data : Bytes) : Generator :=
  let key := hmacSha256 generator.key (generator.block ++ marker :: data)
  ⟨key, hmacSha256 key generator.block⟩

/-- A generator seeded with data. -/
def Generator.seed (data : Bytes) : Generator :=
  ((Generator.mk (List.replicate 32 0) (List.replicate 32 1)).stir 0 data).stir 1 data

/-- The first scalar in range that a generator gives, within so many attempts. -/
def Generator.scalar? : Nat → Generator → Option Nat
  | 0, _ => none
  | attempts + 1, generator =>
    let block := hmacSha256 generator.key generator.block
    let candidate := Bytes.ofBigEndian block
    if 0 < candidate && candidate < groupOrder then some candidate
    else scalar? attempts ((Generator.mk generator.key block).stir 0 [])

/-- The signature of a message under a secret scalar. -/
def sign? (secret : Nat) (message : Bytes) : Option Signature := do
  let generator := Generator.seed (Bytes.bigEndian 32 secret ++ sha256 message)
  let nonce ← generator.scalar? 100
  let point ← (multiply nonce base).toPoint?
  let r := point.x % groupOrder
  let s :=
    Modular.inverse groupOrder nonce * (messageScalar message + r * secret) % groupOrder
  if r = 0 || s = 0 then none
  else some ⟨r, if groupOrder / 2 < s then groupOrder - s else s⟩

end LinkRegistry.Secp256k1
