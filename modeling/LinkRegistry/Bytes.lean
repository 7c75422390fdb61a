/-!
# Byte strings

Keys, records, digests and signatures are all lists of bytes. Numbers are read from and written to
them in either byte order, at a fixed width.
-/

namespace LinkRegistry

/-- A string of bytes. The order on byte strings is the lexicographic one. -/
abbrev Bytes := List UInt8

namespace Bytes

/-- The `width` low-order bytes of a number, least significant first. -/
def littleEndian : Nat → Nat → Bytes
  | 0, _ => []
  | width + 1, number => UInt8.ofNat (number % 256) :: littleEndian width (number / 256)

/-- The number whose bytes these are, least significant first. -/
def ofLittleEndian : Bytes → Nat
  | [] => 0
  | byte :: rest => byte.toNat + 256 * ofLittleEndian rest

/-- The `width` low-order bytes of a number, most significant first. -/
def bigEndian (width number : Nat) : Bytes :=
  (littleEndian width number).reverse

/-- The number whose bytes these are, most significant first. -/
def ofBigEndian (bytes : Bytes) : Nat :=
  bytes.foldl (fun number byte => 256 * number + byte.toNat) 0

@[simp] theorem length_littleEndian (width number : Nat) :
    (littleEndian width number).length = width := by
  induction width generalizing number with
  | zero => rfl
  | succ width ih => simp [littleEndian, ih]

@[simp] theorem length_bigEndian (width number : Nat) :
    (bigEndian width number).length = width := by
  simp [bigEndian]

/-- Reading back a number that fits its width gives the number. -/
theorem ofLittleEndian_littleEndian (width number : Nat) (fits : number < Nat.pow 256 width) :
    ofLittleEndian (littleEndian width number) = number := by
  induction width generalizing number with
  | zero => simp at fits; simp [littleEndian, ofLittleEndian, fits]
  | succ width ih =>
    have quotient : number / 256 < Nat.pow 256 width := by
      rw [Nat.div_lt_iff_lt_mul (by decide)]
      simpa [Nat.pow_succ] using fits
    simp only [littleEndian, ofLittleEndian, ih _ quotient, UInt8.toNat_ofNat']
    omega

/-- The bytes of a number read from bytes are those bytes. -/
theorem littleEndian_ofLittleEndian (bytes : Bytes) :
    littleEndian bytes.length (ofLittleEndian bytes) = bytes := by
  induction bytes with
  | nil => rfl
  | cons byte rest ih =>
    have low := byte.toNat_lt
    have digit : (byte.toNat + 256 * ofLittleEndian rest) % 256 = byte.toNat := by omega
    have tail : (byte.toNat + 256 * ofLittleEndian rest) / 256 = ofLittleEndian rest := by omega
    simp only [List.length_cons, littleEndian, ofLittleEndian, digit, tail, ih]
    simp

/-- A number of `n` bytes is below `256 ^ n`. -/
theorem ofLittleEndian_lt (bytes : Bytes) : ofLittleEndian bytes < Nat.pow 256 bytes.length := by
  induction bytes with
  | nil => simp [ofLittleEndian]
  | cons byte rest ih =>
    have low := byte.toNat_lt
    have power : Nat.pow 256 (rest.length + 1) = Nat.pow 256 rest.length * 256 := rfl
    simp only [ofLittleEndian, List.length_cons, power]
    omega

end Bytes

end LinkRegistry
