import Mathlib.Data.Nat.Bitwise
import LinkRegistry.Encoding.Bech32

/-!
# Bits in other groups

Cutting bits into digits loses nothing but where they end: the bits of the digits are the bits that
were cut, and zeros up to a whole digit. Bytes cut into digits of five bits leave fewer than five
such zeros, so the bytes can be told from the digits. Main statement,
`Bech32.bytesOfDigits_digitsOfBytes`.
-/

namespace LinkRegistry

namespace Bits

/-! ## Numbers of a fixed width -/

@[simp]
theorem length_ofNat (width number : Nat) : (ofNat width number).length = width := by
  induction width with
  | zero => rfl
  | succ width ih => rw [ofNat, List.length_cons, ih]

theorem ofNat_congr {width left right : Nat}
    (same : ∀ place < width, left.testBit place = right.testBit place) :
    ofNat width left = ofNat width right := by
  induction width with
  | zero => rfl
  | succ width ih =>
    have low := ih fun place below => same place (by omega)
    rw [ofNat, ofNat, same width (by omega), low]

private theorem foldl_bits (start : Nat) (bits : List Bool) :
    bits.foldl (fun number bit => 2 * number + bit.toNat) start
      = 2 ^ bits.length * start + toNat bits := by
  induction bits generalizing start with
  | nil => simp [toNat]
  | cons bit rest ih =>
    simp only [toNat, List.foldl_cons, List.length_cons]
    rw [ih, ih (2 * 0 + bit.toNat), pow_succ, Nat.mul_add, Nat.mul_assoc, Nat.add_assoc]
    simp

theorem toNat_cons (bit : Bool) (bits : List Bool) :
    toNat (bit :: bits) = 2 ^ bits.length * bit.toNat + toNat bits := by
  rw [toNat, List.foldl_cons, foldl_bits]
  simp

theorem toNat_lt (bits : List Bool) : toNat bits < 2 ^ bits.length := by
  induction bits with
  | nil => simp [toNat]
  | cons bit rest ih =>
    rw [toNat_cons, List.length_cons, pow_succ]
    cases bit <;> simp <;> omega

theorem toNat_ofNat (width number : Nat) : toNat (ofNat width number) = number % 2 ^ width := by
  induction width with
  | zero => simp [ofNat, toNat, Nat.mod_one]
  | succ width ih =>
    rw [ofNat, toNat_cons, length_ofNat, ih, Nat.toNat_testBit, pow_succ, Nat.mod_mul,
      Nat.add_comm]

theorem ofNat_toNat (bits : List Bool) : ofNat bits.length (toNat bits) = bits := by
  induction bits with
  | nil => rfl
  | cons bit rest ih =>
    have place (index : Nat) := Nat.testBit_two_pow_mul_add bit.toNat (toNat_lt rest) index
    rw [List.length_cons, ofNat, toNat_cons, place]
    congr 1
    · cases bit <;> simp
    · -- The first bit lies above all those that are read after it.
      conv_rhs => rw [← ih]
      apply ofNat_congr
      intro index below
      rw [place, if_pos below]

/-! ## Digits -/

@[simp]
theorem length_ofDigits (width : Nat) (digits : List Nat) :
    (ofDigits width digits).length = width * digits.length := by
  induction digits with
  | nil => rfl
  | cons digit rest ih =>
    rw [ofDigits, List.flatMap_cons, List.length_append, length_ofNat, ← ofDigits, ih,
      List.length_cons, Nat.mul_succ]
    omega

theorem toNat_ofDigits_cons {width digit : Nat} (small : digit < 2 ^ width) (digits : List Nat) :
    toNat (ofDigits width (digit :: digits))
      = 2 ^ (width * digits.length) * digit + toNat (ofDigits width digits) := by
  have first := toNat_ofNat width digit
  rw [Nat.mod_eq_of_lt small, toNat] at first
  rw [ofDigits, List.flatMap_cons, ← ofDigits, toNat, List.foldl_append, foldl_bits, first,
    length_ofDigits]

@[simp]
theorem length_groups (width count : Nat) (bits : List Bool) :
    (groups width count bits).length = count := by
  induction count generalizing bits with
  | zero => rfl
  | succ count ih => rw [groups, List.length_cons, ih]

/-- The next group, filled up with zeros. -/
private theorem length_filled (width : Nat) (bits : List Bool) :
    (bits.take width ++ List.replicate (width - (bits.take width).length) false).length
      = width := by
  simp only [List.length_append, List.length_replicate, List.length_take]
  omega

theorem lt_of_mem_groups {width count digit : Nat} {bits : List Bool}
    (member : digit ∈ groups width count bits) : digit < 2 ^ width := by
  induction count generalizing bits with
  | zero => cases member
  | succ count ih =>
    rcases List.mem_cons.1 member with rfl | later
    · have small := toNat_lt
        (bits.take width ++ List.replicate (width - (bits.take width).length) false)
      rwa [length_filled] at small
    · exact ih later

/-- The bits of the groups are the bits that were cut, and zeros behind them. -/
theorem ofDigits_groups {width count : Nat} {bits : List Bool}
    (enough : bits.length ≤ width * count) :
    ofDigits width (groups width count bits)
      = bits ++ List.replicate (width * count - bits.length) false := by
  induction count generalizing bits with
  | zero =>
    obtain rfl := List.eq_nil_of_length_eq_zero (Nat.le_zero.1 enough)
    rfl
  | succ count ih =>
    rw [Nat.mul_succ] at enough
    have fewer : (bits.drop width).length ≤ width * count := by
      rw [List.length_drop]
      omega
    have first := ofNat_toNat
      (bits.take width ++ List.replicate (width - (bits.take width).length) false)
    rw [length_filled] at first
    rw [groups, ofDigits, List.flatMap_cons, first, ← ofDigits, ih fewer, List.length_drop,
      Nat.mul_succ]
    -- Either this group holds the last bits and is filled up, or it is whole.
    by_cases short : bits.length ≤ width
    · rw [List.take_of_length_le short, List.drop_of_length_le short, List.nil_append,
        List.append_assoc, List.replicate_append_replicate]
      congr 2
      omega
    · have whole : width - (bits.take width).length = 0 := by
        rw [List.length_take]
        omega
      rw [whole, List.replicate_zero, List.append_nil, ← List.append_assoc,
        List.take_append_drop]
      congr 2
      omega

/-- Digits are found again in their bits, whatever stands behind them. -/
theorem groups_ofDigits {width : Nat} {digits : List Nat}
    (small : ∀ digit ∈ digits, digit < 2 ^ width) (rest : List Bool) :
    groups width digits.length (ofDigits width digits ++ rest) = digits := by
  induction digits with
  | nil => rfl
  | cons digit others ih =>
    obtain ⟨first, later⟩ := List.forall_mem_cons.1 small
    -- The first group is the first digit as it stands, and has nothing to fill up.
    have taken : ofDigits width (digit :: others) ++ rest
        = ofNat width digit ++ (ofDigits width others ++ rest) := by
      rw [ofDigits, List.flatMap_cons, ← ofDigits, List.append_assoc]
    rw [taken, List.length_cons, groups, List.take_left' (length_ofNat width digit),
      List.drop_left' (length_ofNat width digit), ih later, length_ofNat, Nat.sub_self,
      List.replicate_zero, List.append_nil, toNat_ofNat, Nat.mod_eq_of_lt first]

end Bits

/-! ## Bytes and digits of five bits -/

namespace Bech32

theorem length_digitsOfBytes (bytes : Bytes) :
    (digitsOfBytes bytes).length = (8 * bytes.length + 4) / 5 := by
  simp [digitsOfBytes]

/-- There are as many digits as are needed, so zeros only fill up the last of them. -/
theorem ofDigits_digitsOfBytes (bytes : Bytes) :
    Bits.ofDigits 5 (digitsOfBytes bytes)
      = Bits.ofDigits 8 (bytes.map UInt8.toNat)
        ++ List.replicate (5 * (digitsOfBytes bytes).length - 8 * bytes.length) false := by
  have length : (Bits.ofDigits 8 (bytes.map UInt8.toNat)).length = 8 * bytes.length := by simp
  have enough : (Bits.ofDigits 8 (bytes.map UInt8.toNat)).length
      ≤ 5 * ((8 * bytes.length + 4) / 5) := by omega
  have bits := Bits.ofDigits_groups enough
  rw [length] at bits
  rw [length_digitsOfBytes]
  exact bits

/-- Digits that begin with the bits of bytes are read as those bytes, if less than a digit of zeros
is left. -/
theorem bytesOfDigits_eq_ok {digits : List Nat} {bytes : Bytes} {left : Nat}
    (bits : Bits.ofDigits 5 digits
      = Bits.ofDigits 8 (bytes.map UInt8.toNat) ++ List.replicate left false)
    (few : left < 5) : bytesOfDigits digits = .ok bytes := by
  have small : ∀ digit ∈ bytes.map UInt8.toNat, digit < 2 ^ 8 := by
    intro digit member
    obtain ⟨byte, -, rfl⟩ := List.mem_map.1 member
    exact byte.toNat_lt
  have length : (Bits.ofDigits 8 (bytes.map UInt8.toNat)).length = 8 * bytes.length := by simp
  -- What is left is too short for a byte, so the whole bytes among the bits are all of them.
  have whole := congrArg List.length bits
  rw [List.length_append, List.length_replicate, length, Bits.length_ofDigits] at whole
  have count : 5 * digits.length / 8 = bytes.length := by omega
  have again := Bits.groups_ofDigits small (List.replicate left false)
  rw [List.length_map] at again
  have fine : ¬ (decide (5 ≤ left) || (List.replicate left false).any id) = true := by
    simpa using few
  simp only [bytesOfDigits, count, bits, List.drop_left' length, List.length_replicate,
    if_neg fine, again, List.map_map]
  exact congrArg Except.ok (List.map_id'' (fun byte => UInt8.ofNat_toNat) bytes)

theorem bytesOfDigits_digitsOfBytes (bytes : Bytes) :
    bytesOfDigits (digitsOfBytes bytes) = .ok bytes := by
  have length := length_digitsOfBytes bytes
  exact bytesOfDigits_eq_ok (ofDigits_digitsOfBytes bytes) (by omega)

end Bech32

end LinkRegistry
