import LinkRegistry.Proofs.Encoding.Regrouping

/-!
# The checksum of bech32

A step of the checksum is linear in exclusive or, over the state and the digit together. So six
digits at the end of a text have the effect of six zeros and, added to it, the number that they
stand for. The checksum of a text is that number for the difference between the state behind six
zeros and the constant of the classic form. Main statement, `form?_checksum`.
-/

namespace LinkRegistry.Bech32

/-! ## Steps are linear -/

/-- What one generator adds to the feedback. -/
private def share (high : Nat) (term : Nat × Nat) : Nat :=
  if high.testBit term.2 then term.1 else 0

private theorem share_xor (left right : Nat) (term : Nat × Nat) :
    share (left ^^^ right) term = share left term ^^^ share right term := by
  simp only [share, Nat.testBit_xor]
  cases left.testBit term.2 <;> cases right.testBit term.2 <;> simp

private theorem foldl_share_xor (left right : Nat) (terms : List (Nat × Nat)) (one two : Nat) :
    (terms.map (share (left ^^^ right))).foldl (· ^^^ ·) (one ^^^ two)
      = (terms.map (share left)).foldl (· ^^^ ·) one
        ^^^ (terms.map (share right)).foldl (· ^^^ ·) two := by
  induction terms generalizing one two with
  | nil => rfl
  | cons term rest ih =>
    -- Both starts take their own share of the first generator.
    have swap : one ^^^ two ^^^ (share left term ^^^ share right term)
        = one ^^^ share left term ^^^ (two ^^^ share right term) := by ac_rfl
    simp only [List.map_cons, List.foldl_cons]
    rw [share_xor, swap, ih]

theorem feedback_xor (left right : Nat) :
    feedback (left ^^^ right) = feedback left ^^^ feedback right :=
  foldl_share_xor left right generators.zipIdx 0 0

theorem feedback_lt (high : Nat) : feedback high < 2 ^ 30 := by
  have bounded (terms : List (Nat × Nat)) (small : ∀ term ∈ terms, term.1 < 2 ^ 30) (start : Nat)
      (below : start < 2 ^ 30) :
      (terms.map (share high)).foldl (· ^^^ ·) start < 2 ^ 30 := by
    induction terms generalizing start with
    | nil => exact below
    | cons term rest ih =>
      obtain ⟨first, later⟩ := List.forall_mem_cons.1 small
      refine ih later _ (Nat.xor_lt_two_pow below ?_)
      rw [share]
      split
      · exact first
      · decide
  exact bounded _ (by decide) 0 (by decide)

theorem polymodStep_xor (left right one two : Nat) :
    polymodStep (left ^^^ right) (one ^^^ two)
      = polymodStep left one ^^^ polymodStep right two := by
  -- The state is split at its top five bits and moved up, and neither mixes places.
  have low : (left ^^^ right) % 0x2000000 = left % 0x2000000 ^^^ right % 0x2000000 :=
    Nat.xor_mod_two_pow (n := 25)
  have high : (left ^^^ right) / 0x2000000 = left / 0x2000000 ^^^ right / 0x2000000 :=
    Nat.xor_div_two_pow (n := 25)
  have moved (one two : Nat) : (one ^^^ two) * 32 = one * 32 ^^^ two * 32 := by
    simpa [Nat.shiftLeft_eq] using Nat.shiftLeft_xor_distrib (i := 5) (a := one) (b := two)
  simp only [polymodStep, low, high, moved, feedback_xor]
  ac_rfl

theorem polymodStep_zero_lt (state : Nat) : polymodStep state 0 < 2 ^ 30 := by
  have moved : state % 0x2000000 * 32 < 2 ^ 30 := by omega
  exact Nat.xor_lt_two_pow (Nat.xor_lt_two_pow moved (by decide)) (feedback_lt _)

/-- Digits have the effect of as many zeros, and the effect that they have on an empty state. -/
theorem foldl_polymodStep_xor (digits : List Nat) (left right : Nat) :
    digits.foldl polymodStep (left ^^^ right)
      = (List.replicate digits.length 0).foldl polymodStep left
        ^^^ digits.foldl polymodStep right := by
  induction digits generalizing left right with
  | nil => rfl
  | cons digit rest ih =>
    have first := polymodStep_xor left right 0 digit
    rw [Nat.zero_xor] at first
    rw [List.length_cons, List.replicate_succ, List.foldl_cons, List.foldl_cons, List.foldl_cons,
      first, ih]

/-! ## Six digits -/

/-- Nothing is fed back from a state of at most 25 bits, and a digit fills the five bits that it is
moved up by. -/
theorem polymodStep_of_lt {state digit : Nat} (few : state < 2 ^ 25) (small : digit < 2 ^ 5) :
    polymodStep state digit = 2 ^ 5 * state + digit := by
  have low : state % 0x2000000 = state := Nat.mod_eq_of_lt few
  have high : state / 0x2000000 = 0 := Nat.div_eq_of_lt few
  have none : feedback 0 = 0 := rfl
  rw [polymodStep, low, high, none, Nat.xor_zero]
  apply Nat.eq_of_testBit_eq
  intro place
  have moved : state * 32 = 2 ^ 5 * state + 0 := by omega
  rw [Nat.testBit_xor, moved, Nat.testBit_two_pow_mul_add state (by decide) place,
    Nat.testBit_two_pow_mul_add state small place]
  split
  · simp
  · next above =>
    -- A place above the five bits of the digit.
    have beyond : digit < 2 ^ place :=
      Nat.lt_of_lt_of_le small (Nat.pow_le_pow_right (by decide) (by omega))
    simp [Nat.testBit_lt_two_pow beyond]

/-- Up to six digits on an empty state are the number that they stand for. -/
theorem foldl_polymodStep_of_lt {digits : List Nat} (small : ∀ digit ∈ digits, digit < 2 ^ 5)
    {state : Nat} (room : Nat) (few : state < 2 ^ (5 * room)) (short : room + digits.length ≤ 6) :
    digits.foldl polymodStep state
      = 2 ^ (5 * digits.length) * state + Bits.toNat (Bits.ofDigits 5 digits) := by
  induction digits generalizing state room with
  | nil => simp [Bits.ofDigits, Bits.toNat]
  | cons digit rest ih =>
    obtain ⟨first, later⟩ := List.forall_mem_cons.1 small
    -- With a digit still to come, the state has room for it below 30 bits.
    rw [List.length_cons] at short
    have narrow : state < 2 ^ 25 :=
      Nat.lt_of_lt_of_le few (Nat.pow_le_pow_right (by decide) (by omega))
    have wider : 2 ^ 5 * state + digit < 2 ^ (5 * (room + 1)) := by
      rw [Nat.mul_succ, pow_add]
      omega
    rw [List.foldl_cons, polymodStep_of_lt narrow first, ih later (room + 1) wider (by omega),
      Bits.toNat_ofDigits_cons first, List.length_cons, Nat.mul_succ, pow_add, Nat.mul_add,
      Nat.mul_assoc, Nat.add_assoc]

theorem length_checksum (label : Bytes) (digits : List Nat) :
    (checksum label digits).length = 6 := by
  simp [checksum]

theorem lt_of_mem_checksum {label : Bytes} {digits : List Nat} {digit : Nat}
    (member : digit ∈ checksum label digits) : digit < 2 ^ 5 :=
  Bits.lt_of_mem_groups member

theorem polymod_append (front digits : List Nat) :
    polymod (front ++ digits) = digits.foldl polymodStep (polymod front) :=
  List.foldl_append

/-- The six digits stand for what leads from six zeros to the constant. -/
theorem foldl_checksum (label : Bytes) (digits : List Nat) :
    (checksum label digits).foldl polymodStep 0
      = polymod (expand label ++ digits ++ List.replicate 6 0) ^^^ Form.classic.constant := by
  have small : polymod (expand label ++ digits ++ List.replicate 6 0) ^^^ Form.classic.constant
      < 2 ^ 30 := by
    refine Nat.xor_lt_two_pow ?_ (by decide)
    rw [polymod_append]
    exact polymodStep_zero_lt _
  have length := length_checksum label digits
  rw [foldl_polymodStep_of_lt (fun digit => lt_of_mem_checksum) 0 (by decide) (by omega)]
  simp only [checksum]
  rw [Bits.ofDigits_groups (by simp), Bits.length_ofNat, Nat.sub_self, List.replicate_zero,
    List.append_nil, Bits.toNat_ofNat, Nat.mod_eq_of_lt small, Nat.mul_zero, Nat.zero_add]

/-- A text with its checksum is classic. -/
theorem form?_checksum (label : Bytes) (digits : List Nat) :
    form? label (digits ++ checksum label digits) = some .classic := by
  have state : polymod (expand label ++ (digits ++ checksum label digits))
      = Form.classic.constant :=
    calc
      polymod (expand label ++ (digits ++ checksum label digits))
      _ = (checksum label digits).foldl polymodStep (polymod (expand label ++ digits) ^^^ 0) := by
        rw [← List.append_assoc, polymod_append, Nat.xor_zero]
      _ = (List.replicate 6 0).foldl polymodStep (polymod (expand label ++ digits))
            ^^^ (checksum label digits).foldl polymodStep 0 := by
        rw [foldl_polymodStep_xor, length_checksum]
      _ = Form.classic.constant := by
        rw [foldl_checksum, polymod_append _ (List.replicate 6 0), Nat.xor_xor_cancel_left]
  rw [form?, state]
  rfl

end LinkRegistry.Bech32
