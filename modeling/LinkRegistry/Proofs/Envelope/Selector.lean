import Mathlib.Data.List.Dedup
import LinkRegistry.Proofs.Envelope.Verdict

/-!
# Selectors as sets of positions

Selecting a position turns on one stored bit and leaves all others as they are, and only if the
position is in range and has a byte; so the bits beyond the range are never touched and never
count. A selector made from a list of positions is the empty one with each of them selected in
turn: it keeps its size, and what it holds is what it held before and the positions that have been
taken. Main statement, `BitSelector.holds_set_of_positions`.
-/

namespace LinkRegistry.BitSelector

variable {selector : BitSelector} {chosen position : Nat}

/-- Whether the bit of a position is on in the bytes, in range or not. -/
def storedBit (selector : BitSelector) (position : Nat) : Bool :=
  match selector.bytes[position / 8]? with
  | some byte => byte.toNat.testBit (7 - position % 8)
  | none => false

theorem get_eq (selector : BitSelector) (position : Nat) :
    selector.get position
      = (decide (position < selector.bits.toNat) && selector.storedBit position) :=
  rfl

/-- A position can be selected: it is in range and has a byte. -/
def Admits (selector : BitSelector) (position : Nat) : Prop :=
  position < selector.bits.toNat ∧ position / 8 < selector.bytes.length

instance (selector : BitSelector) (position : Nat) : Decidable (selector.Admits position) :=
  inferInstanceAs (Decidable (_ ∧ _))

/-! ## One position -/

@[simp] theorem bits_set (selector : BitSelector) (chosen : Nat) :
    (selector.set chosen).bits = selector.bits := by
  unfold set
  split <;> rfl

@[simp] theorem length_bytes_set (selector : BitSelector) (chosen : Nat) :
    (selector.set chosen).bytes.length = selector.bytes.length := by
  unfold set
  split
  · simp
  · rfl

@[simp] theorem admits_set : (selector.set chosen).Admits position ↔ selector.Admits position := by
  simp [Admits]

/-- The mask of a position has its own bit of the byte and no other. -/
theorem testBit_setBit (byte : UInt8) (chosen bit : Nat) :
    (setBit byte chosen).toNat.testBit bit
      = (byte.toNat.testBit bit || decide (7 - chosen % 8 = bit)) := by
  have mask : Nat.pow 2 (7 - chosen % 8) < 2 ^ 8 :=
    Nat.pow_lt_pow_right (by decide) (by omega)
  have small : byte.toNat ||| Nat.pow 2 (7 - chosen % 8) < 2 ^ 8 :=
    Nat.or_lt_two_pow byte.toNat_lt mask
  rw [setBit, UInt8.toNat_ofNat_of_lt' small, Nat.testBit_or, Nat.pow_eq, Nat.testBit_two_pow]

/-- Selecting a position turns on its bit, if the position can be selected, and nothing else. -/
theorem storedBit_set (selector : BitSelector) (chosen position : Nat) :
    (selector.set chosen).storedBit position
      = (selector.storedBit position || decide (position = chosen ∧ selector.Admits chosen)) := by
  unfold set
  split
  next within =>
    simp only [storedBit, List.getElem?_modify]
    cases found : selector.bytes[position / 8]? with
    | none =>
      -- A position without a byte is not the chosen one, or the chosen one cannot be selected.
      have short : selector.bytes.length ≤ position / 8 := List.getElem?_eq_none_iff.1 found
      have apart : ¬ (position = chosen ∧ selector.Admits chosen) := by
        intro ⟨same, _, inside⟩
        omega
      simp [apart]
    | some byte =>
      obtain ⟨inside, -⟩ := List.getElem?_eq_some_iff.1 found
      by_cases together : chosen / 8 = position / 8
      · -- In one byte, positions differ exactly if their places in it do.
        have place : 7 - chosen % 8 = 7 - position % 8 ↔ position = chosen := by omega
        have admitted : selector.Admits chosen := ⟨within, by omega⟩
        simp [together, testBit_setBit, place, admitted]
      · have apart : position ≠ chosen := by
          intro same
          exact together (by rw [same])
        simp [together, apart]
  next beyond =>
    have refused : ¬ selector.Admits chosen := fun admitted => beyond admitted.1
    simp [refused]

theorem get_set_iff :
    (selector.set chosen).get position = true
      ↔ selector.get position = true ∨ position = chosen ∧ selector.Admits chosen := by
  simp only [get_eq, bits_set, storedBit_set, Bool.and_eq_true, Bool.or_eq_true, decide_eq_true_eq]
  constructor
  · intro ⟨within, held⟩
    exact held.imp_left fun stored => ⟨within, stored⟩
  · intro held
    rcases held with ⟨within, stored⟩ | ⟨rfl, admitted⟩
    · exact ⟨within, .inl stored⟩
    · exact ⟨admitted.1, .inr ⟨rfl, admitted⟩⟩

/-- A selector after a position has been selected. -/
structure SelectedAt (before : BitSelector) (chosen : Nat) (after : BitSelector) : Prop where
  get_iff : ∀ position, after.get position = true
    ↔ before.get position = true
      ∨ position = chosen ∧ chosen < before.bits.toNat ∧ chosen / 8 < before.bytes.length
  bits_eq : after.bits = before.bits
  length_eq : after.bytes.length = before.bytes.length
  /-- The bits beyond the range stay as they are. -/
  padding_eq : ∀ position, before.bits.toNat ≤ position →
    after.storedBit position = before.storedBit position

theorem selectedAt_set (selector : BitSelector) (chosen : Nat) :
    selector.SelectedAt chosen (selector.set chosen) where
  get_iff _ := get_set_iff
  bits_eq := bits_set selector chosen
  length_eq := length_bytes_set selector chosen
  padding_eq position beyond := by
    have apart : ¬ (position = chosen ∧ selector.Admits chosen) := by
      intro ⟨same, within, _⟩
      omega
    simp [storedBit_set, apart]

/-! ## Counting -/

/-- Positions without a byte are not selected, so nothing is lost by leaving them out. -/
theorem indices_eq_filter_range (selector : BitSelector) :
    selector.indices = (List.range selector.bits.toNat).filter selector.get := by
  have selects : selector.Selects ((List.range selector.bits.toNat).filter selector.get) := by
    refine ⟨List.pairwise_lt_range.filter _, fun position => ?_⟩
    rw [List.mem_filter, List.mem_range, and_iff_right_iff_imp]
    exact lt_bits_of_get
  exact selects.eq_indices.symm

/-- Only the bits in range count. -/
theorem countOnes_eq_countP (selector : BitSelector) :
    selector.countOnes = (List.range selector.bits.toNat).countP selector.storedBit := by
  rw [countOnes, indices_eq_filter_range, ← List.countP_eq_length_filter]
  refine List.countP_congr fun position member => ?_
  simp [get_eq, List.mem_range.1 member]

/-! ## Lists of positions -/

theorem get_empty (bits : UInt32) (position : Nat) : (empty bits).get position = false := by
  have zero : (empty bits).storedBit position = false := by
    simp only [storedBit, empty, List.getElem?_replicate]
    split_ifs <;> simp
  rw [get_eq, zero, Bool.and_false]

theorem bits_foldl_set (selector : BitSelector) (positions : List Nat) :
    (positions.foldl set selector).bits = selector.bits := by
  induction positions generalizing selector with
  | nil => rfl
  | cons chosen rest ih => rw [List.foldl_cons, ih, bits_set]

theorem length_bytes_foldl_set (selector : BitSelector) (positions : List Nat) :
    (positions.foldl set selector).bytes.length = selector.bytes.length := by
  induction positions generalizing selector with
  | nil => rfl
  | cons chosen rest ih => rw [List.foldl_cons, ih, length_bytes_set]

/-- The loop over a list: held are the positions held before and those taken from the list. -/
theorem get_foldl_set_iff {positions : List Nat} :
    (positions.foldl set selector).get position = true
      ↔ selector.get position = true ∨ position ∈ positions ∧ selector.Admits position := by
  induction positions generalizing selector with
  | nil => simp
  | cons chosen rest ih =>
    rw [List.foldl_cons, ih, get_set_iff, admits_set, List.mem_cons]
    constructor
    · rintro ((held | ⟨rfl, admitted⟩) | ⟨member, admitted⟩)
      · exact .inl held
      · exact .inr ⟨.inl rfl, admitted⟩
      · exact .inr ⟨.inr member, admitted⟩
    · rintro (held | ⟨rfl | member, admitted⟩)
      · exact .inl (.inl held)
      · exact .inl (.inr ⟨rfl, admitted⟩)
      · exact .inr ⟨member, admitted⟩

theorem isWellFormed_ofIndices (bits : UInt32) (positions : List Nat) :
    (ofIndices bits positions).isWellFormed = true := by
  rw [isWellFormed, decide_eq_true_eq, ofIndices, length_bytes_foldl_set, bits_foldl_set]
  simp [empty]

/-- An empty selector has a byte for every position in range. -/
theorem get_ofIndices_iff {bits : UInt32} {positions : List Nat} :
    (ofIndices bits positions).get position = true
      ↔ position ∈ positions ∧ position < bits.toNat := by
  have admits : (empty bits).Admits position ↔ position < bits.toNat := by
    simp only [Admits, empty, byteCount, List.length_replicate]
    omega
  rw [ofIndices, get_foldl_set_iff, get_empty, admits]
  simp

/-- Sorting and leaving out repetitions gives an ascending list. -/
private theorem pairwise_lt_dedup_mergeSort (positions : List Nat) :
    (positions.mergeSort).dedup.Pairwise (· < ·) := by
  have sorted : (positions.mergeSort).Pairwise (· ≤ ·) := by
    simpa using positions.pairwise_mergeSort' (· ≤ ·)
  have distinct := (positions.mergeSort).nodup_dedup
  refine ((sorted.sublist (List.dedup_sublist _)).and distinct).imp ?_
  intro first second ⟨below, apart⟩
  exact Nat.lt_of_le_of_ne below apart

theorem indices_ofIndices (bits : UInt32) (positions : List Nat) :
    (ofIndices bits positions).indices
      = ((positions.filter (· < bits.toNat)).mergeSort).dedup := by
  have selects : (ofIndices bits positions).Selects
      ((positions.filter (· < bits.toNat)).mergeSort).dedup := by
    refine ⟨pairwise_lt_dedup_mergeSort _, fun position => ?_⟩
    simp [get_ofIndices_iff]
  exact selects.eq_indices.symm

/-- A selector holds a set of positions, whether or not it has as many bytes as it should:
selecting adds one position, listing gives all of them in order, and counting counts them. One that
is made from a list holds the positions in range, however often and in whatever order they come. -/
theorem holds_set_of_positions (selector : BitSelector) :
    (∀ chosen, selector.SelectedAt chosen (selector.set chosen))
    ∧ selector.Selects selector.indices
    ∧ selector.countOnes = selector.indices.length
    ∧ selector.countOnes = (List.range selector.bits.toNat).countP selector.storedBit
    ∧ ∀ (bits : UInt32) (positions : List Nat),
        (ofIndices bits positions).isWellFormed = true
        ∧ (ofIndices bits positions).indices
          = ((positions.filter (· < bits.toNat)).mergeSort).dedup := by
  refine ⟨selector.selectedAt_set, selector.selects_indices, rfl, selector.countOnes_eq_countP, ?_⟩
  intro bits positions
  exact ⟨isWellFormed_ofIndices bits positions, indices_ofIndices bits positions⟩

example : (ofIndices 10 [9, 3, 12, 0, 3]).indices = [0, 3, 9] := by decide

end LinkRegistry.BitSelector
