import LinkRegistry.Proofs.Encoding.Characters
import LinkRegistry.Proofs.Encoding.Checksum

/-!
# Reading back encoded text

A human-readable part is written in one letter case and read in lower case, and the data digits are
written in lower case behind it. The last separator is the one that was written, since no digit looks
like it, whatever the human-readable part holds. Hexadecimal text is read two digits at a time, as it
was written. Main statements, `Bech32.read_write` and `Hex.decode_encode`.
-/

namespace LinkRegistry

namespace Bech32

/-! ## Letter case -/

theorem isUpper_iff {character : Char} :
    isUpper character = true ↔ 65 ≤ character.toNat ∧ character.toNat ≤ 90 := by
  simp only [isUpper, Bool.and_eq_true, decide_eq_true_eq]
  exact and_congr UInt32.le_iff_toNat_le UInt32.le_iff_toNat_le

theorem isLower_iff {character : Char} :
    isLower character = true ↔ 97 ≤ character.toNat ∧ character.toNat ≤ 122 := by
  simp only [isLower, Bool.and_eq_true, decide_eq_true_eq]
  exact and_congr UInt32.le_iff_toNat_le UInt32.le_iff_toNat_le

/-- The case of what is put in lower case. -/
def Case.lowered : Case → Case
  | .upper => .lower
  | .lower => .lower
  | .unseen => .unseen

theorem Case.lowered_ne_upper (seen : Case) : seen.lowered ≠ .upper := by
  cases seen <;> decide

theorem isLower_lowerChar {character : Char} (upper : isUpper character = true) :
    isLower (lowerChar character) = true := by
  have ascii : character.toNat < 0x80 := Nat.lt_of_le_of_lt (isUpper_iff.1 upper).2 (by decide)
  revert upper
  apply forall_ascii character ascii
  decide

theorem isUpper_of_isLower {character : Char} (lower : isLower character = true) :
    isUpper character = false := by
  obtain ⟨low, -⟩ := isLower_iff.1 lower
  by_contra upper
  obtain ⟨-, high⟩ := isUpper_iff.1 (Bool.not_eq_false _ ▸ upper)
  omega

/-- A letter needs that none of the other case was seen, and everything else leaves what was seen. -/
theorem Case.see_eq_some_iff {seen next : Case} {character : Char} :
    seen.see character = some next
      ↔ isLower character = true ∧ seen ≠ .upper ∧ next = .lower
        ∨ isUpper character = true ∧ seen ≠ .lower ∧ next = .upper
        ∨ isLower character = false ∧ isUpper character = false ∧ next = seen := by
  rw [see]
  by_cases lower : isLower character = true
  · have upper := isUpper_of_isLower lower
    cases seen <;> simp [lower, upper, eq_comm]
  · rw [Bool.not_eq_true] at lower
    cases upper : isUpper character <;> cases seen <;> simp [lower, eq_comm]

theorem Case.see_lowered {seen next : Case} {character : Char}
    (sees : seen.see character = some next) :
    seen.lowered.see (lowerChar character) = some next.lowered := by
  rcases see_eq_some_iff.1 sees with ⟨lower, -, rfl⟩ | ⟨upper, -, rfl⟩ | ⟨lower, upper, rfl⟩
  · rw [lowerChar, if_neg (by simp [isUpper_of_isLower lower])]
    exact see_eq_some_iff.2 (.inl ⟨lower, seen.lowered_ne_upper, rfl⟩)
  · exact see_eq_some_iff.2 (.inl ⟨isLower_lowerChar upper, seen.lowered_ne_upper, rfl⟩)
  · rw [lowerChar, if_neg (by simp [upper])]
    exact see_eq_some_iff.2 (.inr (.inr ⟨lower, upper, rfl⟩))

/-! ## Human-readable part -/

/-- The byte of an ASCII character. -/
private def byteOf (character : Char) : UInt8 := UInt8.ofNat character.toNat

private theorem toNat_byteOf {character : Char} (ascii : character.toNat < 0x80) :
    (byteOf character).toNat = character.toNat :=
  Utf8.toNat_ofNat_of_lt (by omega)

private theorem visible_byteOf_iff {character : Char} (ascii : character.toNat < 0x80) :
    33 ≤ byteOf character ∧ byteOf character ≤ 126
      ↔ 33 ≤ character.toNat ∧ character.toNat ≤ 126 := by
  rw [UInt8.le_iff_toNat_le, UInt8.le_iff_toNat_le, toNat_byteOf ascii]
  rfl

theorem visible_lowerChar {character : Char}
    (visible : 33 ≤ character.toNat ∧ character.toNat ≤ 126) :
    33 ≤ (lowerChar character).toNat ∧ (lowerChar character).toNat ≤ 126 := by
  by_cases upper : isUpper character = true
  · have letter := isLower_iff.1 (isLower_lowerChar upper)
    omega
  · rwa [lowerChar, if_neg upper]

theorem toNat_lowerChar_lt {character : Char} (ascii : character.toNat < 0x80) :
    (lowerChar character).toNat < 0x80 := by
  by_cases upper : isUpper character = true
  · have letter := isLower_iff.1 (isLower_lowerChar upper)
    omega
  · rwa [lowerChar, if_neg upper]

theorem eq_upper_of_labelCase {bytes : Bytes} {final : Case}
    (checked : labelCase .upper bytes = .ok final) : final = .upper := by
  induction bytes with
  | nil => exact (Except.ok.inj checked).symm
  | cons byte rest ih =>
    obtain ⟨-, next, sees, later⟩ := labelCase_cons_iff.1 checked
    rcases Case.see_eq_some_iff.1 sees with ⟨-, same, -⟩ | ⟨-, -, rfl⟩ | ⟨-, -, rfl⟩
    · exact absurd rfl same
    · exact ih later
    · exact ih later

section

variable {characters : List Char} (ascii : ∀ character ∈ characters, character.toNat < 0x80)
include ascii

/-- A part that is not in upper case is in lower case. -/
theorem map_lowerChar_of_labelCase {seen final : Case}
    (checked : labelCase seen (characters.map byteOf) = .ok final) (other : final ≠ .upper) :
    characters.map lowerChar = characters := by
  induction characters generalizing seen with
  | nil => rfl
  | cons character rest ih =>
    obtain ⟨first, others⟩ := List.forall_mem_cons.1 ascii
    obtain ⟨-, next, sees, later⟩ := labelCase_cons_iff.1 checked
    rw [toNat_byteOf first, Char.ofNat_toNat] at sees
    -- Upper case would be seen to the end.
    have upper : isUpper character = false := by
      rcases Case.see_eq_some_iff.1 sees with ⟨lower, -⟩ | ⟨-, -, rfl⟩ | ⟨-, upper, -⟩
      · exact isUpper_of_isLower lower
      · exact absurd (eq_upper_of_labelCase later) other
      · exact upper
    rw [List.map_cons, ih others later, lowerChar, if_neg (by simp [upper])]

theorem labelCase_lowered {seen final : Case}
    (checked : labelCase seen (characters.map byteOf) = .ok final) :
    labelCase seen.lowered ((characters.map lowerChar).map byteOf) = .ok final.lowered := by
  induction characters generalizing seen with
  | nil =>
    obtain rfl := Except.ok.inj checked
    rfl
  | cons character rest ih =>
    obtain ⟨first, others⟩ := List.forall_mem_cons.1 ascii
    obtain ⟨visible, next, sees, later⟩ := labelCase_cons_iff.1 checked
    have lowered := visible_lowerChar ((visible_byteOf_iff first).1 visible)
    have small : (lowerChar character).toNat < 0x80 := by omega
    rw [toNat_byteOf first, Char.ofNat_toNat] at sees
    refine labelCase_cons_iff.2 ⟨(visible_byteOf_iff small).2 lowered, next.lowered, ?_,
      ih others later⟩
    rw [toNat_byteOf small, Char.ofNat_toNat]
    exact Case.see_lowered sees

end

section

variable {label : String} {seen : Case}

theorem ascii_of_checkLabel (checked : checkLabel label = .ok seen) :
    ∀ character ∈ label.toList, 33 ≤ character.toNat ∧ character.toNat < 0x80 := by
  rw [← String.ofList_toList (s := label)] at checked
  exact bounds_of_checkLabel checked

private theorem encode_eq (ascii : ∀ character ∈ label.toList, character.toNat < 0x80) :
    Utf8.encode label = label.toList.map byteOf := by
  have bytes := Utf8.encode_of_ascii ascii
  rwa [String.ofList_toList] at bytes

theorem checkLabel_eq_ok_iff (ascii : ∀ character ∈ label.toList, character.toNat < 0x80) :
    checkLabel label = .ok seen
      ↔ (label.toList ≠ [] ∧ label.toList.length ≤ 83)
        ∧ labelCase .unseen (Utf8.encode label) = .ok seen := by
  have length : (Utf8.encode label).length = label.toList.length := by
    rw [encode_eq ascii, List.length_map]
  have empty : (Utf8.encode label).isEmpty = true ↔ label.toList = [] := by
    rw [encode_eq ascii, List.isEmpty_iff, List.map_eq_nil_iff]
  rw [checkLabel]
  by_cases outside : (Utf8.encode label).isEmpty || 83 < (Utf8.encode label).length
  · simp only [outside, ↓reduceIte, reduceCtorEq, false_iff, not_and]
    rintro ⟨some, short⟩
    rw [Bool.or_eq_true, decide_eq_true_eq, empty, length] at outside
    exact absurd short (Nat.not_le.2 (outside.resolve_left some))
  · have within : label.toList ≠ [] ∧ label.toList.length ≤ 83 := by
      rw [Bool.or_eq_true, decide_eq_true_eq, empty, length, not_or] at outside
      exact outside.imp id Nat.not_lt.1
    rw [if_neg outside, and_iff_right within]

/-- What is checked is read as it would be in lower case. -/
theorem normalLabel_eq_lowerText (checked : checkLabel label = .ok seen) :
    normalLabel label seen = lowerText label := by
  have ascii := fun character member => (ascii_of_checkLabel checked character member).2
  rw [normalLabel]
  split
  · rfl
  · next other =>
    have cased := ((checkLabel_eq_ok_iff ascii).1 checked).2
    rw [encode_eq ascii] at cased
    rw [lowerText, map_lowerChar_of_labelCase ascii cased other, String.ofList_toList]

theorem checkLabel_lowerText (checked : checkLabel label = .ok seen) :
    checkLabel (lowerText label) = .ok seen.lowered := by
  have visible := ascii_of_checkLabel checked
  have ascii := fun character member => (visible character member).2
  have characters : (lowerText label).toList = label.toList.map lowerChar := String.toList_ofList
  have lower : ∀ character ∈ (lowerText label).toList, character.toNat < 0x80 := by
    rw [characters]
    intro character member
    obtain ⟨written, inside, rfl⟩ := List.mem_map.1 member
    exact toNat_lowerChar_lt (ascii written inside)
  obtain ⟨size, cased⟩ := (checkLabel_eq_ok_iff ascii).1 checked
  rw [encode_eq ascii] at cased
  rw [checkLabel_eq_ok_iff lower, encode_eq lower, characters, List.length_map, ne_eq,
    List.map_eq_nil_iff]
  exact ⟨size, labelCase_lowered ascii cased⟩

end

/-! ## Data digits -/

/-- The character of a digit. -/
def digitChar (digit : Nat) : Char := alphabet.getD digit 'q'

private theorem digitChar_facts : ∀ digit < 32, (digitChar digit).toNat < 0x80
    ∧ isUpper (digitChar digit) = false ∧ alphabet.idxOf? (digitChar digit) = some digit
    ∧ digitChar digit ≠ '1' := by
  decide

theorem readDigits_map_digitChar {digits : List Nat} (small : ∀ digit ∈ digits, digit < 32)
    {seen : Case} (other : seen ≠ .upper) :
    readDigits seen (digits.map digitChar) = .ok digits := by
  induction digits generalizing seen with
  | nil => rfl
  | cons digit rest ih =>
    obtain ⟨first, later⟩ := List.forall_mem_cons.1 small
    obtain ⟨ascii, upper, place, -⟩ := digitChar_facts digit first
    have lower : lowerChar (digitChar digit) = digitChar digit := by
      rw [lowerChar, if_neg (by simp [upper])]
    -- A digit is a letter in lower case or no letter at all.
    have sees : ∃ next, seen.see (digitChar digit) = some next ∧ next ≠ .upper := by
      by_cases letter : isLower (digitChar digit) = true
      · exact ⟨.lower, Case.see_eq_some_iff.2 (.inl ⟨letter, other, rfl⟩), by decide⟩
      · rw [Bool.not_eq_true] at letter
        exact ⟨seen, Case.see_eq_some_iff.2 (.inr (.inr ⟨letter, upper, rfl⟩)), other⟩
    obtain ⟨next, sees, fine⟩ := sees
    rw [List.map_cons, readDigits, if_neg (Nat.not_le.2 ascii)]
    simp only [sees, lower, place, ih later fine]

theorem splitLast_append {label data : List Char} (apart : ∀ character ∈ data, character ≠ '1') :
    splitLast (label ++ '1' :: data) = some (label, data) := by
  have behind : ∀ character ∈ data.reverse, decide (character ≠ '1') = true :=
    fun character member => decide_eq_true (apart character (List.mem_reverse.1 member))
  have reversed : (label ++ '1' :: data).reverse = data.reverse ++ '1' :: label.reverse := by
    simp
  rw [splitLast, reversed, List.dropWhile_append_of_pos behind, List.takeWhile_append_of_pos behind]
  simp

/-! ## Texts -/

theorem lt_of_mem_digitsOfBytes {bytes : Bytes} {digit : Nat}
    (member : digit ∈ digitsOfBytes bytes) : digit < 2 ^ 5 :=
  Bits.lt_of_mem_groups member

theorem read_of_splitLast {text : String} {label data : List Char} {seen : Case}
    {digits : List Nat} {form : Form} (parts : splitLast text.toList = some (label, data))
    (checked : checkLabel (String.ofList label) = .ok seen)
    (readable : readDigits seen data = .ok digits) (enough : 6 ≤ digits.length)
    (found : form? (Utf8.encode (normalLabel (String.ofList label) seen)) digits = some form) :
    read text = .ok
      ⟨normalLabel (String.ofList label) seen, digits.take (digits.length - 6), form⟩ := by
  rw [read, parts]
  simp only [checked, readable, found]
  rw [if_neg (by omega)]

/-- A text that was written is read again, as classic and with its human-readable part in lower
case. -/
theorem read_write {label text : String} {bytes : Bytes} (written : write label bytes = .ok text) :
    read text = .ok ⟨lowerText label, digitsOfBytes bytes, .classic⟩ := by
  rw [write] at written
  split at written
  · cases written
  next seen checked =>
  obtain rfl := Except.ok.inj written
  simp only [normalLabel_eq_lowerText checked]
  have classic := form?_checksum (Utf8.encode (lowerText label)) (digitsOfBytes bytes)
  have last := length_checksum (Utf8.encode (lowerText label)) (digitsOfBytes bytes)
  have small : ∀ digit ∈ digitsOfBytes bytes
      ++ checksum (Utf8.encode (lowerText label)) (digitsOfBytes bytes), digit < 32 := by
    intro digit member
    exact (List.mem_append.1 member).elim lt_of_mem_digitsOfBytes lt_of_mem_checksum
  -- Of the checksum only its length and that it completes the text matter from here on.
  generalize checksum (Utf8.encode (lowerText label)) (digitsOfBytes bytes) = six at *
  have apart : ∀ character ∈ (digitsOfBytes bytes ++ six).map digitChar, character ≠ '1' := by
    intro character member
    obtain ⟨digit, inside, rfl⟩ := List.mem_map.1 member
    exact (digitChar_facts digit (small digit inside)).2.2.2
  have parts : splitLast (lowerText label ++ "1"
        ++ String.ofList ((digitsOfBytes bytes ++ six).map digitChar)).toList
      = some ((lowerText label).toList, (digitsOfBytes bytes ++ six).map digitChar) := by
    rw [← splitLast_append apart]
    simp
  -- The part is in lower case already, so reading leaves it as it is.
  have lowered : normalLabel (String.ofList (lowerText label).toList) seen.lowered
      = lowerText label := by
    rw [normalLabel, if_neg seen.lowered_ne_upper, String.ofList_toList]
  have checkedAgain : checkLabel (String.ofList (lowerText label).toList) = .ok seen.lowered := by
    rw [String.ofList_toList]
    exact checkLabel_lowerText checked
  have length : (digitsOfBytes bytes ++ six).length = (digitsOfBytes bytes).length + 6 := by
    rw [List.length_append, last]
  have readAgain := read_of_splitLast parts checkedAgain
    (readDigits_map_digitChar small seen.lowered_ne_upper) (by omega) (lowered.symm ▸ classic)
  rwa [lowered, length, Nat.add_sub_cancel, List.take_left] at readAgain

end Bech32

/-! ## Hexadecimal -/

namespace Hex

private theorem digit_facts : ∀ value < 16, (digit value).toNat < 0x80
    ∧ digitValue? (UInt8.ofNat (digit value).toNat) = some value := by
  decide

theorem ascii_of_mem_encodeByte {byte : UInt8} {character : Char}
    (member : character ∈ encodeByte byte) : character.toNat < 0x80 := by
  have below := byte.toNat_lt
  simp only [encodeByte, List.mem_cons, List.not_mem_nil, or_false] at member
  rcases member with rfl | rfl
  · exact (digit_facts _ (by omega)).1
  · exact (digit_facts _ (by omega)).1

private theorem decodePairs_encodeByte (position : Nat) (bytes : Bytes) :
    decodePairs position ((bytes.flatMap encodeByte).map fun character =>
      UInt8.ofNat character.toNat) = .ok bytes := by
  induction bytes generalizing position with
  | nil => rfl
  | cons byte rest ih =>
    have below := byte.toNat_lt
    have high := (digit_facts (byte.toNat / 16) (by omega)).2
    have low := (digit_facts (byte.toNat % 16) (by omega)).2
    have value : UInt8.ofNat (16 * (byte.toNat / 16) + byte.toNat % 16) = byte := by
      rw [Nat.div_add_mod, UInt8.ofNat_toNat]
    rw [List.flatMap_cons, encodeByte, List.cons_append, List.cons_append, List.nil_append,
      List.map_cons, List.map_cons, decodePairs]
    simp only [high, low, ih, value]

theorem length_flatMap_encodeByte (bytes : Bytes) :
    (bytes.flatMap encodeByte).length = 2 * bytes.length := by
  induction bytes with
  | nil => rfl
  | cons byte rest ih =>
    rw [List.flatMap_cons, List.length_append, ih, List.length_cons, Nat.mul_succ, Nat.add_comm]
    rfl

theorem decode_encode (bytes : Bytes) : decode (encode bytes) = .ok bytes := by
  have ascii : ∀ character ∈ bytes.flatMap encodeByte, character.toNat < 0x80 := by
    intro character member
    obtain ⟨byte, -, inside⟩ := List.mem_flatMap.1 member
    exact ascii_of_mem_encodeByte inside
  have even : ¬ (bytes.flatMap encodeByte).length % 2 = 1 := by
    rw [length_flatMap_encodeByte]
    omega
  rw [decode, encode, Utf8.encode_of_ascii ascii, List.length_map, if_neg even]
  exact decodePairs_encodeByte 0 bytes

end Hex

end LinkRegistry
