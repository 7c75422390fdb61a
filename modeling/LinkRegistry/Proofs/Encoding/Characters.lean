import Mathlib.Data.List.TakeWhile
import LinkRegistry.Encoding.Base58
import LinkRegistry.Encoding.Bech32
import LinkRegistry.Encoding.Hex
import LinkRegistry.Proofs.Text.Utf8
import LinkRegistry.Text.CharacterClass

/-!
# Characters of encoded texts

A text that reads as bech32 is a visible human-readable part, a separator and digits of the data
alphabet. So it holds neither blanks nor control characters, and it ends with a digit. A text that
reads as hexadecimal or as base58 is made of digits alone.
-/

namespace LinkRegistry

/-- What is checked for each code holds for each ASCII character. -/
theorem forall_ascii {property : Char → Prop} (character : Char) (ascii : character.toNat < 0x80)
    (each : ∀ code < 0x80, property (Char.ofNat code)) : property character := by
  have here := each character.toNat ascii
  rwa [Char.ofNat_toNat] at here

theorem Blank.not_isBlank_of_mem {text : String} {character : Char}
    (member : character ∈ text.toList) (visible : isWhiteSpace character = false) :
    isBlank text = false :=
  List.all_eq_false.2 ⟨character, member, by simp [visible]⟩

/-! ## Bech32 -/

namespace Bech32

/-- The parts of a text: its human-readable part and, behind the separator, its digits. -/
structure Spelled (text : String) (label data : List Char) : Prop where
  split : text.toList = label ++ '1' :: data
  visible : ∀ character ∈ label, 33 ≤ character.toNat ∧ character.toNat < 0x80
  digits : ∀ character ∈ data, lowerChar character ∈ alphabet
  enough : 6 ≤ data.length

theorem eq_append_of_splitLast {characters label data : List Char}
    (split : splitLast characters = some (label, data)) : characters = label ++ '1' :: data := by
  have joined := List.takeWhile_append_dropWhile (p := (· ≠ '1')) (l := characters.reverse)
  rw [splitLast] at split
  split at split
  · cases split
  · next separator reversed found =>
    obtain ⟨rfl, rfl⟩ := Prod.mk.inj (Option.some.inj split)
    have ends : separator = '1' := by
      have first := List.head?_dropWhile_not (· ≠ '1') characters.reverse
      rw [found] at first
      simpa using first
    rw [found, ends] at joined
    have whole := congrArg List.reverse joined
    simpa using whole.symm

theorem labelCase_cons_iff {seen final : Case} {byte : UInt8} {rest : Bytes} :
    labelCase seen (byte :: rest) = .ok final
      ↔ (33 ≤ byte ∧ byte ≤ 126)
        ∧ ∃ next, seen.see (Char.ofNat byte.toNat) = some next ∧ labelCase next rest = .ok final := by
  rw [labelCase]
  by_cases outside : (byte < 33 || 126 < byte) = true
  · have beyond : ¬ (33 ≤ byte ∧ byte ≤ 126) := by
      rintro ⟨low, high⟩
      simp only [Bool.or_eq_true, decide_eq_true_eq] at outside
      rcases outside with below | above
      · exact absurd low (UInt8.not_le.2 below)
      · exact absurd high (UInt8.not_le.2 above)
    simp [outside, beyond]
  · have within : 33 ≤ byte ∧ byte ≤ 126 := by
      rw [Bool.or_eq_true, decide_eq_true_eq, decide_eq_true_eq, not_or] at outside
      exact outside.imp UInt8.not_lt.1 UInt8.not_lt.1
    simp only [outside, within]
    cases seen.see (Char.ofNat byte.toNat) <;> simp

theorem bounds_of_labelCase {seen next : Case} {bytes : Bytes}
    (checked : labelCase seen bytes = .ok next) : ∀ byte ∈ bytes, 33 ≤ byte ∧ byte ≤ 126 := by
  induction bytes generalizing seen with
  | nil => exact nofun
  | cons first rest ih =>
    obtain ⟨bounds, other, -, later⟩ := labelCase_cons_iff.1 checked
    exact List.forall_mem_cons.2 ⟨bounds, ih later⟩

theorem bounds_of_checkLabel {label : List Char} {seen : Case}
    (checked : checkLabel (String.ofList label) = .ok seen) :
    ∀ character ∈ label, 33 ≤ character.toNat ∧ character.toNat < 0x80 := by
  intro character member
  rw [checkLabel] at checked
  split at checked
  · cases checked
  have bounds := bounds_of_labelCase checked
  have inside {byte : UInt8} (written : byte ∈ Utf8.encodeChar character) :
      byte ∈ Utf8.encode (String.ofList label) := by
    rw [Utf8.encode, String.toList_ofList]
    exact List.mem_flatMap.2 ⟨character, member, written⟩
  have ascii : character.toNat < 0x80 := Utf8.ascii_of_encodeChar fun byte written =>
    UInt8.lt_of_le_of_lt (bounds byte (inside written)).2 (by decide)
  -- An ASCII character is written as one byte of its value, which is among the visible ones.
  have value : (UInt8.ofNat character.toNat).toNat = character.toNat :=
    Utf8.toNat_ofNat_of_lt (by omega)
  have written : UInt8.ofNat character.toNat ∈ Utf8.encodeChar character := by
    rwa [Utf8.mem_encodeChar_iff (UInt8.lt_iff_toNat_lt.2 (value.symm ▸ ascii))]
  refine ⟨?_, ascii⟩
  rw [← value]
  exact UInt8.le_iff_toNat_le.1 (bounds _ (inside written)).1

theorem digits_of_readDigits {seen : Case} {characters : List Char} {digits : List Nat}
    (found : readDigits seen characters = .ok digits) :
    digits.length = characters.length ∧ ∀ character ∈ characters, lowerChar character ∈ alphabet := by
  induction characters generalizing seen digits with
  | nil =>
    obtain rfl := Except.ok.inj found
    exact ⟨rfl, nofun⟩
  | cons first rest ih =>
    simp only [readDigits] at found
    split at found
    · cases found
    split at found
    · cases found
    split at found
    · cases found
    next digit place =>
    split at found
    · next others later =>
      obtain rfl := Except.ok.inj found
      obtain ⟨length, inside⟩ := ih later
      refine ⟨congrArg (· + 1) length, List.forall_mem_cons.2 ⟨?_, inside⟩⟩
      -- The digit was found in the alphabet, so its character stands there.
      by_contra missing
      rw [List.idxOf?_eq_none_iff.2 missing] at place
      cases place
    · cases found

section

variable {text : String} {reading : Reading}

theorem exists_spelled_of_read (found : read text = .ok reading) :
    ∃ label data, Spelled text label data := by
  rw [read] at found
  split at found
  · cases found
  next label data parts =>
  simp only at found
  split at found
  · cases found
  next seen checked =>
  split at found
  · cases found
  next digits readable =>
  split at found
  · cases found
  next enough =>
  -- Every check has passed by now, and each vouches for one part of the text.
  obtain ⟨length, inside⟩ := digits_of_readDigits readable
  exact ⟨label, data, eq_append_of_splitLast parts, bounds_of_checkLabel checked, inside,
    by omega⟩

/-- A text that reads as bech32 holds its separator, a visible digit. -/
theorem not_isBlank_of_read (found : read text = .ok reading) : Blank.isBlank text = false := by
  obtain ⟨label, data, spelled⟩ := exists_spelled_of_read found
  have separator : '1' ∈ text.toList := by
    rw [spelled.split]
    simp
  exact Blank.not_isBlank_of_mem separator (by decide)

/-- A text that reads as bech32 is ASCII, without a blank or a control character. -/
theorem bounds_of_read (found : read text = .ok reading) :
    ∀ character ∈ text.toList, 33 ≤ character.toNat ∧ character.toNat < 0x80 := by
  obtain ⟨label, data, spelled⟩ := exists_spelled_of_read found
  -- A digit in upper case is a letter, and in lower case it is one of the alphabet.
  have ofDigit (character : Char) (digit : lowerChar character ∈ alphabet) :
      33 ≤ character.toNat ∧ character.toNat < 0x80 := by
    by_cases upper : isUpper character
    · have range : 'A' ≤ character ∧ character ≤ 'Z' := by simpa [isUpper] using upper
      exact ⟨Nat.le_trans (by decide) (UInt32.le_iff_toNat_le.1 range.1),
        Nat.lt_of_le_of_lt (UInt32.le_iff_toNat_le.1 range.2) (by decide)⟩
    · rw [lowerChar, if_neg upper] at digit
      have all : alphabet.all (fun digit => 33 ≤ digit.toNat ∧ digit.toNat < 0x80) = true := by
        decide
      exact of_decide_eq_true (List.all_eq_true.1 all character digit)
  intro character member
  rw [spelled.split, List.mem_append, List.mem_cons] at member
  rcases member with inLabel | rfl | inData
  · exact spelled.visible character inLabel
  · decide
  · exact ofDigit character (spelled.digits character inData)

theorem visible_of_read (found : read text = .ok reading) :
    ∀ character ∈ text.toList, 33 ≤ character.toNat :=
  fun character member => (bounds_of_read found character member).1

/-- A text that reads as bech32 ends with a digit. -/
theorem exists_last_of_read (found : read text = .ok reading) :
    ∃ front last, text.toList = front ++ [last] ∧ lowerChar last ∈ alphabet := by
  obtain ⟨label, data, spelled⟩ := exists_spelled_of_read found
  have some : data ≠ [] := by
    rintro rfl
    exact absurd spelled.enough (by decide)
  refine ⟨label ++ '1' :: data.dropLast, data.getLast some, ?_,
    spelled.digits _ (List.getLast_mem some)⟩
  rw [spelled.split, List.append_assoc, List.cons_append, List.dropLast_concat_getLast]

end

end Bech32

/-! ## Hexadecimal and base58 -/

theorem Hex.digits_of_decodePairs {position : Nat} {digits bytes : Bytes}
    (found : decodePairs position digits = .ok bytes) :
    ∀ digit ∈ digits, (digitValue? digit).isSome := by
  fun_induction decodePairs position digits generalizing bytes with
  | case1 | case2 | case4 | case5 => cases found
  | case3 position high low rest upper first lower second others later ih =>
    have firstDigit : (digitValue? high).isSome := by simp [first]
    have secondDigit : (digitValue? low).isSome := by simp [second]
    exact List.forall_mem_cons.2 ⟨firstDigit, List.forall_mem_cons.2 ⟨secondDigit, ih later⟩⟩
  | case6 => exact nofun

theorem Hex.digits_of_decode {text : String} {bytes : Bytes} (found : decode text = .ok bytes) :
    ∀ digit ∈ Utf8.encode text, (digitValue? digit).isSome := by
  simp only [decode] at found
  split at found
  · cases found
  · exact digits_of_decodePairs found

theorem Base58.digits_of_number {index value result : Nat} {digits : Bytes}
    (found : number index value digits = .ok result) :
    ∀ digit ∈ digits, (digitValue? digit).isSome := by
  fun_induction number index value digits with
  | case1 => exact nofun
  | case2 | case3 => cases found
  | case4 index value digit rest ascii place read ih =>
    have first : (digitValue? digit).isSome := by simp [read]
    exact List.forall_mem_cons.2 ⟨first, ih found⟩

theorem Base58.digits_of_decode {text : String} {bytes : Bytes} (found : decode text = .ok bytes) :
    ∀ digit ∈ Utf8.encode text, (digitValue? digit).isSome := by
  simp only [decode] at found
  split at found
  · cases found
  · next value read => exact digits_of_number read

end LinkRegistry
