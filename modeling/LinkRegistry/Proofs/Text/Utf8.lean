import LinkRegistry.Text.Utf8

/-!
# Reading back text

Main statements, `decode_encode` and `encode_of_decode`: strict reading of the bytes of a text gives
the text, and reads no other bytes as that text. Each character is written as bytes that are cut off
again as that one piece, whatever follows them, and a piece that is a character is cut from the
bytes that the character is written as. ASCII bytes are the characters they look like wherever they
stand, in texts and among bytes that are no text.
-/

namespace LinkRegistry.Utf8

/-- A character is no surrogate and lies within the code space. -/
private theorem toNat_cases (character : Char) :
    character.toNat < 0xD800 ∨ 0xDFFF < character.toNat ∧ character.toNat < 0x110000 :=
  character.valid

theorem toNat_ofNat_of_lt {number : Nat} (below : number < 256) :
    (UInt8.ofNat number).toNat = number := by
  simp [Nat.mod_eq_of_lt below]

/-! ## Continuation bytes -/

private theorem toNat_continuation (number : Nat) :
    (UInt8.ofNat (number % 64 + 0x80)).toNat = number % 64 + 0x80 :=
  toNat_ofNat_of_lt (by omega)

private theorem isContinuation_ofNat (number : Nat) :
    isContinuation (UInt8.ofNat (number % 64 + 0x80)) = true := by
  simp only [isContinuation, Bool.and_eq_true, decide_eq_true_eq, UInt8.le_iff_toNat_le,
    toNat_continuation, UInt8.reduceToNat]
  omega

private theorem payload_ofNat (number : Nat) :
    payload (UInt8.ofNat (number % 64 + 0x80)) = number % 64 := by
  rw [payload, toNat_continuation]
  omega

/-! ## Characters by the number of their bytes -/

private theorem pieces_one (character : Char) (rest : Bytes) (small : character.toNat ≤ 0x7F) :
    pieces (UInt8.ofNat character.toNat :: rest) = .character character :: pieces rest := by
  have value : (UInt8.ofNat character.toNat).toNat = character.toNat :=
    toNat_ofNat_of_lt (by omega)
  have ascii : UInt8.ofNat character.toNat < 0x80 := by
    rw [UInt8.lt_iff_toNat_lt, value]
    exact Nat.lt_of_le_of_lt small (by decide)
  rw [pieces.eq_def]
  simp only [ascii, value, Char.ofNat_toNat, ↓reduceIte]

private theorem pieces_two (character : Char) (rest : Bytes) (large : 0x7F < character.toNat)
    (small : character.toNat ≤ 0x7FF) :
    pieces (UInt8.ofNat (character.toNat / 64 % 0x20 + 0xC0) ::
        UInt8.ofNat (character.toNat % 64 + 0x80) :: rest)
      = .character character :: pieces rest := by
  have first : (UInt8.ofNat (character.toNat / 64 % 0x20 + 0xC0)).toNat
      = character.toNat / 64 + 0xC0 := by
    rw [toNat_ofNat_of_lt (by omega)]
    omega
  have whole : (character.toNat / 64 + 0xC0) % 32 * 64 + character.toNat % 64
      = character.toNat := by omega
  rw [pieces.eq_def]
  simp only [UInt8.lt_iff_toNat_lt, UInt8.reduceToNat, first, isContinuation_ofNat, payload_ofNat,
    ofTwo, ↓reduceIte]
  rw [if_neg (by omega), if_neg (by simp; omega), if_pos (by omega), whole, Char.ofNat_toNat]

private theorem pieces_three (character : Char) (rest : Bytes) (large : 0x7FF < character.toNat)
    (small : character.toNat ≤ 0xFFFF) :
    pieces (UInt8.ofNat (character.toNat / 4096 % 0x10 + 0xE0) ::
        UInt8.ofNat (character.toNat / 64 % 64 + 0x80) ::
        UInt8.ofNat (character.toNat % 64 + 0x80) :: rest)
      = .character character :: pieces rest := by
  have first : (UInt8.ofNat (character.toNat / 4096 % 0x10 + 0xE0)).toNat
      = character.toNat / 4096 + 0xE0 := by
    rw [toNat_ofNat_of_lt (by omega)]
    omega
  -- No surrogate and no overlong form: the two bounds on the second byte.
  have starts : startsThree (UInt8.ofNat (character.toNat / 4096 % 0x10 + 0xE0))
      (UInt8.ofNat (character.toNat / 64 % 64 + 0x80)) = true := by
    have range := toNat_cases character
    simp only [startsThree, isContinuation, ← UInt8.toNat_inj, UInt8.le_iff_toNat_le,
      UInt8.reduceToNat, first, toNat_continuation]
    grind
  have whole : ((character.toNat / 4096 + 0xE0) % 16 * 64 + character.toNat / 64 % 64) * 64
      + character.toNat % 64 = character.toNat := by omega
  rw [pieces.eq_def]
  simp only [starts, UInt8.lt_iff_toNat_lt, UInt8.reduceToNat, first, isContinuation_ofNat,
    payload_ofNat, ofThree, ↓reduceIte]
  rw [if_neg (by omega), if_neg (by simp; omega), if_neg (by omega), if_pos (by omega), whole,
    Char.ofNat_toNat]

private theorem pieces_four (character : Char) (rest : Bytes) (large : 0xFFFF < character.toNat) :
    pieces (UInt8.ofNat (character.toNat / 262144 % 0x08 + 0xF0) ::
        UInt8.ofNat (character.toNat / 4096 % 64 + 0x80) ::
        UInt8.ofNat (character.toNat / 64 % 64 + 0x80) ::
        UInt8.ofNat (character.toNat % 64 + 0x80) :: rest)
      = .character character :: pieces rest := by
  have range := toNat_cases character
  -- The lead is one of four bytes, and the payloads together are the code point.
  have first : (UInt8.ofNat (character.toNat / 262144 % 0x08 + 0xF0)).toNat
      = character.toNat / 262144 + 0xF0 := by
    rw [toNat_ofNat_of_lt (by omega)]
    omega
  have starts : startsFour (UInt8.ofNat (character.toNat / 262144 % 0x08 + 0xF0))
      (UInt8.ofNat (character.toNat / 4096 % 64 + 0x80)) = true := by
    simp only [startsFour, isContinuation, ← UInt8.toNat_inj, UInt8.le_iff_toNat_le,
      UInt8.reduceToNat, first, toNat_continuation]
    grind
  have whole : (((character.toNat / 262144 + 0xF0) % 8 * 64 + character.toNat / 4096 % 64) * 64
      + character.toNat / 64 % 64) * 64 + character.toNat % 64 = character.toNat := by omega
  rw [pieces.eq_def]
  simp only [starts, UInt8.lt_iff_toNat_lt, UInt8.reduceToNat, first, isContinuation_ofNat,
    payload_ofNat, ofFour, ↓reduceIte]
  rw [if_neg (by omega), if_neg (by simp; omega), if_neg (by omega), if_neg (by omega), whole,
    Char.ofNat_toNat]

/-- The bytes of a character are cut off as one piece. -/
theorem pieces_encodeChar (character : Char) (rest : Bytes) :
    pieces (encodeChar character ++ rest) = .character character :: pieces rest := by
  unfold encodeChar String.utf8EncodeChar
  by_cases one : character.toNat ≤ 0x7F
  · simpa [one] using pieces_one character rest one
  by_cases two : character.toNat ≤ 0x7FF
  · simpa [one, two] using pieces_two character rest (by omega) two
  by_cases three : character.toNat ≤ 0xFFFF
  · simpa [one, two, three] using pieces_three character rest (by omega) three
  · simpa [one, two, three] using pieces_four character rest (by omega)

/-! ## Texts -/

private theorem characters_pieces_encode (index : Nat) (text : List Char) :
    characters index (pieces (text.flatMap encodeChar)) = .ok text := by
  induction text generalizing index with
  | nil => rfl
  | cons character rest ih =>
    simp only [List.flatMap_cons, pieces_encodeChar, characters, ih]

/-- The bytes of a text read as that text. -/
@[simp] theorem decode_encode (text : String) : decode (encode text) = .ok text := by
  simp [decode, encode, characters_pieces_encode]

/-- Texts with the same bytes are equal. -/
theorem encode_inj {left right : String} : encode left = encode right ↔ left = right := by
  refine ⟨fun same => ?_, fun same => same ▸ rfl⟩
  have read := decode_encode left
  rw [same, decode_encode] at read
  exact (Except.ok.inj read).symm

/-! ## ASCII bytes -/

theorem mem_encodeChar_iff {byte : UInt8} {character : Char} (ascii : byte < 0x80) :
    byte ∈ encodeChar character ↔ byte.toNat = character.toNat := by
  have small : byte.toNat < 0x80 := UInt8.lt_iff_toNat_lt.1 ascii
  -- The bytes of a character that takes several are all beyond ASCII.
  have other {number : Nat} (high : 0x80 ≤ number) (low : number < 256) :
      byte ≠ UInt8.ofNat number := by
    rintro rfl
    rw [toNat_ofNat_of_lt low] at small
    omega
  have last (number : Nat) : byte ≠ UInt8.ofNat (number % 64 + 0x80) :=
    other (by omega) (by omega)
  have first (number : Nat) : byte ≠ UInt8.ofNat (number % 0x20 + 0xC0)
      ∧ byte ≠ UInt8.ofNat (number % 0x10 + 0xE0) ∧ byte ≠ UInt8.ofNat (number % 0x08 + 0xF0) :=
    ⟨other (by omega) (by omega), other (by omega) (by omega), other (by omega) (by omega)⟩
  unfold encodeChar String.utf8EncodeChar
  change byte ∈ (if character.toNat ≤ 0x7F then _ else _) ↔ _
  split
  · next one =>
    have value : (UInt8.ofNat character.toNat).toNat = character.toNat :=
      toNat_ofNat_of_lt (by omega)
    rw [List.mem_singleton, ← UInt8.toNat_inj]
    exact ⟨fun same => same.trans value, fun same => same.trans value.symm⟩
  · next several =>
    have apart : byte.toNat ≠ character.toNat := by omega
    simp only [apart, iff_false]
    split
    · simp only [List.mem_cons, first, last, List.not_mem_nil, or_self, not_false_eq_true]
    split
    · simp only [List.mem_cons, first, last, List.not_mem_nil, or_self, not_false_eq_true]
    · simp only [List.mem_cons, first, last, List.not_mem_nil, or_self, not_false_eq_true]

/-- A character that is written as ASCII bytes is an ASCII character. -/
theorem ascii_of_encodeChar {character : Char}
    (bytes : ∀ byte ∈ encodeChar character, byte < 0x80) : character.toNat < 0x80 := by
  obtain ⟨byte, member⟩ := List.exists_mem_of_ne_nil (encodeChar character)
    String.utf8EncodeChar_ne_nil
  have ascii := bytes byte member
  rw [← (mem_encodeChar_iff ascii).1 member]
  exact UInt8.lt_iff_toNat_lt.1 ascii

theorem encodeChar_of_ascii {character : Char} (ascii : character.toNat < 0x80) :
    encodeChar character = [UInt8.ofNat character.toNat] := by
  simp only [encodeChar, String.utf8EncodeChar, Char.toNat_val]
  rw [if_pos (by omega)]

/-- ASCII characters are written as a byte each. -/
theorem encode_of_ascii {characters : List Char}
    (ascii : ∀ character ∈ characters, character.toNat < 0x80) :
    encode (String.ofList characters)
      = characters.map fun character => UInt8.ofNat character.toNat := by
  rw [encode, String.toList_ofList]
  induction characters with
  | nil => rfl
  | cons character rest ih =>
    obtain ⟨first, later⟩ := List.forall_mem_cons.1 ascii
    rw [List.flatMap_cons, encodeChar_of_ascii first, ih later, List.map_cons,
      List.singleton_append]

private theorem toNat_ofNat_toNat {byte : UInt8} (ascii : byte < 0x80) :
    (Char.ofNat byte.toNat).toNat = byte.toNat := by
  have small : byte.toNat < 0x80 := UInt8.lt_iff_toNat_lt.1 ascii
  rw [Char.ofNat, dif_pos (.inl (by omega))]
  rfl

/-- An ASCII byte stands among the bytes of a text exactly if its character stands in the text. -/
theorem mem_encode_iff {byte : UInt8} {text : String} (ascii : byte < 0x80) :
    byte ∈ encode text ↔ Char.ofNat byte.toNat ∈ text.toList := by
  simp only [encode, List.mem_flatMap, mem_encodeChar_iff ascii]
  constructor
  · rintro ⟨character, member, same⟩
    rwa [same, Char.ofNat_toNat]
  · exact fun member => ⟨_, member, (toNat_ofNat_toNat ascii).symm⟩

private theorem not_ascii_of_isContinuation {byte : UInt8} (continues : isContinuation byte = true) :
    ¬ byte < 0x80 := by
  simp only [isContinuation, Bool.and_eq_true, decide_eq_true_eq] at continues
  exact UInt8.not_lt.2 continues.1

private theorem isContinuation_of_startsThree {first second : UInt8}
    (starts : startsThree first second = true) : isContinuation second = true := by
  simp only [startsThree, isContinuation] at *
  grind

private theorem isContinuation_of_startsFour {first second : UInt8}
    (starts : startsFour first second = true) : isContinuation second = true := by
  simp only [startsFour, isContinuation] at *
  grind

/-- The character of an ASCII byte is one of the pieces, whatever stands around it. -/
theorem character_mem_pieces {byte : UInt8} {bytes : Bytes} (ascii : byte < 0x80)
    (member : byte ∈ bytes) : .character (Char.ofNat byte.toNat) ∈ pieces bytes := by
  -- A byte that a piece takes beyond its first, and a first one of no character, are not ASCII.
  fun_induction pieces bytes <;>
    grind [not_ascii_of_isContinuation, isContinuation_of_startsThree, isContinuation_of_startsFour]

/-! ## Lenient reading -/

private theorem map_replacement_of_characters {index : Nat} {cut : List Piece} {text : List Char}
    (read : characters index cut = .ok text) : cut.map Piece.replacement = text := by
  induction cut generalizing index text with
  | nil => exact Except.ok.inj read
  | cons piece rest ih =>
    cases piece with
    | malformed length => cases read
    | incomplete => cases read
    | character value =>
      rw [characters] at read
      split at read
      · next values others =>
        obtain rfl := Except.ok.inj read
        rw [List.map_cons, ih others, Piece.replacement]
      · cases read

/-- Lenient reading gives a text that strict reading gives. -/
theorem decodeLenient_of_decode {bytes : Bytes} {text : String} (read : decode bytes = .ok text) :
    decodeLenient bytes = text := by
  rw [decode] at read
  split at read
  · next values found =>
    rw [decodeLenient, map_replacement_of_characters found]
    exact Except.ok.inj read
  · cases read

private theorem characters_of_not_mem {index : Nat} {cut : List Piece}
    (whole : '\uFFFD' ∉ cut.map Piece.replacement) :
    characters index cut = .ok (cut.map Piece.replacement) := by
  induction cut generalizing index with
  | nil => rfl
  | cons piece rest ih =>
    rw [List.map_cons, List.mem_cons, not_or] at whole
    cases piece with
    | malformed length => exact absurd rfl whole.1
    | incomplete => exact absurd rfl whole.1
    | character value =>
      rw [characters, ih whole.2]
      rfl

/-- Lenient reading that puts U+FFFD nowhere is strict reading. -/
theorem decode_of_not_mem {bytes : Bytes} (whole : '\uFFFD' ∉ (decodeLenient bytes).toList) :
    decode bytes = .ok (decodeLenient bytes) := by
  rw [decodeLenient, String.toList_ofList] at whole
  rw [decode, characters_of_not_mem whole, decodeLenient]

/-- What bounds the characters of a text from below, within ASCII, bounds its bytes. -/
theorem le_of_le_decodeLenient {bound : Nat} {bytes : Bytes} (ascii : bound ≤ 0x80)
    (characters : ∀ character ∈ (decodeLenient bytes).toList, bound ≤ character.toNat)
    {byte : UInt8} (member : byte ∈ bytes) : bound ≤ byte.toNat := by
  by_cases small : byte < 0x80
  · have found : Char.ofNat byte.toNat ∈ (decodeLenient bytes).toList := by
      rw [decodeLenient, String.toList_ofList]
      exact List.mem_map.2 ⟨_, character_mem_pieces small member, rfl⟩
    have bounded := characters _ found
    rwa [toNat_ofNat_toNat small] at bounded
  · exact Nat.le_trans ascii (UInt8.le_iff_toNat_le.1 (UInt8.not_lt.1 small))

/-! ## Writing back -/

private theorem toNat_ofNat_of_valid {number : Nat}
    (valid : number < 0xD800 ∨ 0xDFFF < number ∧ number < 0x110000) :
    (Char.ofNat number).toNat = number := by
  rw [Char.ofNat, dif_pos valid]
  rfl

private theorem ofNat_eq (byte : UInt8) {number : Nat} (same : number = byte.toNat) :
    UInt8.ofNat number = byte := by
  rw [same, UInt8.ofNat_toNat]

private theorem bounds_of_isContinuation {byte : UInt8} (continues : isContinuation byte = true) :
    0x80 ≤ byte.toNat ∧ byte.toNat ≤ 0xBF := by
  simpa [isContinuation, UInt8.le_iff_toNat_le] using continues

private theorem encodeChar_ofOne {byte : UInt8} (ascii : byte < 0x80) :
    encodeChar (Char.ofNat byte.toNat) = [byte] := by
  have small : byte.toNat < 0x80 := UInt8.lt_iff_toNat_lt.1 ascii
  have value : (Char.ofNat byte.toNat).toNat = byte.toNat := toNat_ofNat_of_valid (by omega)
  simp only [encodeChar, String.utf8EncodeChar, Char.toNat_val, value]
  rw [if_pos (by omega), UInt8.ofNat_toNat]

private theorem encodeChar_ofTwo {first second : UInt8} (large : ¬ first < 0xC2)
    (small : first < 0xE0) (continues : isContinuation second = true) :
    encodeChar (ofTwo first second) = [first, second] := by
  have low : 0xC2 ≤ first.toNat := UInt8.le_iff_toNat_le.1 (UInt8.not_lt.1 large)
  have high : first.toNat < 0xE0 := UInt8.lt_iff_toNat_lt.1 small
  have bounds := bounds_of_isContinuation continues
  have value : (ofTwo first second).toNat = first.toNat % 32 * 64 + second.toNat % 64 :=
    toNat_ofNat_of_valid (by rw [payload]; omega)
  simp only [encodeChar, String.utf8EncodeChar, Char.toNat_val, value]
  rw [if_neg (by omega), if_pos (by omega), ofNat_eq first (by omega),
    ofNat_eq second (by omega)]

private theorem encodeChar_ofThree {first second third : UInt8} (large : ¬ first < 0xE0)
    (small : first < 0xF0) (starts : startsThree first second = true)
    (continues : isContinuation third = true) :
    encodeChar (ofThree first second third) = [first, second, third] := by
  have low : 0xE0 ≤ first.toNat := UInt8.le_iff_toNat_le.1 (UInt8.not_lt.1 large)
  have high : first.toNat < 0xF0 := UInt8.lt_iff_toNat_lt.1 small
  have bounds := bounds_of_isContinuation continues
  -- The second byte rules out overlong forms and surrogates.
  have second_bounds : 0x80 ≤ second.toNat ∧ second.toNat ≤ 0xBF
      ∧ (first.toNat = 0xE0 → 0xA0 ≤ second.toNat)
      ∧ (first.toNat = 0xED → second.toNat ≤ 0x9F) := by
    simp only [startsThree, isContinuation, ← UInt8.toNat_inj, UInt8.le_iff_toNat_le,
      UInt8.reduceToNat] at starts
    repeat' split at starts
    all_goals
      simp only [Bool.and_eq_true, decide_eq_true_eq] at starts
      omega
  have value : (ofThree first second third).toNat
      = (first.toNat % 16 * 64 + second.toNat % 64) * 64 + third.toNat % 64 :=
    toNat_ofNat_of_valid (by rw [payload, payload]; omega)
  simp only [encodeChar, String.utf8EncodeChar, Char.toNat_val, value]
  rw [if_neg (by omega), if_neg (by omega), if_pos (by omega), ofNat_eq first (by omega),
    ofNat_eq second (by omega), ofNat_eq third (by omega)]

private theorem encodeChar_ofFour {first second third fourth : UInt8} (large : ¬ first < 0xF0)
    (small : ¬ 0xF4 < first) (starts : startsFour first second = true)
    (continues : isContinuation third = true) (ends : isContinuation fourth = true) :
    encodeChar (ofFour first second third fourth) = [first, second, third, fourth] := by
  have low : 0xF0 ≤ first.toNat := UInt8.le_iff_toNat_le.1 (UInt8.not_lt.1 large)
  have high : first.toNat ≤ 0xF4 := UInt8.le_iff_toNat_le.1 (UInt8.not_lt.1 small)
  have third_bounds := bounds_of_isContinuation continues
  have fourth_bounds := bounds_of_isContinuation ends
  -- The second byte rules out overlong forms and what is beyond the code space.
  have second_bounds : 0x80 ≤ second.toNat ∧ second.toNat ≤ 0xBF
      ∧ (first.toNat = 0xF0 → 0x90 ≤ second.toNat)
      ∧ (first.toNat = 0xF4 → second.toNat ≤ 0x8F) := by
    simp only [startsFour, isContinuation, ← UInt8.toNat_inj, UInt8.le_iff_toNat_le,
      UInt8.reduceToNat] at starts
    repeat' split at starts
    all_goals
      simp only [Bool.and_eq_true, decide_eq_true_eq] at starts
      omega
  have value : (ofFour first second third fourth).toNat
      = ((first.toNat % 8 * 64 + second.toNat % 64) * 64 + third.toNat % 64) * 64
        + fourth.toNat % 64 :=
    toNat_ofNat_of_valid (by rw [payload, payload, payload]; omega)
  simp only [encodeChar, String.utf8EncodeChar, Char.toNat_val, value]
  rw [if_neg (by omega), if_neg (by omega), if_neg (by omega), ofNat_eq first (by omega),
    ofNat_eq second (by omega), ofNat_eq third (by omega),
    ofNat_eq fourth (by omega)]

/-- One character written back, after which the rest is written back too. -/
private theorem flatMap_encodeChar_of_character {index : Nat} {value : Char} {taken rest : Bytes}
    {text : List Char} (read : characters index (.character value :: pieces rest) = .ok text)
    (written : encodeChar value = taken)
    (others : ∀ {next : Nat} {tail : List Char}, characters next (pieces rest) = .ok tail →
      tail.flatMap encodeChar = rest) : text.flatMap encodeChar = taken ++ rest := by
  rw [characters] at read
  split at read
  · next tail found =>
    obtain rfl := Except.ok.inj read
    rw [List.flatMap_cons, written, others found]
  · cases read

private theorem flatMap_encodeChar_of_characters {bytes : Bytes} {index : Nat} {text : List Char}
    (read : characters index (pieces bytes) = .ok text) : text.flatMap encodeChar = bytes := by
  fun_induction pieces bytes generalizing index text with
  | case1 =>
    obtain rfl := Except.ok.inj read
    rfl
  | case2 first rest ascii ih =>
    exact flatMap_encodeChar_of_character read (encodeChar_ofOne ascii) ih
  | case5 first _ range second rest small continues ih =>
    have large : ¬ first < 0xC2 := fun low => range (by simp [low])
    exact flatMap_encodeChar_of_character read (encodeChar_ofTwo large small continues) ih
  | case8 first _ _ second large small starts third rest continues ih =>
    exact flatMap_encodeChar_of_character read (encodeChar_ofThree large small starts continues) ih
  | case13 first _ range second _ large starts third continues fourth rest ends ih =>
    have small : ¬ 0xF4 < first := fun high => range (by simp [high])
    exact flatMap_encodeChar_of_character read
      (encodeChar_ofFour large small starts continues ends) ih
  -- In all other cases the first piece is no character.
  | _ => cases read

/-- A byte string that strict reading takes for a text is the one way to write that text. -/
theorem encode_of_decode {bytes : Bytes} {text : String} (read : decode bytes = .ok text) :
    encode text = bytes := by
  rw [decode] at read
  split at read
  · next values found =>
    obtain rfl := Except.ok.inj read
    rw [encode, String.toList_ofList, flatMap_encodeChar_of_characters found]
  · cases read

end LinkRegistry.Utf8
