import LinkRegistry.ChainLink
import LinkRegistry.Proofs.Text.Utf8

/-!
# Reading back records

A codec reads back when a value whose lengths can be written is taken off the front of its bytes,
whatever follows them. The formats of texts, numbers, addresses, keys and envelopes do, and hence
those of the records put together from them. Main statement, `ChainLink.readsBack`.
-/

namespace LinkRegistry

namespace Binary

variable {α β : Type}

/-! ## Readers -/

theorem Reader.andThen_ok {first : Reader α} {next : α → Reader β} {input rest : Bytes} {value : α}
    (taken : first input = .ok (value, rest)) : first.andThen next input = next value rest := by
  simp [Reader.andThen, taken]

theorem Reader.map_ok {reader : Reader α} {change : α → β} {input rest : Bytes} {value : α}
    (taken : reader input = .ok (value, rest)) :
    reader.map change input = .ok (change value, rest) :=
  Reader.andThen_ok taken

theorem Reader.andThen_eq_ok_iff {first : Reader α} {next : α → Reader β} {input rest : Bytes}
    {value : β} :
    first.andThen next input = .ok (value, rest)
      ↔ ∃ found middle, first input = .ok (found, middle) ∧ next found middle = .ok (value, rest) := by
  unfold andThen
  rcases first input with error | ⟨found, middle⟩
  · simp
  · simp [and_assoc]

theorem Reader.bytes_eq_ok_iff {count : Nat} {input front rest : Bytes} :
    Reader.bytes count input = .ok (front, rest)
      ↔ count ≤ input.length ∧ front = input.take count ∧ rest = input.drop count := by
  unfold Reader.bytes
  split
  · next enough => simp [enough, eq_comm]
  · next short => simp [short]

theorem Reader.bytes_append (front rest : Bytes) :
    Reader.bytes front.length (front ++ rest) = .ok (front, rest) := by
  simp [Reader.bytes]

theorem Reader.number_littleEndian (width number : Nat) (rest : Bytes)
    (fits : number < Nat.pow 256 width) :
    Reader.number width (Bytes.littleEndian width number ++ rest) = .ok (number, rest) := by
  have taken := Reader.bytes_append (Bytes.littleEndian width number) rest
  rw [Bytes.length_littleEndian] at taken
  rw [Reader.number, Reader.map_ok taken, Bytes.ofLittleEndian_littleEndian width number fits]

theorem readLength_writeLength {length : Nat} (rest : Bytes) (fits : length < lengthBound) :
    readLength (writeLength length ++ rest) = .ok (length, rest) :=
  Reader.number_littleEndian 4 length rest fits

/-! ## Codecs -/

namespace Codec

/-- Every value whose lengths can be written is read back from its bytes. -/
def ReadsBack (codec : Codec α) : Prop :=
  ∀ value rest, codec.fits value = true → codec.read (codec.write value ++ rest) = .ok (value, rest)

/-- A byte string that is one value is taken as a whole. -/
theorem read_of_decode {codec : Codec α} {content : Bytes} {value : α}
    (found : codec.decode content = .ok value) : codec.read content = .ok (value, []) := by
  unfold decode at found
  split at found
  · cases found
  · next other rest taken =>
    split at found
    · next finished =>
      obtain rfl := Except.ok.inj found
      rw [taken, List.isEmpty_iff.1 finished]
    · cases found

theorem write_of_encode? {codec : Codec α} {value : α} {record : Bytes}
    (written : codec.encode? value = some record) : codec.write value = record := by
  unfold encode? at written
  split at written
  · exact Option.some.inj written
  · cases written

/-- Bytes that are just the record of a value are that value. -/
theorem ReadsBack.decode_encode {codec : Codec α} (readsBack : codec.ReadsBack) {value : α}
    {record : Bytes} (written : codec.encode? value = some record) :
    codec.decode record = .ok value := by
  unfold encode? at written
  split at written
  · next fits =>
    have taken := readsBack value [] fits
    rw [List.append_nil] at taken
    simp [decode, ← Option.some.inj written, taken]
  · cases written

/-- What is written before other bytes can be told from them. -/
theorem ReadsBack.append_inj {codec : Codec α} (readsBack : codec.ReadsBack) {one two : α}
    {left right : Bytes} (fitsOne : codec.fits one = true) (fitsTwo : codec.fits two = true)
    (same : codec.write one ++ left = codec.write two ++ right) : one = two ∧ left = right := by
  have first := readsBack one left fitsOne
  rw [same, readsBack two right fitsTwo] at first
  obtain ⟨rfl, rfl⟩ := Prod.mk.inj (Except.ok.inj first)
  exact ⟨rfl, rfl⟩

theorem readsBack_word32 : word32.ReadsBack := by
  intro value rest _
  have taken := Reader.number_littleEndian 4 value.toNat rest value.toNat_lt
  simp [word32, Reader.map_ok taken]

theorem readsBack_word64 : word64.ReadsBack := by
  intro value rest _
  have taken := Reader.number_littleEndian 8 value.toNat rest value.toNat_lt
  simp [word64, Reader.map_ok taken]

theorem readsBack_bytes : bytes.ReadsBack := by
  intro value rest fits
  have counted := readLength_writeLength (value ++ rest) (of_decide_eq_true fits)
  simp only [bytes, List.append_assoc]
  rw [Reader.andThen_ok counted, Reader.bytes_append]

theorem readsBack_text : text.ReadsBack := by
  intro value rest fits
  have counted := readLength_writeLength (Utf8.encode value ++ rest) (of_decide_eq_true fits)
  simp only [text, List.append_assoc]
  rw [Reader.andThen_ok counted, readText, Reader.andThen_ok (Reader.bytes_append _ _),
    Utf8.decode_encode]
  rfl

theorem ReadsBack.pair {first : Codec α} {second : Codec β} (left : first.ReadsBack)
    (right : second.ReadsBack) : (first.pair second).ReadsBack := by
  rintro ⟨one, two⟩ rest fits
  have ⟨fitsOne, fitsTwo⟩ := Bool.and_eq_true_iff.1 fits
  simp only [Codec.pair, List.append_assoc]
  rw [Reader.andThen_ok (left one _ fitsOne), Reader.map_ok (right two rest fitsTwo)]

theorem ReadsBack.option {codec : Codec α} (readsBack : codec.ReadsBack) :
    codec.option.ReadsBack := by
  intro value rest fits
  cases value with
  | none => rfl
  | some found =>
    have taken := readsBack found rest fits
    exact (Reader.map_ok taken : codec.read.map some (codec.write found ++ rest) = _)

theorem ReadsBack.either {first : Codec α} {second : Codec β} (left : first.ReadsBack)
    (right : second.ReadsBack) : (first.either second).ReadsBack := by
  intro value rest fits
  cases value with
  | inl one =>
    have taken := left one rest fits
    exact (Reader.map_ok taken : first.read.map Sum.inl (first.write one ++ rest) = _)
  | inr two =>
    have taken := right two rest fits
    exact (Reader.map_ok taken : second.read.map Sum.inr (second.write two ++ rest) = _)

/-- As many values as were written are taken off the front of their bytes. -/
theorem ReadsBack.list_flatMap {codec : Codec α} (readsBack : codec.ReadsBack) (values : List α)
    (rest : Bytes) (fits : values.all codec.fits = true) :
    Reader.list codec.read values.length (values.flatMap codec.write ++ rest)
      = .ok (values, rest) := by
  induction values with
  | nil => rfl
  | cons value others ih =>
    have ⟨fitsValue, fitsOthers⟩ := Bool.and_eq_true_iff.1 fits
    have first := readsBack value (others.flatMap codec.write ++ rest) fitsValue
    simp only [List.length_cons, Reader.list, List.flatMap_cons, List.append_assoc]
    rw [Reader.andThen_ok first, Reader.map_ok (ih fitsOthers)]

theorem ReadsBack.list {codec : Codec α} (readsBack : codec.ReadsBack) :
    codec.list.ReadsBack := by
  intro values rest fits
  have ⟨few, all⟩ := Bool.and_eq_true_iff.1 fits
  have counted := readLength_writeLength (values.flatMap codec.write ++ rest)
    (of_decide_eq_true few)
  simp only [Codec.list, List.append_assoc]
  rw [Reader.andThen_ok counted, readsBack.list_flatMap values rest all]

/-- Another presentation of the values reads back if it can be undone. -/
theorem ReadsBack.via {codec : Codec α} (readsBack : codec.ReadsBack) {wrap : α → β}
    {unwrap : β → α} (undo : ∀ value, wrap (unwrap value) = value) :
    (codec.via wrap unwrap).ReadsBack := by
  intro value rest fits
  simp only [Codec.via]
  rw [Reader.map_ok (readsBack (unwrap value) rest fits), undo]

end Codec

end Binary

open Binary Binary.Codec

/-! ## Addresses -/

namespace Address

private theorem read_bech32 (input : Bytes) :
    codec.read (0 :: input)
      = (text.pair text).read.map (fun (value, label) => .bech32 value label) input := rfl

private theorem read_base58 (input : Bytes) :
    codec.read (1 :: input) = text.read.map .base58 input := rfl

private theorem read_hex (input : Bytes) :
    codec.read (2 :: input)
      = (text.pair text).read.map (fun (value, lead) => .hex value lead) input := rfl

theorem readsBack : codec.ReadsBack := by
  intro address rest fits
  cases address with
  | bech32 value label =>
    have taken := readsBack_text.pair readsBack_text (value, label) rest fits
    exact (read_bech32 _).trans (Reader.map_ok taken)
  | base58 value =>
    have taken := readsBack_text value rest fits
    exact (read_base58 _).trans (Reader.map_ok taken)
  | hex value lead =>
    have taken := readsBack_text.pair readsBack_text (value, lead) rest fits
    exact (read_hex _).trans (Reader.map_ok taken)

end Address

/-! ## Keys

The reader is given a depth, which the length of the input supplies: a record is longer than each
of the records inside it. -/

namespace PublicKey

private theorem readWithin_secp256k1 (depth : Nat) (input : Bytes) :
    readWithin (depth + 1) (0 :: input) = Codec.bytes.read.map .secp256k1 input := rfl

private theorem readWithin_ed25519 (depth : Nat) (input : Bytes) :
    readWithin (depth + 1) (1 :: input) = Codec.bytes.read.map .ed25519 input := rfl

theorem readWithin_multisig (depth : Nat) (input : Bytes) :
    readWithin (depth + 1) (2 :: input)
      = (word32.read.andThen fun threshold => readLength.andThen fun count =>
          (Reader.list (readWithin depth) count).map (.multisig threshold)) input := rfl

mutual

theorem readWithin_write (key : PublicKey) (depth : Nat) (rest : Bytes) (fit : fits key = true)
    (deep : (write key).length ≤ depth) :
    readWithin depth (write key ++ rest) = .ok (key, rest) := by
  cases depth with
  | zero => cases key <;> simp [write] at deep
  | succ depth =>
    cases key with
    | secp256k1 content =>
      rw [write, List.cons_append, readWithin_secp256k1,
        Reader.map_ok (readsBack_bytes content rest fit)]
    | ed25519 content =>
      rw [write, List.cons_append, readWithin_ed25519,
        Reader.map_ok (readsBack_bytes content rest fit)]
    | multisig threshold members =>
      have ⟨few, all⟩ := Bool.and_eq_true_iff.1 fit
      -- The tag takes a byte of the depth, and the members need no more than is left.
      have inside : (writeAll members).length ≤ depth := by
        simp only [write, List.cons_append, List.length_cons, List.length_append] at deep
        omega
      have taken := list_readWithin_writeAll members depth rest all inside
      simp only [write, List.cons_append, List.append_assoc]
      rw [readWithin_multisig, Reader.andThen_ok (readsBack_word32 threshold _ rfl),
        Reader.andThen_ok (readLength_writeLength _ (of_decide_eq_true few)), Reader.map_ok taken]

theorem list_readWithin_writeAll (keys : List PublicKey) (depth : Nat) (rest : Bytes)
    (fit : fitsAll keys = true) (deep : (writeAll keys).length ≤ depth) :
    Reader.list (readWithin depth) keys.length (writeAll keys ++ rest) = .ok (keys, rest) := by
  cases keys with
  | nil => rfl
  | cons key others =>
    have ⟨fitsKey, fitsOthers⟩ := Bool.and_eq_true_iff.1 fit
    simp only [writeAll, List.length_append] at deep
    have first := readWithin_write key depth (writeAll others ++ rest) fitsKey (by omega)
    have later := list_readWithin_writeAll others depth rest fitsOthers (by omega)
    simp only [List.length_cons, Reader.list, writeAll, List.append_assoc]
    rw [Reader.andThen_ok first, Reader.map_ok later]

end

theorem readsBack : codec.ReadsBack := fun key rest fit =>
  readWithin_write key _ rest fit (by simp [codec])

end PublicKey

/-! ## Envelopes -/

theorem BitSelector.readsBack : BitSelector.codec.ReadsBack :=
  (readsBack_word32.pair readsBack_bytes).via fun _ => rfl

theorem ValueType.readsBack : ValueType.codec.ReadsBack := by
  intro valueType rest _
  cases valueType <;> rfl

namespace Envelope

private theorem readWithin_single (depth : Nat) (input : Bytes) :
    readWithin (depth + 1) (0 :: input)
      = (ValueType.codec.pair Codec.bytes).read.map
          (fun (valueType, signature) => .single valueType signature) input := rfl

theorem readWithin_multi (depth : Nat) (input : Bytes) :
    readWithin (depth + 1) (1 :: input)
      = (BitSelector.codec.read.andThen fun selector => readLength.andThen fun count =>
          (Reader.list (readWithin depth) count).map (.multi selector)) input := rfl

mutual

theorem readWithin_write (envelope : Envelope) (depth : Nat) (rest : Bytes)
    (fit : fits envelope = true) (deep : (write envelope).length ≤ depth) :
    readWithin depth (write envelope ++ rest) = .ok (envelope, rest) := by
  cases depth with
  | zero => cases envelope <;> simp [write] at deep
  | succ depth =>
    cases envelope with
    | single valueType signature =>
      have taken := ValueType.readsBack.pair readsBack_bytes (valueType, signature) rest
        (Bool.and_eq_true_iff.2 ⟨rfl, fit⟩)
      exact (readWithin_single depth _).trans (Reader.map_ok taken)
    | multi selector parts =>
      have ⟨selected, all⟩ := Bool.and_eq_true_iff.1 fit
      have ⟨fitsSelector, few⟩ := Bool.and_eq_true_iff.1 selected
      -- As for keys, the tag takes a byte of the depth.
      have inside : (writeAll parts).length ≤ depth := by
        simp only [write, List.cons_append, List.length_cons, List.length_append] at deep
        omega
      have taken := list_readWithin_writeAll parts depth rest all inside
      simp only [write, List.cons_append, List.append_assoc]
      rw [readWithin_multi, Reader.andThen_ok (BitSelector.readsBack selector _ fitsSelector),
        Reader.andThen_ok (readLength_writeLength _ (of_decide_eq_true few)), Reader.map_ok taken]

theorem list_readWithin_writeAll (parts : List Envelope) (depth : Nat) (rest : Bytes)
    (fit : fitsAll parts = true) (deep : (writeAll parts).length ≤ depth) :
    Reader.list (readWithin depth) parts.length (writeAll parts ++ rest) = .ok (parts, rest) := by
  cases parts with
  | nil => rfl
  | cons part others =>
    have ⟨fitsPart, fitsOthers⟩ := Bool.and_eq_true_iff.1 fit
    simp only [writeAll, List.length_append] at deep
    have first := readWithin_write part depth (writeAll others ++ rest) fitsPart (by omega)
    have later := list_readWithin_writeAll others depth rest fitsOthers (by omega)
    simp only [List.length_cons, Reader.list, writeAll, List.append_assoc]
    rw [Reader.andThen_ok first, Reader.map_ok later]

end

theorem readsBack : codec.ReadsBack := fun envelope rest fit =>
  readWithin_write envelope _ rest fit (by simp [codec])

end Envelope

/-! ## Links -/

theorem Proof.readsBack : Proof.codec.ReadsBack :=
  (PublicKey.readsBack.pair (Envelope.readsBack.pair readsBack_text)).via fun _ => rfl

/-- The record of a link reads as that link. -/
theorem ChainLink.readsBack : ChainLink.codec.ReadsBack :=
  (readsBack_text.pair (Address.readsBack.pair
    (Proof.readsBack.pair (readsBack_text.pair readsBack_word64)))).via fun _ => rfl

end LinkRegistry
