import LinkRegistry.LinkError
import LinkRegistry.Proofs.Binary.Guarded
import LinkRegistry.Proofs.Binary.Records
import LinkRegistry.Proofs.Envelope.Tags

/-!
# Damaged records

Every record shows where the tags of its addresses, keys, envelopes and value types stand, however
deep. An unknown tag at such a place is reported as what it is, and so are a record that is cut
short and one with bytes behind it; all three are fatal. Main statements, `Guarded.tellsDamage` and
`Damaged.isFatal`.
-/

namespace LinkRegistry

open Binary Binary.Codec

/-! ## Addresses -/

namespace Address

def tagPlaces (_ : Address) : List TagPlace := [⟨[], .address⟩]

private theorem read_unknown {tag : UInt8} (strange : TagKind.address.bound ≤ tag) (rest : Bytes) :
    codec.read (tag :: rest) = .error (.unknownVariant "address" tag) := by
  have one : tag ≠ 0 := TagKind.ne_of_bound_le strange (by decide)
  have two : tag ≠ 1 := TagKind.ne_of_bound_le strange (by decide)
  have three : tag ≠ 2 := TagKind.ne_of_bound_le strange (by decide)
  simp [codec, Reader.andThen, Reader.byte, Reader.fail, one, two, three]

theorem guarded : codec.Guarded tagPlaces := by
  have texts := guarded_text.pair guarded_text readsBack_text
  constructor
  case marked =>
    intro address place member
    obtain rfl := List.mem_singleton.1 member
    cases address with
    | bech32 value label => exact ⟨0, _, rfl, by decide⟩
    | base58 value => exact ⟨1, _, rfl, by decide⟩
    | hex value lead => exact ⟨2, _, rfl, by decide⟩
  case unknown =>
    intro address _ place member tag rest strange
    obtain rfl := List.mem_singleton.1 member
    exact read_unknown strange rest
  case short =>
    -- What is lost behind the tag is lost of the texts.
    intro address front lost fits whole missing
    cases address with
    | bech32 value label =>
      apply Reader.byte_cut whole
      intro more _ behind
      exact Reader.map_error (texts.short (value, label) more lost fits behind missing)
    | base58 value =>
      apply Reader.byte_cut whole
      intro more _ behind
      exact Reader.map_error (guarded_text.short value more lost fits behind missing)
    | hex value lead =>
      apply Reader.byte_cut whole
      intro more _ behind
      exact Reader.map_error (texts.short (value, lead) more lost fits behind missing)

end Address

/-! ## Keys -/

namespace PublicKey

theorem induction_on_members {motive : PublicKey → Prop}
    (secp256k1 : ∀ bytes, motive (.secp256k1 bytes)) (ed25519 : ∀ bytes, motive (.ed25519 bytes))
    (multisig : ∀ threshold members, (∀ member ∈ members, motive member) →
      motive (.multisig threshold members)) : ∀ key, motive key
  | .secp256k1 bytes => secp256k1 bytes
  | .ed25519 bytes => ed25519 bytes
  | .multisig threshold members => multisig threshold members fun member _ =>
      induction_on_members secp256k1 ed25519 multisig member

mutual

/-- The place of the tag of a key, and of those of its members. -/
def tagPlaces : PublicKey → List TagPlace
  | .secp256k1 _ | .ed25519 _ => [⟨[], .publicKey⟩]
  | .multisig threshold members =>
    ⟨[], .publicKey⟩ :: (tagPlacesAll members).map
      (.behind (2 :: word32.write threshold ++ writeLength members.length))

def tagPlacesAll : List PublicKey → List TagPlace
  | [] => []
  | key :: rest => tagPlaces key ++ (tagPlacesAll rest).map (.behind (write key))

end

private theorem tagPlacesAll_eq (keys : List PublicKey) :
    tagPlacesAll keys = placesOfAll write tagPlaces keys := by
  induction keys with
  | nil => rfl
  | cons key rest ih => rw [tagPlacesAll, placesOfAll, ih]

private theorem read_unknown {tag : UInt8} (strange : TagKind.publicKey.bound ≤ tag) {depth : Nat}
    (deep : 0 < depth) (rest : Bytes) :
    readWithin depth (tag :: rest) = .error (.unknownVariant "public key" tag) := by
  obtain ⟨depth, rfl⟩ := Nat.exists_eq_succ_of_ne_zero (Nat.ne_zero_of_lt deep)
  have one : tag ≠ 0 := TagKind.ne_of_bound_le strange (by decide)
  have two : tag ≠ 1 := TagKind.ne_of_bound_le strange (by decide)
  have three : tag ≠ 2 := TagKind.ne_of_bound_le strange (by decide)
  simp [readWithin, Reader.andThen, Reader.byte, Reader.fail, one, two, three]

private theorem in_write (key : PublicKey) : ∀ place ∈ key.tagPlaces, place.In key.write := by
  induction key using induction_on_members with
  | secp256k1 bytes =>
    intro place member
    obtain rfl := List.mem_singleton.1 member
    exact ⟨0, _, rfl, by decide⟩
  | ed25519 bytes =>
    intro place member
    obtain rfl := List.mem_singleton.1 member
    exact ⟨1, _, rfl, by decide⟩
  | multisig threshold members ih =>
    intro place member
    rcases List.mem_cons.1 member with rfl | deeper
    · exact ⟨2, _, rfl, by decide⟩
    · -- The places of the members stand behind the threshold and the number of members.
      obtain ⟨inner, inside, rfl⟩ := List.mem_map.1 deeper
      rw [tagPlacesAll_eq] at inside
      rw [write, writeAll_eq_flatMap]
      simpa using (in_of_mem_placesOfAll ih inside).behind
        (2 :: word32.write threshold ++ writeLength members.length) []

private theorem readWithin_unknown (key : PublicKey) (fit : fits key = true) {tag : UInt8}
    (rest : Bytes) : ∀ depth, ∀ place ∈ key.tagPlaces, place.before.length < depth →
      place.kind.bound ≤ tag →
      readWithin depth (place.before ++ tag :: rest)
        = .error (.unknownVariant place.kind.name tag) := by
  induction key using induction_on_members with
  | secp256k1 bytes =>
    intro depth place member deep strange
    obtain rfl := List.mem_singleton.1 member
    exact read_unknown strange deep rest
  | ed25519 bytes =>
    intro depth place member deep strange
    obtain rfl := List.mem_singleton.1 member
    exact read_unknown strange deep rest
  | multisig threshold members ih =>
    intro depth place member deep strange
    rcases List.mem_cons.1 member with rfl | deeper
    · exact read_unknown strange deep rest
    · -- One level of nesting takes a byte, so the members are within the depth that is left.
      obtain ⟨depth, rfl⟩ := Nat.exists_eq_succ_of_ne_zero (Nat.ne_zero_of_lt deep)
      obtain ⟨inner, inside, rfl⟩ := List.mem_map.1 deeper
      obtain ⟨few, all⟩ := Bool.and_eq_true_iff.1 fit
      rw [tagPlacesAll_eq] at inside
      simp only [TagPlace.behind, List.cons_append, List.length_cons, List.length_append] at deep
      -- The tag of the threshold key and the threshold are as they were.
      simp only [TagPlace.behind, List.cons_append, List.append_assoc]
      rw [readWithin_multisig, Reader.andThen_ok (readsBack_word32 threshold _ rfl)]
      refine Reader.counted_unknown write tagPlaces depth ?_ (of_decide_eq_true few) (by omega) ?_
        strange inside
      · intro key among short more
        exact readWithin_write key depth more (fitsAll_iff.1 all key among) short
      · intro key among place here deep strange
        exact ih key among (fitsAll_iff.1 all key among) depth place here deep strange

private theorem readWithin_cut (key : PublicKey) (fit : fits key = true) :
    ∀ depth front lost, write key = front ++ lost → lost ≠ [] → front.length ≤ depth →
      readWithin depth front = .error .endOfInput := by
  induction key using induction_on_members with
  | secp256k1 bytes =>
    intro depth front lost whole missing deep
    cases depth with
    | zero => rfl
    | succ depth =>
      apply Reader.byte_cut whole
      intro more _ behind
      exact Reader.map_error (guarded_bytes.short bytes more lost fit behind missing)
  | ed25519 bytes =>
    intro depth front lost whole missing deep
    cases depth with
    | zero => rfl
    | succ depth =>
      apply Reader.byte_cut whole
      intro more _ behind
      exact Reader.map_error (guarded_bytes.short bytes more lost fit behind missing)
  | multisig threshold members ih =>
    -- The cut is in the tag, in the threshold, in the count or in one of the members, and a reader
    -- that is too shallow for them has no input left either.
    intro depth front lost whole missing deep
    cases depth with
    | zero => rfl
    | succ depth =>
      obtain ⟨few, all⟩ := Bool.and_eq_true_iff.1 fit
      simp only [write, List.cons_append, List.append_assoc] at whole
      apply Reader.byte_cut whole
      rintro more rfl behind
      apply Reader.andThen_cut threshold behind missing
      · intro gone some before
        exact guarded_word32.short threshold more gone rfl before some
      · rintro after rfl
        exact readsBack_word32 threshold after rfl
      rintro after rfl counted
      rw [writeAll_eq_flatMap] at counted
      simp only [List.length_cons, List.length_append] at deep
      refine Reader.counted_cut write depth ?_ (of_decide_eq_true few) (by omega) ?_ counted missing
      · intro key among short more
        exact readWithin_write key depth more (fitsAll_iff.1 all key among) short
      · intro key among front lost whole missing deep
        exact ih key among (fitsAll_iff.1 all key among) depth front lost whole missing deep

theorem guarded : codec.Guarded tagPlaces where
  marked := in_write
  unknown key fit place member tag rest strange :=
    readWithin_unknown key fit rest _ place member (by simp) strange
  short key front lost fit whole missing :=
    readWithin_cut key fit _ front lost whole missing (Nat.le_refl _)

end PublicKey

/-! ## Envelopes -/

theorem BitSelector.guarded : BitSelector.codec.Guarded fun _ => [] :=
  (guarded_word32.pair guarded_bytes readsBack_word32).via

namespace ValueType

def tagPlaces (_ : ValueType) : List TagPlace := [⟨[], .valueType⟩]

theorem guarded : codec.Guarded tagPlaces := by
  constructor
  case marked =>
    intro valueType place member
    obtain rfl := List.mem_singleton.1 member
    exact ⟨valueType.tag, [], rfl, by cases valueType <;> decide⟩
  case unknown =>
    intro valueType _ place member tag rest strange
    obtain rfl := List.mem_singleton.1 member
    have one : tag ≠ 0 := TagKind.ne_of_bound_le strange (by decide)
    have two : tag ≠ 1 := TagKind.ne_of_bound_le strange (by decide)
    have three : tag ≠ 2 := TagKind.ne_of_bound_le strange (by decide)
    simp [codec, Reader.andThen, Reader.byte, Reader.fail, one, two, three, TagKind.name]
  case short =>
    intro valueType front lost _ whole missing
    apply Reader.byte_cut whole
    intro more _ behind
    obtain ⟨-, rfl⟩ := List.append_eq_nil_iff.1 behind.symm
    exact absurd rfl missing

end ValueType

namespace Envelope

mutual

/-- The place of the tag of an envelope, and of those inside it. -/
def tagPlaces : Envelope → List TagPlace
  | .single valueType _ => ⟨[], .signature⟩ :: valueType.tagPlaces.map (.behind [0])
  | .multi selector parts =>
    ⟨[], .signature⟩ :: (tagPlacesAll parts).map
      (.behind (1 :: BitSelector.codec.write selector ++ writeLength parts.length))

def tagPlacesAll : List Envelope → List TagPlace
  | [] => []
  | part :: rest => tagPlaces part ++ (tagPlacesAll rest).map (.behind (write part))

end

private theorem tagPlacesAll_eq (parts : List Envelope) :
    tagPlacesAll parts = placesOfAll write tagPlaces parts := by
  induction parts with
  | nil => rfl
  | cons part rest ih => rw [tagPlacesAll, placesOfAll, ih]

private theorem read_unknown {tag : UInt8} (strange : TagKind.signature.bound ≤ tag) {depth : Nat}
    (deep : 0 < depth) (rest : Bytes) :
    readWithin depth (tag :: rest) = .error (.unknownVariant "signature" tag) := by
  obtain ⟨depth, rfl⟩ := Nat.exists_eq_succ_of_ne_zero (Nat.ne_zero_of_lt deep)
  have one : tag ≠ 0 := TagKind.ne_of_bound_le strange (by decide)
  have two : tag ≠ 1 := TagKind.ne_of_bound_le strange (by decide)
  simp [readWithin, Reader.andThen, Reader.byte, Reader.fail, one, two]

private theorem in_write (envelope : Envelope) :
    ∀ place ∈ envelope.tagPlaces, place.In envelope.write := by
  induction envelope with
  | single valueType signature =>
    intro place member
    rcases List.mem_cons.1 member with rfl | deeper
    · exact ⟨0, _, rfl, by decide⟩
    · obtain ⟨inner, inside, rfl⟩ := List.mem_map.1 deeper
      exact (ValueType.guarded.marked valueType inner inside).behind [0]
        (Codec.bytes.write signature)
  | multi selector parts ih =>
    intro place member
    rcases List.mem_cons.1 member with rfl | deeper
    · exact ⟨1, _, rfl, by decide⟩
    · -- The places of the parts stand behind the selector and the number of parts.
      obtain ⟨inner, inside, rfl⟩ := List.mem_map.1 deeper
      rw [tagPlacesAll_eq] at inside
      rw [write, writeAll_eq_flatMap]
      simpa using (in_of_mem_placesOfAll ih inside).behind
        (1 :: BitSelector.codec.write selector ++ writeLength parts.length) []

private theorem readWithin_unknown (envelope : Envelope) (fit : fits envelope = true) {tag : UInt8}
    (rest : Bytes) : ∀ depth, ∀ place ∈ envelope.tagPlaces, place.before.length < depth →
      place.kind.bound ≤ tag →
      readWithin depth (place.before ++ tag :: rest)
        = .error (.unknownVariant place.kind.name tag) := by
  induction envelope with
  | single valueType signature =>
    intro depth place member deep strange
    rcases List.mem_cons.1 member with rfl | deeper
    · exact read_unknown strange deep rest
    · -- The value type is the first that is read behind the tag of the envelope.
      obtain ⟨depth, rfl⟩ := Nat.exists_eq_succ_of_ne_zero (Nat.ne_zero_of_lt deep)
      obtain ⟨inner, inside, rfl⟩ := List.mem_map.1 deeper
      have failed := ValueType.guarded.unknown valueType rfl inner inside tag rest strange
      exact Reader.map_error (Reader.andThen_error failed)
  | multi selector parts ih =>
    intro depth place member deep strange
    rcases List.mem_cons.1 member with rfl | deeper
    · exact read_unknown strange deep rest
    · obtain ⟨depth, rfl⟩ := Nat.exists_eq_succ_of_ne_zero (Nat.ne_zero_of_lt deep)
      obtain ⟨inner, inside, rfl⟩ := List.mem_map.1 deeper
      obtain ⟨selected, all⟩ := Bool.and_eq_true_iff.1 fit
      obtain ⟨fitsSelector, few⟩ := Bool.and_eq_true_iff.1 selected
      rw [tagPlacesAll_eq] at inside
      simp only [TagPlace.behind, List.cons_append, List.length_cons, List.length_append] at deep
      -- The tag of the envelope and the selector are as they were.
      simp only [TagPlace.behind, List.cons_append, List.append_assoc]
      rw [readWithin_multi, Reader.andThen_ok (BitSelector.readsBack selector _ fitsSelector)]
      refine Reader.counted_unknown write tagPlaces depth ?_ (of_decide_eq_true few) (by omega) ?_
        strange inside
      · intro part among short more
        exact readWithin_write part depth more (fitsAll_iff.1 all part among) short
      · intro part among place here deep strange
        exact ih part among (fitsAll_iff.1 all part among) depth place here deep strange

private theorem readWithin_cut (envelope : Envelope) (fit : fits envelope = true) :
    ∀ depth front lost, write envelope = front ++ lost → lost ≠ [] → front.length ≤ depth →
      readWithin depth front = .error .endOfInput := by
  induction envelope with
  | single valueType signature =>
    intro depth front lost whole missing deep
    cases depth with
    | zero => rfl
    | succ depth =>
      have signed := ValueType.guarded.pair guarded_bytes ValueType.readsBack
      have fits := Bool.and_eq_true_iff.2 ⟨rfl, fit⟩
      apply Reader.byte_cut whole
      intro more _ behind
      exact Reader.map_error (signed.short (valueType, signature) more lost fits behind missing)
  | multi selector parts ih =>
    -- As for a threshold key, with the selector in place of the threshold.
    intro depth front lost whole missing deep
    cases depth with
    | zero => rfl
    | succ depth =>
      obtain ⟨selected, all⟩ := Bool.and_eq_true_iff.1 fit
      obtain ⟨fitsSelector, few⟩ := Bool.and_eq_true_iff.1 selected
      simp only [write, List.cons_append, List.append_assoc] at whole
      apply Reader.byte_cut whole
      rintro more rfl behind
      apply Reader.andThen_cut selector behind missing
      · intro gone some before
        exact BitSelector.guarded.short selector more gone fitsSelector before some
      · rintro after rfl
        exact BitSelector.readsBack selector after fitsSelector
      rintro after rfl counted
      rw [writeAll_eq_flatMap] at counted
      simp only [List.length_cons, List.length_append] at deep
      refine Reader.counted_cut write depth ?_ (of_decide_eq_true few) (by omega) ?_ counted missing
      · intro part among short more
        exact readWithin_write part depth more (fitsAll_iff.1 all part among) short
      · intro part among front lost whole missing deep
        exact ih part among (fitsAll_iff.1 all part among) depth front lost whole missing deep

theorem guarded : codec.Guarded tagPlaces where
  marked := in_write
  unknown envelope fit place member tag rest strange :=
    readWithin_unknown envelope fit rest _ place member (by simp) strange
  short envelope front lost fit whole missing :=
    readWithin_cut envelope fit _ front lost whole missing (Nat.le_refl _)

end Envelope

/-! ## Links -/

/-- The places of the tags in a link: that of its address, and behind it those of its proof. -/
def placesOfLink (owner : String) (address : Address) (proof : List TagPlace) : List TagPlace :=
  let behindOwner := address.tagPlaces ++ proof.map (.behind (Address.codec.write address))
  behindOwner.map (.behind (text.write owner))

/-- Links of both layouts differ only in what a proof is. -/
theorem guarded_link {α : Type} {proof : Codec α} {places : α → List TagPlace}
    (guarded : proof.Guarded places) (readsBack : proof.ReadsBack) :
    (text.pair (Address.codec.pair (proof.pair (text.pair word64)))).Guarded fun fields =>
      placesOfLink fields.1 fields.2.1 (places fields.2.2.1) := by
  have last := guarded_text.pair guarded_word64 readsBack_text
  have fields := guarded_text.pair (Address.guarded.pair (guarded.pair last readsBack)
    Address.readsBack) readsBack_text
  exact fields.congr fun fields => by simp [placesOfLink]

def Proof.tagPlaces (proof : Proof) : List TagPlace :=
  proof.publicKey.tagPlaces
    ++ proof.signature.tagPlaces.map (.behind (PublicKey.codec.write proof.publicKey))

theorem Proof.guarded : Proof.codec.Guarded tagPlaces := by
  have fields := PublicKey.guarded.pair (Envelope.guarded.pair guarded_text Envelope.readsBack)
    PublicKey.readsBack
  exact fields.via.congr fun proof => by simp [tagPlaces]

def ChainLink.tagPlaces (link : ChainLink) : List TagPlace :=
  placesOfLink link.owner link.address link.proof.tagPlaces

theorem ChainLink.guarded : ChainLink.codec.Guarded tagPlaces :=
  (guarded_link Proof.guarded Proof.readsBack).via

def BareProof.tagPlaces (proof : BareProof) : List TagPlace := proof.publicKey.tagPlaces

theorem BareProof.guarded : BareProof.codec.Guarded tagPlaces := by
  have fields := PublicKey.guarded.pair (guarded_bytes.pair guarded_text readsBack_bytes)
    PublicKey.readsBack
  exact fields.via.congr fun proof => by simp [tagPlaces]

def BareChainLink.tagPlaces (link : BareChainLink) : List TagPlace :=
  placesOfLink link.owner link.address link.proof.tagPlaces

theorem BareChainLink.guarded : BareChainLink.codec.Guarded tagPlaces :=
  (guarded_link BareProof.guarded BareProof.faithful.readsBack).via

/-! ## Application links -/

theorem VerificationState.guarded : VerificationState.codec.Guarded fun _ => [] := by
  apply Guarded.of_short
  intro state front lost _ whole missing
  apply Reader.byte_cut whole
  intro more _ behind
  obtain ⟨-, rfl⟩ := List.append_eq_nil_iff.1 behind.symm
  exact absurd rfl missing

theorem ApplicationLink.guarded : ApplicationLink.codec.Guarded fun _ => [] := by
  have last := VerificationState.guarded.pair guarded_word64 VerificationState.readsBack
  have fields := guarded_text.pair (guarded_text.pair (guarded_text.pair
    (guarded_text.pair last readsBack_text) readsBack_text) readsBack_text) readsBack_text
  exact fields.via.congr fun link => by simp

/-! ## Accounts -/

def BaseAccount.tagPlaces (account : BaseAccount) : List TagPlace :=
  (account.publicKey.elim [] PublicKey.tagPlaces).map
    (.behind (text.write account.address ++ [1]))

theorem BaseAccount.guarded : BaseAccount.codec.Guarded tagPlaces := by
  have last := guarded_word64.pair guarded_word64 readsBack_word64
  have fields := guarded_text.pair (PublicKey.guarded.option.pair last PublicKey.readsBack.option)
    readsBack_text
  exact fields.via.congr fun account => by simp [tagPlaces, TagPlace.behind_behind]

def Account.tagPlaces : Account → List TagPlace
  | .base account => account.tagPlaces.map (.behind [0])
  | .profiled profile => profile.account.tagPlaces.map (.behind [1])

theorem Pictures.guarded : Pictures.codec.Guarded fun _ => [] :=
  (guarded_text.pair guarded_text readsBack_text).via

theorem Profile.guarded : Profile.codec.Guarded fun profile => profile.account.tagPlaces := by
  have last := Pictures.guarded.pair guarded_word64 Pictures.faithful.readsBack
  have fields := BaseAccount.guarded.pair (guarded_text.pair (guarded_text.pair
    (guarded_text.pair last readsBack_text) readsBack_text) readsBack_text)
    BaseAccount.faithful.readsBack
  exact fields.via.congr fun profile => by simp

theorem Account.guarded : Account.codec.Guarded tagPlaces :=
  (BaseAccount.guarded.either Profile.guarded).via.congr fun account => by cases account <;> rfl

def FlatAccount.tagPlaces : FlatAccount → List TagPlace
  | .base account => account.tagPlaces.map (.behind [0])
  | .profiled profile => profile.account.tagPlaces.map (.behind [1])

theorem FlatProfile.guarded :
    FlatProfile.codec.Guarded fun profile => profile.account.tagPlaces := by
  have last := guarded_text.pair (guarded_text.pair guarded_word64 readsBack_text) readsBack_text
  have fields := BaseAccount.guarded.pair (guarded_text.pair (guarded_text.pair
    (guarded_text.pair last readsBack_text) readsBack_text) readsBack_text)
    BaseAccount.faithful.readsBack
  exact fields.via.congr fun profile => by simp

theorem FlatAccount.guarded : FlatAccount.codec.Guarded tagPlaces :=
  (BaseAccount.guarded.either FlatProfile.guarded).via.congr fun account => by
    cases account <;> rfl

/-! ## Damage -/

namespace Binary.Codec

variable {α : Type} {codec : Codec α} {places : α → List TagPlace} {content : Bytes}
  {cause : LinkError}

/-- Reads a whole record. What is wrong with it is told as what is wrong with a link. -/
def load (codec : Codec α) (content : Bytes) : Except LinkError α :=
  (codec.decode content).mapError LinkError.ofBinary

/-- Bytes that come of a record by one of three kinds of damage, and what reading them reports. -/
inductive Damaged (codec : Codec α) (places : α → List TagPlace) : Bytes → LinkError → Prop
  /-- In place of a tag there is one that is not known, with anything behind it. -/
  | unknown {value : α} {record : Bytes} {place : TagPlace} (tag : UInt8) (rest : Bytes)
      (written : codec.encode? value = some record) (member : place ∈ places value)
      (strange : place.kind.bound ≤ tag) :
      Damaged codec places (place.before ++ tag :: rest) (.unsupportedVariant place.kind.name tag)
  /-- The end is missing. -/
  | short {value : α} {record front : Bytes} (written : codec.encode? value = some record)
      (begins : front <+: record) (proper : front ≠ record) :
      Damaged codec places front (.decode (.record .endOfInput))
  /-- There is more behind the end. -/
  | long {value : α} {record more : Bytes} (written : codec.encode? value = some record)
      (some : more ≠ []) : Damaged codec places (record ++ more) (.decode (.record .trailingBytes))

/-- Tags stand at all the places of a record, and damage to it is reported. -/
structure TellsDamage (codec : Codec α) (places : α → List TagPlace) : Prop where
  marked : ∀ value record, codec.encode? value = some record →
    ∀ place ∈ places value, place.In record
  told : ∀ content cause, codec.Damaged places content cause → codec.load content = .error cause

theorem decode_of_read_error {error : Error} (failed : codec.read content = .error error) :
    codec.decode content = .error error := by
  rw [decode, failed]

theorem fits_of_encode? {value : α} {record : Bytes} (written : codec.encode? value = some record) :
    codec.fits value = true := by
  by_contra beyond
  rw [encode?, if_neg beyond] at written
  cases written

theorem Guarded.tellsDamage (guarded : codec.Guarded places) (readsBack : codec.ReadsBack) :
    codec.TellsDamage places := by
  constructor
  case marked =>
    intro value record written place member
    rw [← write_of_encode? written]
    exact guarded.marked value place member
  case told =>
    intro content cause damaged
    cases damaged with
    | unknown tag rest written member strange =>
      have failed := guarded.unknown _ (fits_of_encode? written) _ member _ rest strange
      rw [load, decode_of_read_error failed]
      rfl
    | short written begins proper =>
      obtain ⟨lost, rfl⟩ := begins
      -- The front is not the whole record, so something of it is lost.
      have missing : lost ≠ [] := by
        rintro rfl
        exact proper (List.append_nil _).symm
      have failed := guarded.short _ _ lost (fits_of_encode? written) (write_of_encode? written)
        missing
      rw [load, decode_of_read_error failed]
      rfl
    | @long value record more written some =>
      have taken := readsBack value more (fits_of_encode? written)
      rw [write_of_encode? written] at taken
      have left : ¬ more.isEmpty = true := fun empty => some (List.isEmpty_iff.1 empty)
      rw [load, decode, taken]
      simp only [left]
      rfl

theorem Damaged.isFatal (damaged : codec.Damaged places content cause) :
    cause.isFatal = true := by
  cases damaged <;> rfl

end Binary.Codec

/-! ## Stored records -/

theorem FlatAccount.tellsDamage : FlatAccount.codec.TellsDamage FlatAccount.tagPlaces :=
  FlatAccount.guarded.tellsDamage FlatAccount.faithful.readsBack

theorem Account.tellsDamage : Account.codec.TellsDamage Account.tagPlaces :=
  Account.guarded.tellsDamage Account.faithful.readsBack

theorem ApplicationLink.tellsDamage : ApplicationLink.codec.TellsDamage fun _ => [] :=
  ApplicationLink.guarded.tellsDamage ApplicationLink.faithful.readsBack

theorem BareChainLink.tellsDamage : BareChainLink.codec.TellsDamage BareChainLink.tagPlaces :=
  BareChainLink.guarded.tellsDamage BareChainLink.faithful.readsBack

theorem ChainLink.tellsDamage : ChainLink.codec.TellsDamage ChainLink.tagPlaces :=
  ChainLink.guarded.tellsDamage ChainLink.readsBack

end LinkRegistry
