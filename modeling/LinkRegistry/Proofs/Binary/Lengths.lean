import LinkRegistry.Account
import LinkRegistry.ApplicationLink
import LinkRegistry.ChainLink
import LinkRegistry.SignDocument

/-!
# Lengths inside records

A record has four bytes for each length in it. So a value can be written exactly if every text and
every byte string in it has fewer than 2³² bytes, and every list in it fewer than 2³² items, at
whatever depth. Here the lengths inside each kind of value are listed, without regard to how the
value is written, and each format is shown to ask for these and for nothing else. Main statement,
`records_ask_for_lengths`.
-/

namespace LinkRegistry

/-- The bytes of a text. -/
def textLength (text : String) : Nat := (Utf8.encode text).length

namespace Binary.Codec

variable {α β : Type}

/-- A format can write a value exactly if all its lengths fit their four bytes. -/
def Counts (codec : Codec α) (lengths : α → List Nat) : Prop :=
  ∀ value, codec.fits value = true ↔ ∀ length ∈ lengths value, length < lengthBound

section

variable {codec : Codec α} {lengths : α → List Nat}

theorem Counts.exists_encode?_iff (counts : codec.Counts lengths) {value : α} :
    (∃ record, codec.encode? value = some record)
      ↔ ∀ length ∈ lengths value, length < lengthBound := by
  rw [← counts, encode?]
  cases codec.fits value <;> simp

/-- One length that does not fit its four bytes is enough to keep a value from being written. -/
theorem Counts.fits_eq_false (counts : codec.Counts lengths) {value : α} {length : Nat}
    (inside : length ∈ lengths value) (long : lengthBound ≤ length) :
    codec.fits value = false := by
  rw [← Bool.not_eq_true, counts]
  exact fun all => absurd (all length inside) (Nat.not_lt.2 long)

end

/-! ## Formats of fields -/

theorem counts_word32 : word32.Counts fun _ => [] := by simp [Counts, word32]

theorem counts_word64 : word64.Counts fun _ => [] := by simp [Counts, word64]

theorem counts_bytes : bytes.Counts fun value => [value.length] := by simp [Counts, bytes]

theorem counts_text : text.Counts fun value => [textLength value] := by
  simp [Counts, text, textLength]

section

variable {first codec : Codec α} {second : Codec β} {one lengths : α → List Nat}
  {two : β → List Nat}

theorem Counts.pair (left : first.Counts one) (right : second.Counts two) :
    (first.pair second).Counts fun value => one value.1 ++ two value.2 := by
  intro value
  rw [Codec.pair, Bool.and_eq_true, left value.1, right value.2, List.forall_mem_append]

theorem Counts.either (left : first.Counts one) (right : second.Counts two) :
    (first.either second).Counts (Sum.elim one two) := by
  intro value
  cases value with
  | inl value => exact left value
  | inr value => exact right value

theorem Counts.option (counts : codec.Counts lengths) :
    codec.option.Counts fun value => value.toList.flatMap lengths := by
  intro value
  cases value with
  | none => simp [Codec.option]
  | some value => simpa [Codec.option] using counts value

/-- The items of a list are counted, and so are the lengths inside each. -/
theorem Counts.list (counts : codec.Counts lengths) :
    codec.list.Counts fun values => values.length :: values.flatMap lengths := by
  intro values
  rw [Codec.list, Bool.and_eq_true, decide_eq_true_eq, List.all_eq_true, List.forall_mem_cons,
    List.forall_mem_flatMap]
  exact and_congr_right fun _ => forall₂_congr fun value _ => counts value

/-- Another presentation of the values has the lengths that it presents. -/
theorem Counts.via {others : β → List Nat} (counts : codec.Counts lengths) {wrap : α → β}
    {unwrap : β → α} (same : ∀ value, lengths (unwrap value) = others value) :
    (codec.via wrap unwrap).Counts others := by
  intro value
  rw [← same]
  exact counts (unwrap value)

end

end Binary.Codec

open Binary Binary.Codec

/-! ## Addresses and keys -/

namespace Address

/-- The lengths of the texts of an address. -/
def lengths : Address → List Nat
  | .bech32 value other | .hex value other => [textLength value, textLength other]
  | .base58 value => [textLength value]

theorem counts : codec.Counts lengths := by
  have texts := counts_text.pair counts_text
  intro address
  cases address with
  | bech32 value label => exact texts (value, label)
  | base58 value => exact counts_text value
  | hex value lead => exact texts (value, lead)

end Address

namespace PublicKey

mutual

/-- The lengths inside a key, those of its members with it. -/
def lengths : PublicKey → List Nat
  | .secp256k1 bytes | .ed25519 bytes => [bytes.length]
  | .multisig _ members => members.length :: lengthsAll members

/-- The lengths inside the keys of a list. -/
def lengthsAll : List PublicKey → List Nat
  | [] => []
  | key :: rest => lengths key ++ lengthsAll rest

end

mutual

theorem fits_iff (key : PublicKey) :
    fits key = true ↔ ∀ length ∈ lengths key, length < lengthBound := by
  cases key with
  | secp256k1 bytes | ed25519 bytes => simp [fits, lengths]
  | multisig threshold members =>
    rw [fits, lengths, Bool.and_eq_true, decide_eq_true_eq, fitsAll_iff_lengths members,
      List.forall_mem_cons]

theorem fitsAll_iff_lengths (keys : List PublicKey) :
    fitsAll keys = true ↔ ∀ length ∈ lengthsAll keys, length < lengthBound := by
  cases keys with
  | nil => simp [fitsAll, lengthsAll]
  | cons key rest =>
    rw [fitsAll, lengthsAll, Bool.and_eq_true, fits_iff key, fitsAll_iff_lengths rest,
      List.forall_mem_append]

end

theorem counts : codec.Counts lengths := fits_iff

end PublicKey

/-! ## Envelopes -/

/-- The length of the bytes of a selector. Its positions are counted by a number of their own. -/
def BitSelector.lengths (selector : BitSelector) : List Nat := [selector.bytes.length]

theorem BitSelector.counts : BitSelector.codec.Counts BitSelector.lengths :=
  (counts_word32.pair counts_bytes).via fun _ => rfl

theorem ValueType.counts : ValueType.codec.Counts fun _ => [] := by simp [Counts, codec]

namespace Envelope

mutual

/-- The lengths inside an envelope, those of its parts with it. -/
def lengths : Envelope → List Nat
  | .single _ signature => [signature.length]
  | .multi selector parts => selector.lengths ++ parts.length :: lengthsAll parts

/-- The lengths inside the envelopes of a list. -/
def lengthsAll : List Envelope → List Nat
  | [] => []
  | part :: rest => lengths part ++ lengthsAll rest

end

mutual

theorem fits_iff (envelope : Envelope) :
    fits envelope = true ↔ ∀ length ∈ lengths envelope, length < lengthBound := by
  cases envelope with
  | single valueType signature => simp [fits, lengths]
  | multi selector parts =>
    rw [fits, lengths, Bool.and_eq_true, Bool.and_eq_true, decide_eq_true_eq,
      BitSelector.counts selector, fitsAll_iff_lengths parts, List.forall_mem_append,
      List.forall_mem_cons, and_assoc]

theorem fitsAll_iff_lengths (parts : List Envelope) :
    fitsAll parts = true ↔ ∀ length ∈ lengthsAll parts, length < lengthBound := by
  cases parts with
  | nil => simp [fitsAll, lengthsAll]
  | cons part rest =>
    rw [fitsAll, lengthsAll, Bool.and_eq_true, fits_iff part, fitsAll_iff_lengths rest,
      List.forall_mem_append]

end

theorem counts : codec.Counts lengths := fits_iff

end Envelope

/-! ## Links -/

def Proof.lengths (proof : Proof) : List Nat :=
  proof.publicKey.lengths ++ proof.signature.lengths ++ [textLength proof.plaintextHex]

theorem Proof.counts : Proof.codec.Counts Proof.lengths :=
  (PublicKey.counts.pair (Envelope.counts.pair counts_text)).via fun _ => by simp [lengths]

def ChainLink.lengths (link : ChainLink) : List Nat :=
  [textLength link.owner] ++ link.address.lengths ++ link.proof.lengths
    ++ [textLength link.chainName]

theorem ChainLink.counts : ChainLink.codec.Counts ChainLink.lengths :=
  (counts_text.pair (Address.counts.pair (Proof.counts.pair (counts_text.pair counts_word64)))).via
    fun _ => by simp [lengths]

def BareProof.lengths (proof : BareProof) : List Nat :=
  proof.publicKey.lengths ++ [proof.signature.length, textLength proof.plaintextHex]

theorem BareProof.counts : BareProof.codec.Counts BareProof.lengths :=
  (PublicKey.counts.pair (counts_bytes.pair counts_text)).via fun _ => rfl

def BareChainLink.lengths (link : BareChainLink) : List Nat :=
  [textLength link.owner] ++ link.address.lengths ++ link.proof.lengths
    ++ [textLength link.chainName]

theorem BareChainLink.counts : BareChainLink.codec.Counts BareChainLink.lengths :=
  (counts_text.pair
    (Address.counts.pair (BareProof.counts.pair (counts_text.pair counts_word64)))).via
    fun _ => by simp [lengths]

theorem VerificationState.counts : VerificationState.codec.Counts fun _ => [] := by
  simp [Counts, codec]

def ApplicationLink.lengths (link : ApplicationLink) : List Nat :=
  [link.owner, link.application, link.username, link.clientId].map textLength

theorem ApplicationLink.counts : ApplicationLink.codec.Counts ApplicationLink.lengths :=
  (counts_text.pair (counts_text.pair (counts_text.pair (counts_text.pair
    (VerificationState.counts.pair counts_word64))))).via fun _ => rfl

/-! ## Accounts -/

def BaseAccount.lengths (account : BaseAccount) : List Nat :=
  textLength account.address :: account.publicKey.toList.flatMap PublicKey.lengths

theorem BaseAccount.counts : BaseAccount.codec.Counts BaseAccount.lengths :=
  (counts_text.pair (PublicKey.counts.option.pair (counts_word64.pair counts_word64))).via
    fun _ => by simp [lengths]

def Pictures.lengths (pictures : Pictures) : List Nat :=
  [textLength pictures.profile, textLength pictures.cover]

theorem Pictures.counts : Pictures.codec.Counts Pictures.lengths :=
  (counts_text.pair counts_text).via fun _ => rfl

def Profile.lengths (profile : Profile) : List Nat :=
  profile.account.lengths ++ [profile.dtag, profile.nickname, profile.bio].map textLength
    ++ profile.pictures.lengths

theorem Profile.counts : Profile.codec.Counts Profile.lengths :=
  (BaseAccount.counts.pair (counts_text.pair (counts_text.pair (counts_text.pair
    (Pictures.counts.pair counts_word64))))).via fun _ => by simp [lengths]

def FlatProfile.lengths (profile : FlatProfile) : List Nat :=
  profile.account.lengths ++
    [profile.dtag, profile.nickname, profile.bio, profile.profilePicture,
      profile.coverPicture].map textLength

theorem FlatProfile.counts : FlatProfile.codec.Counts FlatProfile.lengths :=
  (BaseAccount.counts.pair (counts_text.pair (counts_text.pair (counts_text.pair
    (counts_text.pair (counts_text.pair counts_word64)))))).via fun _ => rfl

def Account.lengths : Account → List Nat
  | .base account => account.lengths
  | .profiled profile => profile.lengths

theorem Account.counts : Account.codec.Counts Account.lengths :=
  (BaseAccount.counts.either Profile.counts).via fun account => by cases account <;> rfl

def FlatAccount.lengths : FlatAccount → List Nat
  | .base account => account.lengths
  | .profiled profile => profile.lengths

theorem FlatAccount.counts : FlatAccount.codec.Counts FlatAccount.lengths :=
  (BaseAccount.counts.either FlatProfile.counts).via fun account => by cases account <;> rfl

/-! ## Sign-documents -/

def DirectSignDocument.lengths (document : DirectSignDocument) : List Nat :=
  [document.bodyBytes.length, document.authInfoBytes.length, textLength document.chainId]

theorem DirectSignDocument.counts :
    DirectSignDocument.codec.Counts DirectSignDocument.lengths :=
  (counts_bytes.pair (counts_bytes.pair (counts_text.pair counts_word64))).via fun _ => rfl

def TransactionBody.lengths (body : TransactionBody) : List Nat :=
  body.messages.length :: body.messages.map List.length ++ [textLength body.memo]

theorem TransactionBody.counts : TransactionBody.codec.Counts TransactionBody.lengths :=
  (counts_bytes.list.pair (counts_text.pair counts_word64)).via
    fun body => by simp [lengths, List.map_eq_flatMap]

/-- Every stored record and every binary sign-document can be written exactly if the texts, byte
strings and lists in it are short enough to be counted. -/
theorem records_ask_for_lengths :
    (Account.codec.Counts Account.lengths ∧ FlatAccount.codec.Counts FlatAccount.lengths
      ∧ BaseAccount.codec.Counts BaseAccount.lengths)
    ∧ (ChainLink.codec.Counts ChainLink.lengths ∧ BareChainLink.codec.Counts BareChainLink.lengths
      ∧ ApplicationLink.codec.Counts ApplicationLink.lengths)
    ∧ (Proof.codec.Counts Proof.lengths ∧ Address.codec.Counts Address.lengths
      ∧ PublicKey.codec.Counts PublicKey.lengths)
    ∧ (Envelope.codec.Counts Envelope.lengths ∧ ValueType.codec.Counts (fun _ => [])
      ∧ BitSelector.codec.Counts BitSelector.lengths)
    ∧ DirectSignDocument.codec.Counts DirectSignDocument.lengths
    ∧ TransactionBody.codec.Counts TransactionBody.lengths :=
  ⟨⟨Account.counts, FlatAccount.counts, BaseAccount.counts⟩,
    ⟨ChainLink.counts, BareChainLink.counts, ApplicationLink.counts⟩,
    ⟨Proof.counts, Address.counts, PublicKey.counts⟩,
    ⟨Envelope.counts, ValueType.counts, BitSelector.counts⟩,
    DirectSignDocument.counts, TransactionBody.counts⟩

end LinkRegistry
