import LinkRegistry.Account
import LinkRegistry.Proofs.Binary.RoundTrip

/-!
# Records in their one form

A reader is canonical for a way of writing when it takes nothing off the front of a byte string but
what writing gives. Lengths, numbers and texts have one form each, so the formats put together from
them are canonical. With reading back what was written, this makes a format faithful, and the ways
of putting formats together keep that. Main statement, `FlatAccount.write_group_of_decode`: an
account of the earlier shape and the same account in the present shape are one and the same record.
-/

namespace LinkRegistry

namespace Binary

variable {α β : Type}

/-! ## Readers -/

/-- What the reader takes off the front of a byte string is what writing the value gives. -/
def Reader.Canonical (reader : Reader α) (write : α → Bytes) : Prop :=
  ∀ ⦃input rest : Bytes⦄ ⦃value : α⦄,
    reader input = .ok (value, rest) → write value ++ rest = input

theorem Reader.map_eq_ok_iff {reader : Reader α} {change : α → β} {input rest : Bytes} {value : β} :
    reader.map change input = .ok (value, rest)
      ↔ ∃ found, reader input = .ok (found, rest) ∧ change found = value := by
  rw [Reader.map, Reader.andThen_eq_ok_iff]
  constructor
  · rintro ⟨found, middle, taken, same⟩
    obtain ⟨rfl, rfl⟩ := Prod.mk.inj (Except.ok.inj same)
    exact ⟨found, taken, rfl⟩
  · rintro ⟨found, taken, rfl⟩
    exact ⟨found, rest, taken, rfl⟩

theorem Reader.canonical_number (width : Nat) :
    (Reader.number width).Canonical (Bytes.littleEndian width) := by
  intro input rest value taken
  obtain ⟨front, cut, rfl⟩ := Reader.map_eq_ok_iff.1 taken
  obtain ⟨enough, rfl, rfl⟩ := Reader.bytes_eq_ok_iff.1 cut
  have same := Bytes.littleEndian_ofLittleEndian (input.take width)
  rw [List.length_take_of_le enough] at same
  rw [same, List.take_append_drop]

/-- A number that was read fits the width that it was read at. -/
theorem Reader.number_lt {width number : Nat} {input rest : Bytes}
    (taken : Reader.number width input = .ok (number, rest)) : number < Nat.pow 256 width := by
  obtain ⟨front, cut, rfl⟩ := Reader.map_eq_ok_iff.1 taken
  obtain ⟨enough, rfl, -⟩ := Reader.bytes_eq_ok_iff.1 cut
  have bound := Bytes.ofLittleEndian_lt (input.take width)
  rwa [List.length_take_of_le enough] at bound

theorem canonical_readLength : readLength.Canonical writeLength :=
  Reader.canonical_number 4

/-- A length that was read can be written. -/
theorem readLength_lt {length : Nat} {input rest : Bytes}
    (taken : readLength input = .ok (length, rest)) : length < lengthBound :=
  Reader.number_lt taken

/-- A counted reader is canonical if its items are: the values are as many as were counted. -/
theorem Reader.list_eq_ok {reader : Reader α} {write : α → Bytes} (items : reader.Canonical write)
    {count : Nat} {input rest : Bytes} {values : List α}
    (taken : Reader.list reader count input = .ok (values, rest)) :
    values.length = count ∧ values.flatMap write ++ rest = input := by
  -- What is left after the first item is the input of the others.
  induction count generalizing input values with
  | zero =>
    obtain ⟨rfl, rfl⟩ := Prod.mk.inj (Except.ok.inj taken)
    exact ⟨rfl, rfl⟩
  | succ count ih =>
    obtain ⟨first, middle, head, tail⟩ := Reader.andThen_eq_ok_iff.1 taken
    obtain ⟨others, following, rfl⟩ := Reader.map_eq_ok_iff.1 tail
    have ⟨counted, spelled⟩ := ih following
    refine ⟨congrArg Nat.succ counted, ?_⟩
    rw [List.flatMap_cons, List.append_assoc, spelled, items head]

/-- What holds of every item that a reader takes holds of all items of a list. -/
theorem Reader.forall_of_list {reader : Reader α} {holds : α → Prop}
    (items : ∀ ⦃input rest value⦄, reader input = .ok (value, rest) → holds value)
    {count : Nat} {input rest : Bytes} {values : List α}
    (taken : Reader.list reader count input = .ok (values, rest)) :
    ∀ value ∈ values, holds value := by
  induction count generalizing input values with
  | zero =>
    obtain ⟨rfl, rfl⟩ := Prod.mk.inj (Except.ok.inj taken)
    exact nofun
  | succ count ih =>
    obtain ⟨first, middle, head, tail⟩ := Reader.andThen_eq_ok_iff.1 taken
    obtain ⟨others, following, rfl⟩ := Reader.map_eq_ok_iff.1 tail
    exact List.forall_mem_cons.2 ⟨items head, ih following⟩

/-! ## Codecs -/

namespace Codec

/-- Every record that is read is the one that writing its value gives. -/
def Canonical (codec : Codec α) : Prop :=
  codec.read.Canonical codec.write

/-- Every value that is read can be written again. -/
def Fitting (codec : Codec α) : Prop :=
  ∀ ⦃input rest : Bytes⦄ ⦃value : α⦄,
    codec.read input = .ok (value, rest) → codec.fits value = true

/-- A whole record is what writing its value gives. -/
theorem Canonical.write_of_decode {codec : Codec α} (canonical : codec.Canonical) {record : Bytes}
    {value : α} (found : codec.decode record = .ok value) : codec.write value = record := by
  have spelled := canonical (read_of_decode found)
  rwa [List.append_nil] at spelled

/-! ## What the readers of the formats take -/

theorem read_bytes_eq_ok {input rest value : Bytes} (taken : bytes.read input = .ok (value, rest)) :
    readLength input = .ok (value.length, value ++ rest) := by
  obtain ⟨length, middle, counted, cut⟩ := Reader.andThen_eq_ok_iff.1 taken
  obtain ⟨enough, rfl, rfl⟩ := Reader.bytes_eq_ok_iff.1 cut
  rw [List.length_take_of_le enough, List.take_append_drop, counted]

theorem read_text_eq_ok {input rest : Bytes} {value : String}
    (taken : text.read input = .ok (value, rest)) :
    readLength input = .ok ((Utf8.encode value).length, Utf8.encode value ++ rest) := by
  obtain ⟨length, middle, counted, found⟩ := Reader.andThen_eq_ok_iff.1 taken
  obtain ⟨content, left, cut, read⟩ := Reader.andThen_eq_ok_iff.1 found
  obtain ⟨enough, rfl, rfl⟩ := Reader.bytes_eq_ok_iff.1 cut
  cases decoded : Utf8.decode (middle.take length) with
  | error error =>
    simp only [decoded] at read
    cases read
  | ok found =>
    simp only [decoded] at read
    obtain ⟨rfl, rfl⟩ := Prod.mk.inj (Except.ok.inj read)
    rw [Utf8.encode_of_decode decoded, List.length_take_of_le enough, List.take_append_drop,
      counted]

theorem read_pair_eq_ok {first : Codec α} {second : Codec β} {input rest : Bytes} {value : α × β}
    (taken : (first.pair second).read input = .ok (value, rest)) :
    ∃ middle, first.read input = .ok (value.1, middle) ∧ second.read middle = .ok (value.2, rest) := by
  obtain ⟨left, middle, head, tail⟩ := Reader.andThen_eq_ok_iff.1 taken
  obtain ⟨right, following, rfl⟩ := Reader.map_eq_ok_iff.1 tail
  exact ⟨middle, head, following⟩

theorem read_list_eq_ok {codec : Codec α} {input rest : Bytes} {values : List α}
    (taken : codec.list.read input = .ok (values, rest)) :
    ∃ count middle, readLength input = .ok (count, middle)
      ∧ Reader.list codec.read count middle = .ok (values, rest) :=
  Reader.andThen_eq_ok_iff.1 taken

/-- A tag decides how the rest is read. -/
theorem read_tag_eq_ok {next : UInt8 → Reader α} {input rest : Bytes} {value : α}
    (taken : Reader.byte.andThen next input = .ok (value, rest)) :
    ∃ tag others, input = tag :: others ∧ next tag others = .ok (value, rest) := by
  obtain ⟨tag, others, head, tail⟩ := Reader.andThen_eq_ok_iff.1 taken
  cases input with
  | nil => cases head
  | cons byte remaining =>
    obtain ⟨rfl, rfl⟩ := Prod.mk.inj (Except.ok.inj head)
    exact ⟨byte, remaining, rfl, tail⟩

theorem read_option_eq_ok {codec : Codec α} {input rest : Bytes} {value : Option α}
    (taken : codec.option.read input = .ok (value, rest)) :
    value = none ∧ input = 0 :: rest
      ∨ ∃ found others, value = some found ∧ input = 1 :: others
          ∧ codec.read others = .ok (found, rest) := by
  obtain ⟨flag, others, rfl, tail⟩ := read_tag_eq_ok taken
  split at tail
  · next absent =>
    obtain ⟨rfl, rfl⟩ := Prod.mk.inj (Except.ok.inj tail)
    exact .inl ⟨rfl, congrArg (· :: others) absent⟩
  split at tail
  · next present =>
    obtain ⟨found, read, rfl⟩ := Reader.map_eq_ok_iff.1 tail
    exact .inr ⟨found, others, rfl, congrArg (· :: others) present, read⟩
  · cases tail

theorem read_either_eq_ok {first : Codec α} {second : Codec β} {input rest : Bytes}
    {value : α ⊕ β} (taken : (first.either second).read input = .ok (value, rest)) :
    (∃ found others, value = .inl found ∧ input = 0 :: others
        ∧ first.read others = .ok (found, rest))
      ∨ ∃ found others, value = .inr found ∧ input = 1 :: others
          ∧ second.read others = .ok (found, rest) := by
  obtain ⟨tag, others, rfl, tail⟩ := read_tag_eq_ok taken
  split at tail
  · next zero =>
    obtain ⟨found, read, rfl⟩ := Reader.map_eq_ok_iff.1 tail
    exact .inl ⟨found, others, rfl, congrArg (· :: others) zero, read⟩
  split at tail
  · next one =>
    obtain ⟨found, read, rfl⟩ := Reader.map_eq_ok_iff.1 tail
    exact .inr ⟨found, others, rfl, congrArg (· :: others) one, read⟩
  · cases tail

/-! ## Canonical formats -/

theorem canonical_word32 : word32.Canonical := by
  intro input rest value taken
  obtain ⟨number, cut, rfl⟩ := Reader.map_eq_ok_iff.1 taken
  have whole : (UInt32.ofNat number).toNat = number := UInt32.toNat_ofNat_of_lt' (Reader.number_lt cut)
  have spelled := Reader.canonical_number 4 cut
  rwa [← whole] at spelled

theorem canonical_word64 : word64.Canonical := by
  intro input rest value taken
  obtain ⟨number, cut, rfl⟩ := Reader.map_eq_ok_iff.1 taken
  have whole : (UInt64.ofNat number).toNat = number := UInt64.toNat_ofNat_of_lt' (Reader.number_lt cut)
  have spelled := Reader.canonical_number 8 cut
  rwa [← whole] at spelled

theorem canonical_bytes : bytes.Canonical := by
  intro input rest value taken
  simp only [bytes, List.append_assoc]
  exact canonical_readLength (read_bytes_eq_ok taken)

theorem canonical_text : text.Canonical := by
  intro input rest value taken
  simp only [text, List.append_assoc]
  exact canonical_readLength (read_text_eq_ok taken)

theorem Canonical.pair {first : Codec α} {second : Codec β} (left : first.Canonical)
    (right : second.Canonical) : (first.pair second).Canonical := by
  intro input rest value taken
  obtain ⟨middle, head, tail⟩ := read_pair_eq_ok taken
  simp only [Codec.pair, List.append_assoc]
  rw [right tail, left head]

theorem Canonical.option {codec : Codec α} (canonical : codec.Canonical) :
    codec.option.Canonical := by
  intro input rest value taken
  rcases read_option_eq_ok taken with ⟨rfl, rfl⟩ | ⟨found, others, rfl, rfl, read⟩
  · rfl
  · exact congrArg (1 :: ·) (canonical read)

/-- Another presentation of the values is canonical if it loses nothing. -/
theorem Canonical.via {codec : Codec α} (canonical : codec.Canonical) {wrap : α → β}
    {unwrap : β → α} (undo : ∀ value, unwrap (wrap value) = value) :
    (codec.via wrap unwrap).Canonical := by
  intro input rest value taken
  obtain ⟨found, read, rfl⟩ := Reader.map_eq_ok_iff.1 taken
  simp only [Codec.via, undo]
  exact canonical read

theorem Canonical.either {first : Codec α} {second : Codec β} (left : first.Canonical)
    (right : second.Canonical) : (first.either second).Canonical := by
  intro input rest value taken
  rcases read_either_eq_ok taken with ⟨found, others, rfl, rfl, read⟩ | ⟨found, others, rfl, rfl, read⟩
  · exact congrArg (0 :: ·) (left read)
  · exact congrArg (1 :: ·) (right read)

theorem Canonical.list {codec : Codec α} (canonical : codec.Canonical) : codec.list.Canonical := by
  intro input rest values taken
  obtain ⟨count, middle, counted, listing⟩ := read_list_eq_ok taken
  have ⟨many, spelled⟩ := Reader.list_eq_ok canonical listing
  simp only [Codec.list, many, List.append_assoc]
  rw [spelled, canonical_readLength counted]

/-! ## What is read can be written -/

theorem fitting_word32 : word32.Fitting := fun _ _ _ _ => rfl

theorem fitting_word64 : word64.Fitting := fun _ _ _ _ => rfl

theorem fitting_bytes : bytes.Fitting := fun _ _ _ taken =>
  decide_eq_true (readLength_lt (read_bytes_eq_ok taken))

theorem fitting_text : text.Fitting := fun _ _ _ taken =>
  decide_eq_true (readLength_lt (read_text_eq_ok taken))

theorem Fitting.pair {first : Codec α} {second : Codec β} (left : first.Fitting)
    (right : second.Fitting) : (first.pair second).Fitting := by
  intro input rest value taken
  obtain ⟨middle, head, tail⟩ := read_pair_eq_ok taken
  exact Bool.and_eq_true_iff.2 ⟨left head, right tail⟩

theorem Fitting.option {codec : Codec α} (fitting : codec.Fitting) : codec.option.Fitting := by
  intro input rest value taken
  rcases read_option_eq_ok taken with ⟨rfl, -⟩ | ⟨found, others, rfl, -, read⟩
  · rfl
  · exact fitting read

theorem Fitting.via {codec : Codec α} (fitting : codec.Fitting) {wrap : α → β} {unwrap : β → α}
    (undo : ∀ value, unwrap (wrap value) = value) : (codec.via wrap unwrap).Fitting := by
  intro input rest value taken
  obtain ⟨found, read, rfl⟩ := Reader.map_eq_ok_iff.1 taken
  simp only [Codec.via, undo]
  exact fitting read

theorem Fitting.either {first : Codec α} {second : Codec β} (left : first.Fitting)
    (right : second.Fitting) : (first.either second).Fitting := by
  intro input rest value taken
  rcases read_either_eq_ok taken with ⟨found, others, rfl, -, read⟩ | ⟨found, others, rfl, -, read⟩
  · exact left read
  · exact right read

/-- The number of values was read, so it can be written. -/
theorem Fitting.list {codec : Codec α} (fitting : codec.Fitting) (canonical : codec.Canonical) :
    codec.list.Fitting := by
  intro input rest values taken
  obtain ⟨count, middle, counted, listing⟩ := read_list_eq_ok taken
  have ⟨many, _⟩ := Reader.list_eq_ok canonical listing
  have few : values.length < lengthBound := many ▸ readLength_lt counted
  have all := Reader.forall_of_list fitting listing
  exact Bool.and_eq_true_iff.2 ⟨decide_eq_true few, List.all_eq_true.2 all⟩

/-! ## Faithful formats -/

/-- What is written reads back, and what is read was written. -/
structure Faithful (codec : Codec α) : Prop where
  readsBack : codec.ReadsBack
  canonical : codec.Canonical
  fitting : codec.Fitting

theorem faithful_word32 : word32.Faithful :=
  ⟨readsBack_word32, canonical_word32, fitting_word32⟩

theorem faithful_word64 : word64.Faithful :=
  ⟨readsBack_word64, canonical_word64, fitting_word64⟩

theorem faithful_bytes : bytes.Faithful :=
  ⟨readsBack_bytes, canonical_bytes, fitting_bytes⟩

theorem faithful_text : text.Faithful :=
  ⟨readsBack_text, canonical_text, fitting_text⟩

namespace Faithful

theorem pair {first : Codec α} {second : Codec β} (left : first.Faithful)
    (right : second.Faithful) : (first.pair second).Faithful :=
  ⟨left.readsBack.pair right.readsBack, left.canonical.pair right.canonical,
    left.fitting.pair right.fitting⟩

theorem option {codec : Codec α} (faithful : codec.Faithful) : codec.option.Faithful :=
  ⟨faithful.readsBack.option, faithful.canonical.option, faithful.fitting.option⟩

theorem either {first : Codec α} {second : Codec β} (left : first.Faithful)
    (right : second.Faithful) : (first.either second).Faithful :=
  ⟨left.readsBack.either right.readsBack, left.canonical.either right.canonical,
    left.fitting.either right.fitting⟩

theorem list {codec : Codec α} (faithful : codec.Faithful) : codec.list.Faithful :=
  ⟨faithful.readsBack.list, faithful.canonical.list, faithful.fitting.list faithful.canonical⟩

/-- Another presentation of the values keeps a format faithful if neither direction loses
anything. -/
theorem via {codec : Codec α} (faithful : codec.Faithful) {wrap : α → β} {unwrap : β → α}
    (undo : ∀ value, wrap (unwrap value) = value) (redo : ∀ value, unwrap (wrap value) = value) :
    (codec.via wrap unwrap).Faithful :=
  ⟨faithful.readsBack.via undo, faithful.canonical.via redo, faithful.fitting.via redo⟩

end Faithful

end Codec

end Binary

open Binary Binary.Codec

/-! ## Keys -/

namespace PublicKey

theorem writeAll_eq_flatMap (keys : List PublicKey) :
    writeAll keys = keys.flatMap write := by
  induction keys with
  | nil => rfl
  | cons key others ih => rw [writeAll, ih, List.flatMap_cons]

theorem fitsAll_iff {keys : List PublicKey} :
    fitsAll keys = true ↔ ∀ key ∈ keys, fits key = true := by
  induction keys with
  | nil => simp [fitsAll]
  | cons key others ih => simp [fitsAll, ih]

private theorem fits_and_write_of_readWithin {depth : Nat} {input rest : Bytes} {key : PublicKey}
    (taken : readWithin depth input = .ok (key, rest)) :
    fits key = true ∧ write key ++ rest = input := by
  -- The reader recurses on the depth that it may go to, and so does the proof.
  induction depth generalizing input rest key with
  | zero => cases taken
  | succ depth ih =>
    obtain ⟨tag, others, rfl, tail⟩ := read_tag_eq_ok taken
    split at tail
    · next zero =>
      obtain ⟨content, read, rfl⟩ := Reader.map_eq_ok_iff.1 tail
      rw [zero, write, List.cons_append, canonical_bytes read]
      exact ⟨fitting_bytes read, rfl⟩
    split at tail
    · next one =>
      obtain ⟨content, read, rfl⟩ := Reader.map_eq_ok_iff.1 tail
      rw [one, write, List.cons_append, canonical_bytes read]
      exact ⟨fitting_bytes read, rfl⟩
    split at tail
    · next two =>
      obtain ⟨threshold, after, number, counting⟩ := Reader.andThen_eq_ok_iff.1 tail
      obtain ⟨count, last, counted, listing⟩ := Reader.andThen_eq_ok_iff.1 counting
      obtain ⟨members, read, rfl⟩ := Reader.map_eq_ok_iff.1 listing
      -- The members are the ones nested less deep.
      have ⟨many, spelled⟩ := Reader.list_eq_ok (fun _ _ _ member => (ih member).2) read
      have fit := Reader.forall_of_list (fun _ _ _ member => (ih member).1) read
      constructor
      · rw [fits, many, fitsAll_iff.2 fit, Bool.and_true]
        exact decide_eq_true (readLength_lt counted)
      · rw [two, write, writeAll_eq_flatMap, many]
        simp only [List.cons_append, List.append_assoc]
        rw [spelled, canonical_readLength counted, canonical_word32 number]
    · cases tail

theorem faithful : codec.Faithful where
  readsBack := readsBack
  canonical _ _ _ taken := (fits_and_write_of_readWithin taken).2
  fitting _ _ _ taken := (fits_and_write_of_readWithin taken).1

end PublicKey

/-! ## Accounts -/

theorem BaseAccount.faithful : BaseAccount.codec.Faithful :=
  (faithful_text.pair (PublicKey.faithful.option.pair
    (faithful_word64.pair faithful_word64))).via (fun _ => rfl) (fun _ => rfl)

theorem FlatProfile.faithful : FlatProfile.codec.Faithful :=
  (BaseAccount.faithful.pair (faithful_text.pair (faithful_text.pair (faithful_text.pair
    (faithful_text.pair (faithful_text.pair faithful_word64)))))).via (fun _ => rfl) (fun _ => rfl)

theorem FlatAccount.faithful : FlatAccount.codec.Faithful :=
  (BaseAccount.faithful.either FlatProfile.faithful).via
    (fun account => by cases account <;> rfl) (fun account => by cases account <;> rfl)

/-- Grouping the pictures of a profile moves no field, so the record stays what it is. -/
theorem FlatAccount.write_group (account : FlatAccount) :
    Account.codec.write account.group = FlatAccount.codec.write account := by
  cases account with
  | base account => rfl
  | profiled profile =>
    simp [Account.codec, FlatAccount.codec, Profile.codec, FlatProfile.codec, Pictures.codec,
      FlatAccount.group, FlatProfile.group, Codec.either, Codec.via, Codec.pair]

theorem FlatAccount.write_group_of_decode {record : Bytes} {account : FlatAccount}
    (found : FlatAccount.codec.decode record = .ok account) :
    Account.codec.write account.group = record := by
  rw [FlatAccount.write_group, FlatAccount.faithful.canonical.write_of_decode found]

end LinkRegistry
