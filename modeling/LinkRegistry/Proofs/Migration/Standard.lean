import LinkRegistry.Migration.Standard
import LinkRegistry.Proofs.Migration.Step
import LinkRegistry.Proofs.Store.Key

/-!
# What the standard passes write

Which entries each pass writes, and hence what each step leaves among the chain links and in the
index of their owners.
-/

namespace LinkRegistry

/-- The key that a chain link of the earlier layout is moved to. -/
def BareChainLink.key (link : BareChainLink) : Bytes :=
  Key.chainLink link.owner link.chainName link.address.value

/-- The key of the index entry of a chain link of the earlier layout. -/
def BareChainLink.ownerIndexKey (link : BareChainLink) : Bytes :=
  Key.ownerIndex link.chainName link.address.value link.owner

/-- The key that an application link is moved to. -/
def ApplicationLink.key (link : ApplicationLink) : Bytes :=
  Key.applicationLink link.owner link.application link.username

namespace Migration

/-! ## Parts of transformations -/

section Parts

variable {α : Type} {codec : Binary.Codec α} {key value : Bytes} {record : α}

theorem readRecord_eq_ok_iff :
    readRecord codec key value = .ok record ↔ codec.decode value = .ok record := by
  rw [readRecord]
  cases codec.decode value <;> simp

theorem writeRecord_eq_ok_iff {schema : String} :
    writeRecord schema codec key record = .ok value ↔ codec.encode? record = some value := by
  rw [writeRecord]
  cases codec.encode? record <;> simp

theorem atKey_eq_ok_iff {outcome : Except LinkError α} :
    atKey key outcome = .ok record ↔ outcome = .ok record := by
  cases outcome <;> simp [atKey]

end Parts

/-! ## Passes that write in place -/

/-- A pass that keeps every record at its key and has no index. -/
def Pass.InPlace (pass : Pass) : Prop :=
  ∀ key content outcome, pass.transform key content = .ok outcome →
    ∃ value, outcome = .keep key value []

section InPlace

variable {pass : Pass} {step : Step} {store : Store} {changes : List Store.Change}
  {reports : List PassReport} {key value : Bytes}

theorem Pass.InPlace.puts_iff (inPlace : pass.InPlace) :
    pass.Puts store (key, value)
      ↔ pass.scope <+: key ∧ ∃ content, store.get? key = some content
          ∧ pass.transform key content = .ok (.keep key value []) := by
  constructor
  · rintro ⟨source, outcome, ⟨under, content, held, transformed⟩, wrote⟩
    obtain ⟨record, rfl⟩ := inPlace source content outcome transformed
    simp only [Outcome.record?, Outcome.index, Option.some.injEq, Prod.mk.injEq, List.not_mem_nil,
      or_false] at wrote
    obtain ⟨rfl, rfl⟩ := wrote
    exact ⟨under, content, held, transformed⟩
  · rintro ⟨under, content, held, transformed⟩
    exact ⟨key, _, ⟨under, content, held, transformed⟩, .inl rfl⟩

/-- A step that works in place changes each record under its scope on its own. -/
theorem Step.get?_land_inPlace (inPlace : pass.InPlace) (only : step.passes = [pass])
    (planned : step.plan store = .ok (changes, reports)) (other : key ≠ Key.schemaVersion)
    (under : pass.scope <+: key) :
    (step.land changes store).get? key = some value
      ↔ ∃ content, store.get? key = some content
          ∧ pass.transform key content = .ok (.keep key value []) := by
  obtain ⟨own, each⟩ := step.planned planned pass (by simp [only])
  simp only [step.get?_land_iff planned other, only, List.mem_singleton, exists_eq_left,
    forall_eq, inPlace.puts_iff, under, true_and]
  refine ⟨fun either => either.elim id fun ⟨⟨unwritten, _⟩, held⟩ => ?_, .inl⟩
  -- A record under the scope was decided for, so it cannot have been left as it was.
  obtain ⟨outcome, transformed⟩ := each.decides key value under held
  obtain ⟨record, rfl⟩ := inPlace key value outcome transformed
  exact absurd ⟨value, held, transformed⟩ (unwritten record)

/-- A step that works in place takes no record away. -/
theorem Step.exists_get?_land_inPlace (inPlace : pass.InPlace) (only : step.passes = [pass])
    (planned : step.plan store = .ok (changes, reports)) (other : key ≠ Key.schemaVersion)
    (under : pass.scope <+: key) (held : store.get? key = some value) :
    ∃ next, (step.land changes store).get? key = some next := by
  obtain ⟨own, each⟩ := step.planned planned pass (by simp [only])
  obtain ⟨outcome, transformed⟩ := each.decides key value under held
  obtain ⟨next, rfl⟩ := inPlace key value outcome transformed
  exact ⟨next, (step.get?_land_inPlace inPlace only planned other under).2
    ⟨value, held, transformed⟩⟩

theorem Step.get?_land_inPlace_of_not_scope (inPlace : pass.InPlace) (only : step.passes = [pass])
    (planned : step.plan store = .ok (changes, reports)) (other : key ≠ Key.schemaVersion)
    (outside : ¬ pass.scope <+: key) :
    (step.land changes store).get? key = store.get? key :=
  step.get?_land_of_untouched planned other (by simpa [only] using outside)
    fun each member _ written => by
      obtain rfl : each = pass := by simpa [only] using member
      exact outside (inPlace.puts_iff.1 written).1

end InPlace

theorem accounts_inPlace : accounts.InPlace := by
  intro key content outcome transformed
  obtain ⟨account, -, later⟩ := bind_eq_ok_iff.1 transformed
  obtain ⟨grouped, -, same⟩ := bind_eq_ok_iff.1 later
  exact ⟨grouped, (Except.ok.inj same).symm⟩

theorem chainLinkEnvelopes_eq_keep_iff {codecs : SignDocumentCodecs} {key content value : Bytes} :
    (chainLinkEnvelopes codecs).transform key content = .ok (.keep key value [])
      ↔ ∃ link plaintext, BareChainLink.codec.decode content = .ok link
          ∧ decodePlaintext link.proof.plaintextHex = .ok plaintext
          ∧ ChainLink.codec.encode? (link.enclose (codecs.classify plaintext)) = some value := by
  simp only [chainLinkEnvelopes, bind_eq_ok_iff, readRecord_eq_ok_iff, atKey_eq_ok_iff,
    writeRecord_eq_ok_iff, Except.ok.injEq, Outcome.keep.injEq, true_and, and_true]
  constructor
  · rintro ⟨link, read, plaintext, decodes, record, written, rfl⟩
    exact ⟨link, plaintext, read, decodes, written⟩
  · rintro ⟨link, plaintext, read, decodes, written⟩
    exact ⟨link, read, plaintext, decodes, value, written, rfl⟩

theorem chainLinkEnvelopes_inPlace (codecs : SignDocumentCodecs) :
    (chainLinkEnvelopes codecs).InPlace := by
  intro key content outcome transformed
  obtain ⟨link, -, later⟩ := bind_eq_ok_iff.1 transformed
  obtain ⟨plaintext, -, last⟩ := bind_eq_ok_iff.1 later
  obtain ⟨record, -, same⟩ := bind_eq_ok_iff.1 last
  exact ⟨record, (Except.ok.inj same).symm⟩

theorem chainLinkTags_eq_keep_iff {codecs : SignDocumentCodecs} {key content value : Bytes} :
    (chainLinkTags codecs).transform key content = .ok (.keep key value [])
      ↔ ∃ link proof, ChainLink.codec.decode content = .ok link
          ∧ link.proof.retag codecs = .ok proof
          ∧ ChainLink.codec.encode? { link with proof := proof } = some value := by
  simp only [chainLinkTags, bind_eq_ok_iff, readRecord_eq_ok_iff, atKey_eq_ok_iff,
    writeRecord_eq_ok_iff, Except.ok.injEq, Outcome.keep.injEq, true_and, and_true]
  constructor
  · rintro ⟨link, read, proof, tagged, record, written, rfl⟩
    exact ⟨link, proof, read, tagged, written⟩
  · rintro ⟨link, proof, read, tagged, written⟩
    exact ⟨link, read, proof, tagged, value, written, rfl⟩

theorem chainLinkTags_inPlace (codecs : SignDocumentCodecs) : (chainLinkTags codecs).InPlace := by
  intro key content outcome transformed
  obtain ⟨link, -, later⟩ := bind_eq_ok_iff.1 transformed
  obtain ⟨proof, -, last⟩ := bind_eq_ok_iff.1 later
  obtain ⟨record, -, same⟩ := bind_eq_ok_iff.1 last
  exact ⟨record, (Except.ok.inj same).symm⟩

/-! ## Passes that move records -/

section Moving

variable {store : Store} {entry : Entry}

/-- A tag of the earlier layout, at its key and with its record. -/
def EarlyTag (store : Store) (source record : Bytes) (tag : String) : Prop :=
  source = Key.Early.dtag tag ∧ store.get? source = some record

theorem prefix_earlyDtag (tag : String) : [Key.Early.dtagFamily] <+: Key.Early.dtag tag :=
  List.prefix_append _ _

/-- A key among the early tags holds a tag if what follows its first byte reads as a text. -/
theorem decode_drop_eq_ok_iff {source : Bytes} {tag : String} :
    [Key.Early.dtagFamily] <+: source ∧ Utf8.decode (source.drop 1) = .ok tag
      ↔ source = Key.Early.dtag tag := by
  constructor
  · rintro ⟨⟨rest, rfl⟩, read⟩
    have written : Utf8.encode tag = rest := Utf8.encode_of_decode read
    simp [Key.Early.dtag, Key.Early.compose, written]
  · rintro rfl
    exact ⟨prefix_earlyDtag tag, by simp [Key.Early.dtag, Key.Early.compose, Utf8.decode_encode]⟩

theorem dtags_decides_iff {source : Bytes} {outcome : Outcome} :
    dtags.Decides store source outcome
      ↔ ∃ record tag, EarlyTag store source record tag
          ∧ outcome = .keep (Key.dtag tag) record [] := by
  constructor
  · rintro ⟨under, record, held, transformed⟩
    simp only [dtags] at transformed
    split at transformed
    · cases transformed
    · next tag read =>
      exact ⟨record, tag, ⟨decode_drop_eq_ok_iff.1 ⟨under, read⟩, held⟩,
        (Except.ok.inj transformed).symm⟩
  · rintro ⟨record, tag, ⟨place, held⟩, rfl⟩
    obtain ⟨under, read⟩ := decode_drop_eq_ok_iff.2 place
    exact ⟨under, record, held, by simp only [dtags, read]⟩

theorem dtags_puts (written : dtags.Puts store entry) : Key.scope Key.dtags <+: entry.1 := by
  obtain ⟨source, outcome, decides, wrote⟩ := written
  obtain ⟨record, tag, -, rfl⟩ := dtags_decides_iff.1 decides
  obtain rfl : _ = entry := by simpa [Outcome.record?, Outcome.index] using wrote
  exact Key.scope_prefix_compose ..

/-- An application link of the earlier layout, at its key and with its record. -/
def EarlyApplicationLink (store : Store) (source record : Bytes) (link : ApplicationLink) : Prop :=
  [Key.Early.applicationLinkFamily] <+: source ∧ store.get? source = some record
    ∧ ApplicationLink.codec.decode record = .ok link

theorem applicationLinks_decides_iff {source : Bytes} {outcome : Outcome} :
    applicationLinks.Decides store source outcome
      ↔ ∃ record link, EarlyApplicationLink store source record link
          ∧ outcome = .keep link.key record [(Key.clientId link.clientId, link.key)] := by
  simp only [Pass.Decides, applicationLinks, bind_eq_ok_iff, readRecord_eq_ok_iff,
    EarlyApplicationLink]
  constructor
  · rintro ⟨under, record, held, link, read, same⟩
    exact ⟨record, link, ⟨under, held, read⟩, (Except.ok.inj same).symm⟩
  · rintro ⟨record, link, ⟨under, held, read⟩, rfl⟩
    exact ⟨under, record, held, link, read, rfl⟩

theorem applicationLinks_puts (written : applicationLinks.Puts store entry) :
    Key.scope Key.userApplicationLink <+: entry.1 ∨ Key.scope Key.clientIds <+: entry.1 := by
  obtain ⟨source, outcome, decides, wrote⟩ := written
  obtain ⟨record, link, -, rfl⟩ := applicationLinks_decides_iff.1 decides
  rcases wrote with moved | named
  · obtain rfl := Option.some.inj moved
    exact .inl (Key.scope_prefix_compose ..)
  · rw [List.mem_singleton.1 named]
    exact .inr (Key.scope_prefix_compose ..)

theorem not_earlyClientIds_puts : ¬ earlyClientIds.Puts store entry := by
  rintro ⟨source, outcome, ⟨-, content, -, transformed⟩, wrote⟩
  obtain rfl := Except.ok.inj transformed
  simp [Outcome.record?, Outcome.index] at wrote

/-- A chain link of the earlier layout, at its key and with its record. -/
def EarlyLink (store : Store) (source record : Bytes) (link : BareChainLink) : Prop :=
  [Key.Early.chainLinkFamily] <+: source ∧ store.get? source = some record
    ∧ BareChainLink.codec.decode record = .ok link

theorem EarlyLink.unique {source first second : Bytes} {link twin : BareChainLink}
    (one : EarlyLink store source first link) (two : EarlyLink store source second twin) :
    link = twin := by
  obtain rfl : first = second := Option.some.inj (one.2.1.symm.trans two.2.1)
  exact Except.ok.inj (one.2.2.symm.trans two.2.2)

theorem chainLinks_decides_iff {source : Bytes} {outcome : Outcome} :
    chainLinks.Decides store source outcome
      ↔ ∃ record link, EarlyLink store source record link
          ∧ outcome = .keep link.key record [] := by
  simp only [Pass.Decides, chainLinks, bind_eq_ok_iff, readRecord_eq_ok_iff, EarlyLink]
  constructor
  · rintro ⟨under, record, held, link, read, same⟩
    exact ⟨record, link, ⟨under, held, read⟩, (Except.ok.inj same).symm⟩
  · rintro ⟨record, link, ⟨under, held, read⟩, rfl⟩
    exact ⟨under, record, held, link, read, rfl⟩

theorem chainLinks_puts_iff {key value : Bytes} :
    chainLinks.Puts store (key, value)
      ↔ ∃ source link, EarlyLink store source value link ∧ key = link.key := by
  constructor
  · rintro ⟨source, outcome, decides, wrote⟩
    obtain ⟨record, link, early, rfl⟩ := chainLinks_decides_iff.1 decides
    simp only [Outcome.record?, Outcome.index, Option.some.injEq, Prod.mk.injEq, List.not_mem_nil,
      or_false] at wrote
    obtain ⟨rfl, rfl⟩ := wrote
    exact ⟨source, link, early, rfl⟩
  · rintro ⟨source, link, early, rfl⟩
    exact ⟨source, _, chainLinks_decides_iff.2 ⟨value, link, early, rfl⟩, .inl rfl⟩

end Moving

/-! ## Verification -/

section Verification

variable {codecs : SignDocumentCodecs} {store : Store}

/-- A record among the chain links that reads as a link which verifies. -/
def VerifiedLink (codecs : SignDocumentCodecs) (store : Store) (source record : Bytes)
    (link : ChainLink) : Prop :=
  Key.scope Key.chainLinks <+: source ∧ store.get? source = some record
    ∧ ChainLink.codec.decode record = .ok link ∧ link.verify codecs = .ok ()

theorem chainLinkVerification_eq_keep_iff {source content key value : Bytes} {index : List Entry} :
    (chainLinkVerification codecs).transform source content = .ok (.keep key value index)
      ↔ ∃ link, ChainLink.codec.decode content = .ok link ∧ link.verify codecs = .ok ()
          ∧ key = source ∧ value = content ∧ index = [(link.ownerIndexKey, Key.sentinel)] := by
  simp only [chainLinkVerification, bind_eq_ok_iff, readRecord_eq_ok_iff]
  constructor
  · rintro ⟨link, read, decided⟩
    split at decided
    · next verified =>
      obtain ⟨rfl, rfl, rfl⟩ := Outcome.keep.inj (Except.ok.inj decided)
      exact ⟨link, read, verified, rfl, rfl, rfl⟩
    · split at decided <;> cases decided
  · rintro ⟨link, read, verified, rfl, rfl, rfl⟩
    exact ⟨link, read, by rw [verified]⟩

theorem chainLinkVerification_keeps_iff {source key value : Bytes} {index : List Entry} :
    (chainLinkVerification codecs).Decides store source (.keep key value index)
      ↔ ∃ link, VerifiedLink codecs store source value link ∧ key = source
          ∧ index = [(link.ownerIndexKey, Key.sentinel)] := by
  simp only [Pass.Decides, chainLinkVerification_eq_keep_iff, VerifiedLink]
  constructor
  · rintro ⟨under, content, held, link, read, verified, rfl, rfl, rfl⟩
    exact ⟨link, ⟨under, held, read, verified⟩, rfl, rfl⟩
  · rintro ⟨link, ⟨under, held, read, verified⟩, rfl, rfl⟩
    exact ⟨under, value, held, link, read, verified, rfl, rfl, rfl⟩

theorem chainLinkVerification_puts_iff {key value : Bytes} :
    (chainLinkVerification codecs).Puts store (key, value)
      ↔ (∃ link, VerifiedLink codecs store key value link)
        ∨ value = Key.sentinel
          ∧ ∃ source record link, VerifiedLink codecs store source record link
              ∧ key = link.ownerIndexKey := by
  constructor
  · rintro ⟨source, outcome, decides, wrote⟩
    cases outcome with
    | drop reason => simp [Outcome.record?, Outcome.index] at wrote
    | keep destination record index =>
      obtain ⟨link, verified, rfl, rfl⟩ := chainLinkVerification_keeps_iff.1 decides
      rcases wrote with kept | entry
      · obtain ⟨rfl, rfl⟩ := Prod.mk.inj (Option.some.inj kept)
        exact .inl ⟨link, verified⟩
      · obtain ⟨rfl, rfl⟩ := Prod.mk.inj (List.mem_singleton.1 entry)
        exact .inr ⟨rfl, destination, record, link, verified, rfl⟩
  · rintro (⟨link, verified⟩ | ⟨rfl, source, record, link, verified, rfl⟩)
    · exact ⟨key, _, chainLinkVerification_keeps_iff.2 ⟨link, verified, rfl, rfl⟩, .inl rfl⟩
    · exact ⟨source, _, chainLinkVerification_keeps_iff.2 ⟨link, verified, rfl, rfl⟩,
        .inr (List.mem_singleton.2 rfl)⟩

/-- Among the chain links, the records that verification puts or leaves alone are those of links
that verify. -/
theorem chainLinkVerification_left_iff {own : List Store.Change} {key value : Bytes}
    (planned : (chainLinkVerification codecs).Planned store own)
    (ofLinks : Key.scope Key.chainLinks <+: key) :
    (chainLinkVerification codecs).Puts store (key, value)
        ∨ ((∀ content, ¬ (chainLinkVerification codecs).Puts store (key, content))
            ∧ ¬ (chainLinkVerification codecs).Leaves store key)
          ∧ store.get? key = some value
      ↔ ∃ link, VerifiedLink codecs store key value link := by
  have notIndex : ¬ ∃ source record link, VerifiedLink codecs store source record link
      ∧ key = link.ownerIndexKey := by
    rintro ⟨_, _, link, -, rfl⟩
    exact Key.not_scope_of_scope ofLinks (by decide) (Key.scope_prefix_ownerIndex ..)
  simp only [chainLinkVerification_puts_iff, notIndex, and_false, or_false]
  refine ⟨fun either => either.elim id fun ⟨⟨unverified, kept⟩, held⟩ => ?_, .inl⟩
  -- A record that is merely left was neither dropped nor kept, but one of both was decided.
  obtain ⟨outcome, transformed⟩ := planned.decides key value ofLinks held
  have decides : (chainLinkVerification codecs).Decides store key outcome :=
    ⟨ofLinks, value, held, transformed⟩
  cases outcome with
  | drop reason => exact absurd ⟨_, decides, nofun⟩ kept
  | keep destination record index =>
    obtain ⟨link, verified, -⟩ := chainLinkVerification_keeps_iff.1 decides
    exact absurd ⟨link, verified⟩ (unverified record)

end Verification

/-! ## Families that passes write to -/

/-- Whatever a pass puts is of one of some families. -/
def Pass.PutsWithin (pass : Pass) (families : List String) : Prop :=
  ∀ store entry, pass.Puts store entry → ∃ family ∈ families, Key.scope family <+: entry.1

section Families

variable (codecs : SignDocumentCodecs)

theorem Pass.InPlace.putsWithin {pass : Pass} {family : String} (inPlace : pass.InPlace)
    (scope : pass.scope = Key.scope family) : pass.PutsWithin [family] :=
  fun _ _ puts => ⟨family, .head _, scope ▸ (inPlace.puts_iff.1 puts).1⟩

theorem dtags_putsWithin : dtags.PutsWithin [Key.dtags] :=
  fun _ _ puts => ⟨_, .head _, dtags_puts puts⟩

theorem applicationLinks_putsWithin :
    applicationLinks.PutsWithin [Key.userApplicationLink, Key.clientIds] := by
  intro store entry puts
  rcases applicationLinks_puts puts with moved | named
  · exact ⟨_, by simp, moved⟩
  · exact ⟨_, by simp, named⟩

theorem earlyClientIds_putsWithin : earlyClientIds.PutsWithin [] :=
  fun _ _ puts => absurd puts not_earlyClientIds_puts

theorem chainLinks_putsWithin : chainLinks.PutsWithin [Key.chainLinks] := by
  rintro store ⟨key, value⟩ puts
  obtain ⟨_, link, -, rfl⟩ := chainLinks_puts_iff.1 puts
  exact ⟨_, .head _, Key.scope_prefix_chainLink ..⟩

theorem chainLinkEnvelopes_putsWithin :
    (chainLinkEnvelopes codecs).PutsWithin [Key.chainLinks] :=
  (chainLinkEnvelopes_inPlace codecs).putsWithin rfl

theorem chainLinkVerification_putsWithin :
    (chainLinkVerification codecs).PutsWithin [Key.chainLinks, Key.chainLinkOwner] := by
  rintro store ⟨key, value⟩ puts
  rcases chainLinkVerification_puts_iff.1 puts with ⟨link, verified⟩ | ⟨-, _, _, link, -, rfl⟩
  · exact ⟨_, by simp, verified.1⟩
  · exact ⟨_, by simp, Key.scope_prefix_ownerIndex ..⟩

theorem chainLinkTags_putsWithin : (chainLinkTags codecs).PutsWithin [Key.chainLinks] :=
  (chainLinkTags_inPlace codecs).putsWithin rfl

end Families

end Migration

end LinkRegistry
