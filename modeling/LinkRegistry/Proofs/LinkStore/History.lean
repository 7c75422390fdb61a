import Mathlib.Data.List.Nodup
import LinkRegistry.Proofs.LinkStore.Consistency

/-!
# Histories of a link store

Whatever sequence of calls is made on an empty store, and whichever of them fail, its three
families of keys describe one set of links, and every query answers from that set.
-/

namespace LinkRegistry.LinkStore

/-- A call that changes a link store. -/
inductive Call
  | save (link : ChainLink)
  | delete (link : ChainLink)
  | deleteAll (owner : String)

/-- The store after a call. A save or a delete that fails changes nothing. -/
def perform (codecs : SignDocumentCodecs) (store : Store) : Call → Store
  | .save link =>
    match save codecs store link with
    | .ok next => next
    | .error _ => store
  | .delete link =>
    match delete store link with
    | .ok next => next
    | .error _ => store
  | .deleteAll owner => (deleteAll store owner).1

/-- The store after a sequence of calls on an empty one. -/
def history (codecs : SignDocumentCodecs) (calls : List Call) : Store :=
  calls.foldl (perform codecs) .empty

/-- No text that a call passes in has a zero byte. -/
def Call.Plain : Call → Prop
  | .save link | .delete link => link.Plain
  | .deleteAll owner => Key.Plain owner

instance : (call : Call) → Decidable call.Plain
  | .save link | .delete link => inferInstanceAs (Decidable link.Plain)
  | .deleteAll owner => inferInstanceAs (Decidable (Key.Plain owner))

/-! ## Every history is consistent -/

/-- Whatever link a call saves is of some kind. -/
def Call.SavesOnly (kind : ChainLink → Prop) : Call → Prop
  | .save link => kind link
  | .delete _ | .deleteAll _ => True

section Runs

variable {codecs : SignDocumentCodecs} {kind : ChainLink → Prop} {invariant : Store → Prop}
  {store : Store}

section

variable
  (saves : ∀ {store next link}, invariant store → kind link → save codecs store link = .ok next →
    invariant next)
  (deletes : ∀ {store next link}, invariant store → delete store link = .ok next → invariant next)
include saves deletes

/-- What each save of a link of some kind and each delete keeps is kept by every call. -/
theorem perform_induction {call : Call} (ofKind : call.SavesOnly kind) (holds : invariant store) :
    invariant (perform codecs store call) := by
  cases call with
  | save link =>
    rw [perform]
    split
    · next next saved => exact saves holds ofKind saved
    · exact holds
  | delete link =>
    rw [perform]
    split
    · next next deleted => exact deletes holds deleted
    · exact holds
  | deleteAll owner => exact deleteAll_induction deletes owner holds

theorem foldl_perform_induction_of {calls : List Call}
    (ofKind : ∀ call ∈ calls, call.SavesOnly kind) (holds : invariant store) :
    invariant (calls.foldl (perform codecs) store) := by
  -- The induction is on the calls, so the store that they start from varies.
  induction calls generalizing store with
  | nil => exact holds
  | cons call rest ih =>
    exact ih (fun next member => ofKind next (.tail _ member))
      (perform_induction saves deletes (ofKind call (.head _)) holds)

end

theorem Call.Plain.savesOnly {call : Call} (plain : call.Plain) :
    call.SavesOnly ChainLink.Plain := by
  cases call with
  | save link => exact plain
  | delete link => trivial
  | deleteAll owner => trivial

theorem foldl_perform_induction
    (saves : ∀ {store next link}, invariant store → link.Plain → save codecs store link = .ok next →
      invariant next)
    (deletes : ∀ {store next link}, invariant store → delete store link = .ok next → invariant next)
    {calls : List Call} (plain : ∀ call ∈ calls, call.Plain) (holds : invariant store) :
    invariant (calls.foldl (perform codecs) store) :=
  foldl_perform_induction_of saves deletes (fun call member => (plain call member).savesOnly) holds

end Runs

theorem consistent_history (codecs : SignDocumentCodecs) {calls : List Call}
    (plain : ∀ call ∈ calls, call.Plain) : Consistent codecs (history codecs calls) :=
  foldl_perform_induction (fun consistent => consistent.save)
    (fun consistent => consistent.delete) plain (consistent_empty codecs)

/-! ## The links of a store -/

/-- Links with a key each of its own. -/
def Distinct (links : List ChainLink) : Prop :=
  links.Pairwise fun left right => left.key ≠ right.key

/-- The three families of keys of a store describe a set of links. -/
structure Describes (codecs : SignDocumentCodecs) (store : Store) (links : List ChainLink) :
    Prop where
  distinct : Distinct links
  keys : ∀ key, Key.scope Key.chainLinks <+: key →
    (store.contains key = true ↔ ∃ link ∈ links, link.key = key)
  records : ∀ link ∈ links, ∃ record, store.get? link.key = some record ∧
    ChainLink.decode record = .ok link ∧ link.verify codecs = .ok () ∧
    ∃ plaintext, link.proof.plaintext = .ok plaintext ∧
      codecs.validateSignedValue link.proof.signature plaintext link.owner = .ok ()
  index : ∀ key value, Key.scope Key.chainLinkOwner <+: key →
    (store.get? key = some value
      ↔ value = Key.sentinel ∧ ∃ link ∈ links, link.ownerIndexKey = key)
  defaults : ∀ owner chainName, store.contains (Key.defaultAddress owner chainName) = true
    ↔ ∃ link ∈ links, link.owner = owner ∧ link.chainName = chainName
  addresses : ∀ owner chainName value,
    store.get? (Key.defaultAddress owner chainName) = some value →
    ∃ link ∈ links, link.owner = owner ∧ link.chainName = chainName ∧
      Utf8.encode link.address.value = value

/-- Every query of a store succeeds and answers from a set of links. -/
structure Answers (store : Store) (links : List ChainLink) : Prop where
  get : ∀ owner chainName address, ∃ found,
    LinkStore.get store owner chainName address = .ok found ∧
    ∀ link, found = some link ↔ link ∈ links ∧ link.owner = owner ∧
      link.chainName = chainName ∧ link.address.value = address
  has : ∀ owner chainName address, LinkStore.has store owner chainName address = true
    ↔ ∃ link ∈ links, link.owner = owner ∧ link.chainName = chainName ∧
      link.address.value = address
  userLinks : ∀ owner, ∃ found, LinkStore.userLinks store owner = .ok found ∧ Distinct found ∧
    (Key.Plain owner → ∀ link, link ∈ found ↔ link ∈ links ∧ link.owner = owner)
  owners : ∀ chainName address, ∃ names,
    LinkStore.owners store chainName address = .ok names ∧ names.Nodup ∧
    ∀ owner, owner ∈ names ↔ ∃ link ∈ links, link.owner = owner ∧
      link.chainName = chainName ∧ link.address.value = address
  default : ∀ owner chainName, ∃ current,
    LinkStore.defaultAddress store owner chainName = .ok current ∧
    (current.isSome = true ↔ ∃ link ∈ links, link.owner = owner ∧ link.chainName = chainName) ∧
    ∀ address, current = some address → ∃ link ∈ links, link.owner = owner ∧
      link.chainName = chainName ∧ link.address.value = address

section

variable {store : Store} (coherent : Coherent store)
include coherent

/-- The entries of any lead within the family of links are records of held links, each at the key
of its link. -/
theorem Coherent.mapM_readLink {lead : Bytes} (family : Key.scope Key.chainLinks <+: lead) :
    ∃ links, (store.scan lead).mapM (fun entry => readLink entry.2) = .ok links ∧
      links.map ChainLink.key = (store.scan lead).map (·.1) ∧
      ∀ link, link ∈ links ↔ Holds store link ∧ lead <+: link.key := by
  have stored : ∀ entry ∈ store.scan lead,
      Key.scope Key.chainLinks <+: entry.1 ∧ store.get? entry.1 = some entry.2 := by
    intro entry member
    have ⟨under, found⟩ := Store.mem_scan_iff.1 member
    exact ⟨family.trans under, found⟩
  obtain ⟨links, traversed, keys, members⟩ := coherent.mapM_readLink_of_entries stored
  refine ⟨links, traversed, keys, fun link => ?_⟩
  rw [members]
  refine and_congr_right fun held => ?_
  constructor
  · rintro ⟨entry, member, same⟩
    exact same ▸ (Store.mem_scan_iff.1 member).1
  · intro under
    obtain ⟨record, found, -⟩ := held
    exact ⟨(link.key, record), Store.mem_scan_iff.2 ⟨under, found⟩, rfl⟩

/-- The keys among the chain links are those of held links. -/
theorem Coherent.contains_iff {key : Bytes} (family : Key.scope Key.chainLinks <+: key) :
    store.contains key = true ↔ ∃ link, Holds store link ∧ link.key = key := by
  rw [Store.contains_iff]
  constructor
  · rintro ⟨record, found⟩
    obtain ⟨link, _, same, held⟩ := coherent.holds_of_get? family found
    exact ⟨link, held, same⟩
  · rintro ⟨link, ⟨record, found, _⟩, rfl⟩
    exact ⟨record, found⟩

/-- The link of an owner, chain and address is the one that is held under their key. -/
theorem Coherent.get_eq (owner chainName address : String) :
    ∃ found, get store owner chainName address = .ok found ∧
      ∀ link, found = some link ↔ Holds store link ∧ link.owner = owner ∧
        link.chainName = chainName ∧ link.address.value = address := by
  unfold LinkStore.get
  cases found : store.get? (Key.chainLink owner chainName address) with
  | none =>
    refine ⟨none, rfl, fun link => ⟨nofun, ?_⟩⟩
    rintro ⟨⟨record, found', _⟩, rfl, rfl, rfl⟩
    exact absurd (found.symm.trans found') nofun
  | some record =>
    obtain ⟨link, read, same, held⟩ :=
      coherent.holds_of_get? (Key.scope_prefix_chainLink ..) found
    refine ⟨some link, by simp [readLink_eq_ok_iff.2 read, Except.map], fun other => ?_⟩
    rw [Option.some.injEq]
    constructor
    · rintro rfl
      -- The key that the record was found at was asked for, and a plain link can be told from it.
      have ⟨owners, chains, addresses⟩ := (coherent.plain held).key_eq_iff.1 same.symm
      exact ⟨held, owners.symm, chains.symm, addresses.symm⟩
    · rintro ⟨held', rfl, rfl, rfl⟩
      exact held.eq_of_key held' same

theorem Coherent.has_iff {owner chainName address : String} :
    has store owner chainName address = true
      ↔ ∃ link, Holds store link ∧ link.owner = owner ∧ link.chainName = chainName ∧
        link.address.value = address := by
  rw [LinkStore.has, coherent.contains_iff (Key.scope_prefix_chainLink ..)]
  refine exists_congr fun link => and_congr_right fun held => ?_
  rw [eq_comm, (coherent.plain held).key_eq_iff, eq_comm, eq_comm (a := chainName),
    eq_comm (a := address)]

/-- The links of an owner are those that are held for it, each of them once. -/
theorem Coherent.userLinks_eq (owner : String) :
    ∃ links, userLinks store owner = .ok links ∧ Distinct links ∧
      (∀ link ∈ links, Holds store link) ∧
      (Key.Plain owner → ∀ link, link ∈ links ↔ Holds store link ∧ link.owner = owner) := by
  obtain ⟨links, read, keys, members⟩ :=
    coherent.mapM_readLink (Key.scope_prefix_userChainLinks owner)
  have distinct : Distinct links := List.pairwise_map.1 (keys ▸ store.nodup_keys_scan _)
  refine ⟨links, read, distinct, fun link member => ((members link).1 member).1,
    fun plain link => ?_⟩
  rw [members]
  refine and_congr_right fun held => ?_
  rw [(coherent.plain held).userChainLinks_prefix_iff plain, eq_comm]

/-- The owner index names each owner of an address once. -/
theorem Coherent.owners_eq (chainName address : String) :
    ∃ names, owners store chainName address = .ok names ∧ names.Nodup ∧
      ∀ owner, owner ∈ names ↔ ∃ link, Holds store link ∧ link.owner = owner ∧
        link.chainName = chainName ∧ link.address.value = address := by
  have family := Key.scope_prefix_ownerIndexOf chainName address
  have read : ∀ entry ∈ store.scan (Key.ownerIndexOf chainName address), ∃ link,
      Holds store link ∧ link.chainName = chainName ∧ link.address.value = address ∧
      Key.ownerIndexOf chainName address ++ Utf8.encode link.owner = entry.1 ∧
      readText (entry.1.drop (Key.ownerIndexOf chainName address).length) = .ok link.owner := by
    rintro ⟨key, value⟩ member
    have ⟨under, found⟩ := Store.mem_scan_iff.1 member
    obtain ⟨_, link, held, rfl⟩ := (coherent.index (family.trans under)).1 found
    -- The key is that of a held link, so the rest of it behind the lead is the owner.
    have ⟨chains, addresses⟩ := (coherent.plain held).ownerIndexOf_prefix_iff.1 under
    have shape : link.ownerIndexKey
        = Key.ownerIndexOf chainName address ++ Utf8.encode link.owner := by
      rw [ChainLink.ownerIndexKey, Key.ownerIndex_eq, chains, addresses]
    exact ⟨link, held, chains.symm, addresses.symm, shape.symm, by simp [shape, readText]⟩
  obtain ⟨names, traversed⟩ := exists_mapM_eq_ok fun entry member =>
    (read entry member).imp' ChainLink.owner fun _ found => found.2.2.2.2
  refine ⟨names, traversed, ?_, fun owner => ?_⟩
  · -- The lead with the names is the scanned keys, and no key is scanned twice.
    have keys : names.map (fun name => Key.ownerIndexOf chainName address ++ Utf8.encode name)
        = (store.scan (Key.ownerIndexOf chainName address)).map (·.1) :=
      map_of_mapM_eq_ok traversed fun entry member name same => by
        obtain ⟨link, _, _, _, shape, same'⟩ := read entry member
        obtain rfl := Except.ok.inj (same.symm.trans same')
        exact shape
    exact List.Nodup.of_map _ (keys ▸ store.nodup_keys_scan _)
  · rw [mem_of_mapM_eq_ok traversed]
    constructor
    · rintro ⟨entry, member, same⟩
      obtain ⟨link, held, chains, addresses, _, same'⟩ := read entry member
      obtain rfl := Except.ok.inj (same.symm.trans same')
      exact ⟨link, held, rfl, chains, addresses⟩
    · rintro ⟨link, held, rfl, rfl, rfl⟩
      have under := (coherent.plain held).ownerIndexOf_prefix_iff.2 ⟨rfl, rfl⟩
      have found := (coherent.index link.scope_prefix_ownerIndexKey).2 ⟨rfl, link, held, rfl⟩
      refine ⟨(link.ownerIndexKey, Key.sentinel), Store.mem_scan_iff.2 ⟨under, found⟩, ?_⟩
      simp [ChainLink.ownerIndexKey, Key.ownerIndex_eq, readText]

/-- A default address that is set is the address of a link held for its owner on its chain. -/
theorem Coherent.default_eq (owner chainName : String) :
    ∃ current, defaultAddress store owner chainName = .ok current ∧
      store.get? (Key.defaultAddress owner chainName) = current.map Utf8.encode ∧
      ∀ address, current = some address → ∃ link, Holds store link ∧ link.owner = owner ∧
        link.chainName = chainName ∧ link.address.value = address := by
  obtain ⟨current, read, found⟩ := coherent.defaultAddress_eq owner chainName
  refine ⟨current, read, found, ?_⟩
  rintro address rfl
  obtain ⟨link, held, owners, chains, same⟩ := coherent.default_of_get? found
  exact ⟨link, held, owners, chains, Utf8.encode_inj.1 same⟩

end

section

variable {codecs : SignDocumentCodecs} {store : Store} (consistent : Consistent codecs store)
include consistent

theorem Consistent.mapM_readLink {lead : Bytes} (family : Key.scope Key.chainLinks <+: lead) :
    ∃ links, (store.scan lead).mapM (fun entry => readLink entry.2) = .ok links ∧
      links.map ChainLink.key = (store.scan lead).map (·.1) ∧
      ∀ link, link ∈ links ↔ Holds store link ∧ lead <+: link.key :=
  consistent.coherent.mapM_readLink family

/-- A default address is set where a link is held. -/
theorem Consistent.contains_defaultAddress_iff (owner chainName : String) :
    store.contains (Key.defaultAddress owner chainName) = true
      ↔ ∃ link, Holds store link ∧ link.owner = owner ∧ link.chainName = chainName := by
  constructor
  · intro present
    obtain ⟨value, found⟩ := Store.contains_iff.1 present
    obtain ⟨link, held, owners, chains, _⟩ := consistent.coherent.default_of_get? found
    exact ⟨link, held, owners, chains⟩
  · rintro ⟨link, held, rfl, rfl⟩
    exact consistent.defaulted held

theorem Consistent.describes {links : List ChainLink} (distinct : Distinct links)
    (members : ∀ link, link ∈ links ↔ Holds store link) : Describes codecs store links := by
  constructor
  case distinct => exact distinct
  case keys =>
    intro key family
    simp only [consistent.coherent.contains_iff family, members]
  case records =>
    intro link member
    have held := (members link).1 member
    -- A record is there because its link was saved, and that was checked then.
    have accepted := consistent.accepted held
    obtain ⟨record, found, read⟩ := held
    exact ⟨record, found, read, accepted.verified, accepted.signedValue⟩
  case index =>
    intro key value family
    simp only [consistent.index family, members]
  case defaults =>
    intro owner chainName
    simp only [consistent.contains_defaultAddress_iff, members]
  case addresses =>
    intro owner chainName value found
    obtain ⟨link, held, owners, chains, address⟩ := consistent.coherent.default_of_get? found
    exact ⟨link, (members link).2 held, owners, chains, address⟩

theorem Consistent.answers {links : List ChainLink}
    (members : ∀ link, link ∈ links ↔ Holds store link) : Answers store links := by
  constructor
  case get =>
    intro owner chainName address
    simpa only [members] using consistent.coherent.get_eq owner chainName address
  case has =>
    intro owner chainName address
    simpa only [members] using consistent.coherent.has_iff
  case userLinks =>
    intro owner
    obtain ⟨found, read, distinct, -, exactly⟩ := consistent.coherent.userLinks_eq owner
    exact ⟨found, read, distinct, by simpa only [members] using exactly⟩
  case owners =>
    intro chainName address
    simpa only [members] using consistent.coherent.owners_eq chainName address
  case default =>
    intro owner chainName
    obtain ⟨current, read, found, addressed⟩ := consistent.coherent.default_eq owner chainName
    refine ⟨current, read, ?_, by simpa only [members] using addressed⟩
    have set := consistent.contains_defaultAddress_iff owner chainName
    rw [Store.contains, found, Option.isSome_map] at set
    simpa only [members] using set

end

/-- After any sequence of calls, whichever of them fail, one set of links is what records, owner
index and default addresses describe and what every query answers from. -/
theorem describes_and_answers_history (codecs : SignDocumentCodecs) (calls : List Call)
    (plain : ∀ call ∈ calls, call.Plain) :
    ∃ links, Describes codecs (history codecs calls) links ∧
      Answers (history codecs calls) links := by
  have consistent := consistent_history codecs plain
  obtain ⟨links, _, keys, held⟩ := consistent.mapM_readLink (List.prefix_refl _)
  have members : ∀ link, link ∈ links ↔ Holds (history codecs calls) link := fun link => by
    rw [held, and_iff_left link.scope_prefix_key]
  have distinct : Distinct links := List.pairwise_map.1 (keys ▸ Store.nodup_keys_scan _ _)
  exact ⟨links, consistent.describes distinct members, consistent.answers members⟩

/-- A link whose key is the neutral point, under which this signature is right for any message. -/
def neutralLink (address : Address) : ChainLink where
  owner := "a12uel5l"
  address := address
  proof := ⟨.ed25519 (1 :: List.replicate 31 0), .single .raw (1 :: List.replicate 63 0),
    Hex.encode (Utf8.encode "a12uel5l")⟩
  chainName := "cosmos"
  creationTime := 7

/-- Two links are saved, one of them twice, and the one that is the default is deleted. -/
def promotingCalls : List Call :=
  let first := neutralLink (.bech32 "c1q8g040f9rl9mu2unkjuj0vn262s6nyrhpp6qcu" "c")
  let second := neutralLink (.base58 "2U8CyXAfjkDq5brpzNBUHEoneb8")
  [.save first, .save second, .save second, .delete first, .deleteAll "desmos1"]

theorem describes_and_answers_promotingCalls :
    (∀ call ∈ promotingCalls, call.Plain) ∧ (history .standard promotingCalls).entries.length = 3 ∧
      ∃ links, Describes .standard (history .standard promotingCalls) links ∧
        Answers (history .standard promotingCalls) links := by
  have plain : ∀ call ∈ promotingCalls, call.Plain := by decide
  exact ⟨plain, by decide +kernel, describes_and_answers_history .standard promotingCalls plain⟩

end LinkRegistry.LinkStore
