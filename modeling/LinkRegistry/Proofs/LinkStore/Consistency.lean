import Mathlib.Data.List.Induction
import LinkRegistry.LinkStore
import LinkRegistry.Proofs.Binary.RoundTrip
import LinkRegistry.Proofs.Store.Contents
import LinkRegistry.Proofs.Store.Key
import LinkRegistry.Proofs.Success

/-!
# Records, index and defaults agree

A store is consistent when each record is that of an accepted link at the key of the link, the
owner index names just the links that are held, and the default addresses are addresses of held
links, one for each owner and chain that has a link. Saving and deleting keep a store consistent.
-/

namespace LinkRegistry

/-- No text of a link that goes into keys has a zero byte. -/
structure ChainLink.Plain (link : ChainLink) : Prop where
  owner : Key.Plain link.owner
  chainName : Key.Plain link.chainName
  address : Key.Plain link.address.value

instance (link : ChainLink) : Decidable link.Plain :=
  decidable_of_iff
    (Key.Plain link.owner ∧ Key.Plain link.chainName ∧ Key.Plain link.address.value)
    ⟨fun ⟨owner, chainName, address⟩ => ⟨owner, chainName, address⟩,
      fun plain => ⟨plain.owner, plain.chainName, plain.address⟩⟩

/-- A link that passes every check of a store: its rules, its proof, and that the signed value is
its owner. -/
structure ChainLink.Accepted (codecs : SignDocumentCodecs) (link : ChainLink) : Prop where
  verified : link.verify codecs = .ok ()
  signedValue : ∃ plaintext, link.proof.plaintext = .ok plaintext ∧
    codecs.validateSignedValue link.proof.signature plaintext link.owner = .ok ()

namespace ChainLink

/-! ## Keys of links -/

theorem scope_prefix_key (link : ChainLink) : Key.scope Key.chainLinks <+: link.key :=
  Key.scope_prefix_chainLink ..

theorem scope_prefix_ownerIndexKey (link : ChainLink) :
    Key.scope Key.chainLinkOwner <+: link.ownerIndexKey := Key.scope_prefix_ownerIndex ..

theorem scope_prefix_defaultKey (link : ChainLink) :
    Key.scope Key.defaultExternalAddress <+: link.defaultKey := Key.scope_prefix_defaultAddress ..

/-- A link meets the family of records only at its own record. -/
theorem ne_of_records (link : ChainLink) {key : Bytes} (family : Key.scope Key.chainLinks <+: key) :
    link.ownerIndexKey ≠ key ∧ link.defaultKey ≠ key :=
  ⟨Key.ne_of_scope link.scope_prefix_ownerIndexKey family (by decide),
    Key.ne_of_scope link.scope_prefix_defaultKey family (by decide)⟩

theorem ne_of_index (link : ChainLink) {key : Bytes}
    (family : Key.scope Key.chainLinkOwner <+: key) : link.key ≠ key ∧ link.defaultKey ≠ key :=
  ⟨Key.ne_of_scope link.scope_prefix_key family (by decide),
    Key.ne_of_scope link.scope_prefix_defaultKey family (by decide)⟩

theorem ne_of_defaults (link : ChainLink) {key : Bytes}
    (family : Key.scope Key.defaultExternalAddress <+: key) :
    link.key ≠ key ∧ link.ownerIndexKey ≠ key :=
  ⟨Key.ne_of_scope link.scope_prefix_key family (by decide),
    Key.ne_of_scope link.scope_prefix_ownerIndexKey family (by decide)⟩

namespace Plain

variable {link : ChainLink} (plain : link.Plain)
include plain

theorem key_eq_iff {owner chainName address : String} :
    Key.chainLink owner chainName address = link.key
      ↔ owner = link.owner ∧ chainName = link.chainName ∧ address = link.address.value :=
  Key.chainLink_inj (by simp [plain.owner, plain.chainName, plain.address])

theorem ownerIndexKey_eq_iff {owner chainName address : String} :
    Key.ownerIndex chainName address owner = link.ownerIndexKey
      ↔ chainName = link.chainName ∧ address = link.address.value ∧ owner = link.owner :=
  Key.ownerIndex_inj (by simp [plain.owner, plain.chainName, plain.address])

theorem defaultKey_eq_iff {owner chainName : String} :
    Key.defaultAddress owner chainName = link.defaultKey
      ↔ owner = link.owner ∧ chainName = link.chainName :=
  Key.defaultAddress_inj (by simp [plain.owner, plain.chainName])

theorem userChainLinks_prefix_iff {owner : String} (own : Key.Plain owner) :
    Key.userChainLinks owner <+: link.key ↔ owner = link.owner :=
  Key.userChainLinks_prefix_iff own plain.owner ..

theorem userChainLinksByChain_prefix_iff {owner chainName : String} :
    Key.userChainLinksByChain owner chainName <+: link.key
      ↔ owner = link.owner ∧ chainName = link.chainName :=
  Key.userChainLinksByChain_prefix_iff (by simp [plain.owner, plain.chainName, plain.address])

theorem ownerIndexOf_prefix_iff {chainName address : String} :
    Key.ownerIndexOf chainName address <+: link.ownerIndexKey
      ↔ chainName = link.chainName ∧ address = link.address.value :=
  Key.ownerIndexOf_prefix_iff (by simp [plain.owner, plain.chainName, plain.address])

end Plain

/-! ## Records of links -/

theorem decode_eq_ok_iff {link : ChainLink} {record : Bytes} :
    ChainLink.decode record = .ok link ↔ codec.decode record = .ok link := by
  rw [ChainLink.decode]
  cases codec.decode record <;> simp

/-- The record of a link reads as that link. -/
theorem decode_encode {link : ChainLink} {record : Bytes} (written : link.encode = .ok record) :
    ChainLink.decode record = .ok link := by
  unfold ChainLink.encode at written
  split at written
  · next bytes encoded =>
    obtain rfl := Except.ok.inj written
    exact decode_eq_ok_iff.2 (ChainLink.readsBack.decode_encode encoded)
  · cases written

end ChainLink

namespace LinkStore

theorem readLink_eq_ok_iff {record : Bytes} {link : ChainLink} :
    readLink record = .ok link ↔ ChainLink.decode record = .ok link := by
  unfold readLink
  split <;> simp_all

theorem accept_eq_ok_iff {codecs : SignDocumentCodecs} {link : ChainLink} :
    accept codecs link = .ok () ↔ link.Accepted codecs := by
  rw [accept, bind_eq_ok_iff]
  constructor
  · rintro ⟨⟨⟩, valid, checked⟩
    obtain ⟨⟨⟩, proven, rest⟩ := bind_eq_ok_iff.1 checked
    obtain ⟨plaintext, read, named⟩ := bind_eq_ok_iff.1 rest
    exact ⟨bind_eq_ok_iff.2 ⟨(), valid, proven⟩, plaintext, read, named⟩
  · rintro ⟨verified, plaintext, read, named⟩
    obtain ⟨⟨⟩, valid, proven⟩ := bind_eq_ok_iff.1 verified
    exact ⟨(), valid, bind_eq_ok_iff.2 ⟨(), proven, bind_eq_ok_iff.2 ⟨plaintext, read, named⟩⟩⟩

/-! ## Held links -/

/-- A store holds a link when the record at its key is that of the link. -/
def Holds (store : Store) (link : ChainLink) : Prop :=
  ∃ record, store.get? link.key = some record ∧ ChainLink.decode record = .ok link

/-- Records, owner index and default addresses agree. -/
structure Consistent (codecs : SignDocumentCodecs) (store : Store) : Prop where
  records : ∀ {key record}, Key.scope Key.chainLinks <+: key → store.get? key = some record →
    ∃ link : ChainLink, ChainLink.decode record = .ok link ∧ link.key = key ∧ link.Plain ∧
      link.Accepted codecs
  index : ∀ {key value}, Key.scope Key.chainLinkOwner <+: key →
    (store.get? key = some value
      ↔ value = Key.sentinel ∧ ∃ link, Holds store link ∧ link.ownerIndexKey = key)
  defaults : ∀ {key value}, Key.scope Key.defaultExternalAddress <+: key →
    store.get? key = some value →
    ∃ link, Holds store link ∧ link.defaultKey = key ∧ Utf8.encode link.address.value = value
  defaulted : ∀ {link}, Holds store link → store.contains link.defaultKey = true

/-- Records, owner index and default addresses agree, though the links need not have been accepted
and defaults may be missing. -/
structure Coherent (store : Store) : Prop where
  records : ∀ {key record}, Key.scope Key.chainLinks <+: key → store.get? key = some record →
    ∃ link : ChainLink, ChainLink.decode record = .ok link ∧ link.key = key ∧ link.Plain
  index : ∀ {key value}, Key.scope Key.chainLinkOwner <+: key →
    (store.get? key = some value
      ↔ value = Key.sentinel ∧ ∃ link, Holds store link ∧ link.ownerIndexKey = key)
  defaults : ∀ {key value}, Key.scope Key.defaultExternalAddress <+: key →
    store.get? key = some value →
    ∃ link, Holds store link ∧ link.defaultKey = key ∧ Utf8.encode link.address.value = value

theorem consistent_empty (codecs : SignDocumentCodecs) : Consistent codecs .empty where
  records _ found := by cases found
  index _ := by simp [Holds]
  defaults _ found := by cases found
  defaulted := by simp [Holds]

section

variable {codecs : SignDocumentCodecs} {store : Store} {link : ChainLink}

theorem Consistent.coherent (consistent : Consistent codecs store) : Coherent store where
  records family found := by
    obtain ⟨link, read, at_key, plain, -⟩ := consistent.records family found
    exact ⟨link, read, at_key, plain⟩
  index := consistent.index
  defaults := consistent.defaults

theorem Consistent.accepted (consistent : Consistent codecs store) (held : Holds store link) :
    link.Accepted codecs := by
  obtain ⟨record, found, read⟩ := held
  obtain ⟨stored, read', -, -, accepted⟩ := consistent.records link.scope_prefix_key found
  obtain rfl : link = stored := by simpa [read] using read'
  exact accepted

/-- A held link can be told from its record. -/
theorem Coherent.holds_of_get? (coherent : Coherent store) {key record : Bytes}
    (family : Key.scope Key.chainLinks <+: key) (found : store.get? key = some record) :
    ∃ link, ChainLink.decode record = .ok link ∧ link.key = key ∧ Holds store link := by
  obtain ⟨link, read, at_key, -⟩ := coherent.records family found
  exact ⟨link, read, at_key, record, at_key ▸ found, read⟩

theorem Coherent.plain (coherent : Coherent store) (held : Holds store link) : link.Plain := by
  obtain ⟨record, found, read⟩ := held
  obtain ⟨stored, read', -, plain⟩ := coherent.records link.scope_prefix_key found
  obtain rfl : link = stored := by simpa [read] using read'
  exact plain

/-- Entries of a store under keys of links are records of held links, each at the key of its
link. -/
theorem Coherent.mapM_readLink_of_entries (coherent : Coherent store) {entries : List Entry}
    (stored : ∀ entry ∈ entries,
      Key.scope Key.chainLinks <+: entry.1 ∧ store.get? entry.1 = some entry.2) :
    ∃ links, entries.mapM (fun entry => readLink entry.2) = .ok links ∧
      links.map ChainLink.key = entries.map (·.1) ∧
      ∀ link, link ∈ links ↔ Holds store link ∧ ∃ entry ∈ entries, entry.1 = link.key := by
  have read : ∀ entry ∈ entries, ∃ link, readLink entry.2 = .ok link ∧ link.key = entry.1 ∧
      Holds store link := by
    intro entry member
    have ⟨family, found⟩ := stored entry member
    obtain ⟨link, read, same, held⟩ := coherent.holds_of_get? family found
    exact ⟨link, readLink_eq_ok_iff.2 read, same, held⟩
  have told {entry link} (member : entry ∈ entries) (same : readLink entry.2 = .ok link) :
      link.key = entry.1 ∧ Holds store link := by
    obtain ⟨stored, same', key, held⟩ := read entry member
    obtain rfl := Except.ok.inj (same.symm.trans same')
    exact ⟨key, held⟩
  obtain ⟨links, traversed⟩ := exists_mapM_eq_ok fun entry member =>
    (read entry member).imp fun _ => And.left
  refine ⟨links, traversed, map_of_mapM_eq_ok traversed fun entry member link same =>
    (told member same).1, fun link => ?_⟩
  rw [mem_of_mapM_eq_ok traversed]
  constructor
  · rintro ⟨entry, member, same⟩
    exact ⟨(told member same).2, entry, member, (told member same).1.symm⟩
  · rintro ⟨⟨record, found, decoded⟩, entry, member, same⟩
    -- The entry at the key of a held link is the record of that link.
    have value : entry.2 = record :=
      Option.some.inj ((stored entry member).2.symm.trans (same ▸ found))
    exact ⟨entry, member, value ▸ readLink_eq_ok_iff.2 decoded⟩

/-- What a coherent store is short of being consistent: accepted links, each with a default for its
owner and chain. -/
theorem Coherent.consistent (coherent : Coherent store)
    (accepted : ∀ link, Holds store link → link.Accepted codecs)
    (defaulted : ∀ link, Holds store link → store.contains link.defaultKey = true) :
    Consistent codecs store where
  records family found := by
    obtain ⟨link, read, at_key, held⟩ := coherent.holds_of_get? family found
    exact ⟨link, read, at_key, coherent.plain held, accepted link held⟩
  index := coherent.index
  defaults := coherent.defaults
  defaulted held := defaulted _ held

end

/-- No two held links have one key. -/
theorem Holds.eq_of_key {store : Store} {left right : ChainLink} (heldLeft : Holds store left)
    (heldRight : Holds store right) (same : left.key = right.key) : left = right := by
  obtain ⟨record, found, read⟩ := heldLeft
  obtain ⟨record', found', read'⟩ := heldRight
  obtain rfl : record = record' := by simpa [same, found'] using found.symm
  simpa [read] using read'

/-! ## Saving -/

/-- What a save of a link leaves in each family of keys. -/
structure Saved (codecs : SignDocumentCodecs) (store next : Store) (link : ChainLink)
    (record : Bytes) : Prop where
  accepted : link.Accepted codecs
  absent : store.get? link.key = none
  read : ChainLink.decode record = .ok link
  records : ∀ {key}, Key.scope Key.chainLinks <+: key →
    next.get? key = if link.key = key then some record else store.get? key
  index : ∀ {key}, Key.scope Key.chainLinkOwner <+: key →
    next.get? key = if link.ownerIndexKey = key then some Key.sentinel else store.get? key
  defaults : ∀ {key}, Key.scope Key.defaultExternalAddress <+: key →
    next.get? key = if link.defaultKey = key
      then (store.get? key).or (some (Utf8.encode link.address.value)) else store.get? key

section

variable {codecs : SignDocumentCodecs} {store next : Store} {link : ChainLink}

/-- The writes of a save, at any key. -/
theorem get?_apply_saved (record key : Bytes) :
    (store.apply (.put link.key record :: .put link.ownerIndexKey Key.sentinel ::
        if store.contains link.defaultKey then []
        else [.put link.defaultKey (Utf8.encode link.address.value)])).get? key
      = if link.defaultKey = key ∧ store.get? key = none then
          some (Utf8.encode link.address.value)
        else if link.ownerIndexKey = key then some Key.sentinel
        else if link.key = key then some record
        else store.get? key := by
  cases present : store.contains link.defaultKey with
  | true =>
    obtain ⟨current, found⟩ := Store.contains_iff.1 present
    simp only [Store.apply_cons, Store.apply_nil, Store.change, Store.get?_insert, ↓reduceIte]
    -- There is a default already, so nothing is written there.
    have kept : ¬ (link.defaultKey = key ∧ store.get? key = none) := by
      rintro ⟨rfl, none⟩
      rw [none] at found
      cases found
    rw [if_neg kept]
  | false =>
    have none := Store.contains_eq_false_iff.1 present
    simp only [Store.apply_cons, Store.apply_nil, Store.change, Store.get?_insert,
      Bool.false_eq_true, ↓reduceIte]
    by_cases same : link.defaultKey = key
    · rw [if_pos same, if_pos ⟨same, same ▸ none⟩]
    · have apart : ¬ (link.defaultKey = key ∧ store.get? key = Option.none) :=
        fun both => same both.1
      rw [if_neg same, if_neg apart]

theorem save_eq_ok_iff :
    save codecs store link = .ok next
      ↔ link.Accepted codecs ∧ store.get? link.key = none ∧ ∃ record, link.encode = .ok record ∧
        store.apply (.put link.key record :: .put link.ownerIndexKey Key.sentinel ::
          if store.contains link.defaultKey then []
          else [.put link.defaultKey (Utf8.encode link.address.value)]) = next := by
  rw [save, map_eq_ok_iff, ← accept_eq_ok_iff, ← Store.contains_eq_false_iff]
  constructor
  · rintro ⟨changes, planned, rfl⟩
    obtain ⟨⟨⟩, valid, planned⟩ := bind_eq_ok_iff.1 planned
    have accepted : accept codecs link = .ok () := by
      unfold requireValid at valid
      split at valid
      · next same => exact same
      · cases valid
    -- Behind the checks come the two places where a save can still fail.
    split at planned
    · cases planned
    next absent =>
    split at planned
    · cases planned
    next record written =>
    obtain rfl := Except.ok.inj planned
    exact ⟨accepted, Bool.eq_false_iff.2 absent, record, written, rfl⟩
  · rintro ⟨accepted, absent, record, written, rfl⟩
    refine ⟨_, bind_eq_ok_iff.2 ⟨(), by rw [accepted, requireValid], ?_⟩, rfl⟩
    simp only [absent, written, Bool.false_eq_true, ↓reduceIte]

theorem saved_of_save (saved : save codecs store link = .ok next) :
    ∃ record, Saved codecs store next link record := by
  obtain ⟨accepted, absent, record, written, rfl⟩ := save_eq_ok_iff.1 saved
  refine ⟨record, accepted, absent, ChainLink.decode_encode written, ?_, ?_, ?_⟩
  all_goals intro key family; rw [get?_apply_saved]
  case refine_1 => simp [link.ne_of_records family]
  case refine_2 => simp [link.ne_of_index family]
  case refine_3 =>
    simp only [link.ne_of_defaults family, ↓reduceIte]
    by_cases same : link.defaultKey = key <;> cases store.get? key <;> simp [same]

/-- A save writes at the three keys of its link only. -/
theorem get?_of_save (saved : save codecs store link = .ok next) {key : Bytes}
    (other : key ∉ [link.key, link.ownerIndexKey, link.defaultKey]) :
    next.get? key = store.get? key := by
  obtain ⟨-, -, record, -, rfl⟩ := save_eq_ok_iff.1 saved
  simp only [List.mem_cons, List.not_mem_nil, or_false, not_or] at other
  rw [get?_apply_saved, if_neg fun both => other.2.2 both.1.symm, if_neg (Ne.symm other.2.1),
    if_neg (Ne.symm other.1)]

/-- After a save the store holds the new link and those it held. -/
theorem Saved.holds_iff {record : Bytes} (saved : Saved codecs store next link record)
    (other : ChainLink) : Holds next other ↔ other = link ∨ Holds store other := by
  unfold Holds
  rw [saved.records other.scope_prefix_key]
  by_cases same : link.key = other.key
  · simp only [same, ↓reduceIte, Option.some.injEq, exists_eq_left', saved.read, Except.ok.injEq]
    simp [← same, saved.absent, eq_comm]
  · have differ : other ≠ link := fun equal => same (by rw [equal])
    simp [same, differ]

theorem Coherent.save (coherent : Coherent store) (plain : link.Plain)
    (succeeded : LinkStore.save codecs store link = .ok next) : Coherent next := by
  obtain ⟨record, saved⟩ := saved_of_save succeeded
  have holds := saved.holds_iff
  constructor
  case records =>
    intro key stored family found
    rw [saved.records family] at found
    split at found
    · next same =>
      obtain rfl := Option.some.inj found
      exact ⟨link, saved.read, same, plain⟩
    · exact coherent.records family found
  case index =>
    intro key value family
    simp only [saved.index family, holds]
    split
    · -- The entry of the new link is there whether or not another link had written it.
      next same => simp [same, eq_comm]
    · next differ => simp [coherent.index family, or_and_right, exists_or, differ]
  case defaults =>
    intro key value family found
    simp only [saved.defaults family] at found
    simp only [holds]
    -- A save sets a default only where there was none.
    cases before : store.get? key with
    | some current =>
      obtain rfl : current = value := by split at found <;> simpa [before] using found
      obtain ⟨other, held, same, address⟩ := coherent.defaults family before
      exact ⟨other, .inr held, same, address⟩
    | none =>
      simp only [before, Option.none_or] at found
      split at found
      · next same => exact ⟨link, .inl rfl, same, Option.some.inj found⟩
      · cases found

theorem Consistent.save (consistent : Consistent codecs store) (plain : link.Plain)
    (succeeded : LinkStore.save codecs store link = .ok next) : Consistent codecs next := by
  obtain ⟨record, saved⟩ := saved_of_save succeeded
  have holds := saved.holds_iff
  refine (consistent.coherent.save plain succeeded).consistent (fun other held => ?_)
    fun other held => ?_
  · rcases (holds other).1 held with rfl | before
    · exact saved.accepted
    · exact consistent.accepted before
  · rw [Store.contains_iff, saved.defaults other.scope_prefix_defaultKey]
    rcases (holds other).1 held with rfl | before
    · -- The place of the new link has the old default or its own address.
      simp only [↓reduceIte]
      cases store.get? other.defaultKey <;> simp
    · obtain ⟨current, found⟩ := Store.contains_iff.1 (consistent.defaulted before)
      simp [found]

end

/-! ## Deleting -/

theorem oldest?_concat (links : List ChainLink) (link : ChainLink) :
    oldest? (links ++ [link])
      = match oldest? links with
        | none => some link
        | some found => if link.creationTime < found.creationTime then some link else some found :=
  List.foldl_concat ..

theorem oldest?_eq_none_iff {links : List ChainLink} : oldest? links = none ↔ links = [] := by
  induction links using List.reverseRecOn with
  | nil => exact ⟨fun _ => rfl, fun _ => rfl⟩
  | append_singleton links link _ =>
    rw [oldest?_concat]
    cases oldest? links with
    | none => simp
    | some found => by_cases earlier : link.creationTime < found.creationTime <;> simp [earlier]

/-- The oldest link is older than each one before it, and none behind it is older. -/
theorem exists_split_of_oldest? {links : List ChainLink} {oldest : ChainLink}
    (found : oldest? links = some oldest) :
    ∃ before behind, links = before ++ oldest :: behind
      ∧ (∀ link ∈ before, oldest.creationTime < link.creationTime)
      ∧ ∀ link ∈ behind, oldest.creationTime ≤ link.creationTime := by
  induction links using List.reverseRecOn generalizing oldest with
  | nil => cases found
  | append_singleton links link ih =>
    rw [oldest?_concat] at found
    split at found
    · next none =>
      obtain rfl := oldest?_eq_none_iff.1 none
      obtain rfl := Option.some.inj found
      exact ⟨[], [], rfl, nofun, nofun⟩
    · next first soFar =>
      obtain ⟨before, behind, rfl, later, notEarlier⟩ := ih soFar
      split at found
      · -- The last link is older than the oldest up to it, so older than all of them.
        next earlier =>
        obtain rfl := Option.some.inj found
        refine ⟨before ++ first :: behind, [], rfl, fun other member => ?_, nofun⟩
        rcases List.mem_append.1 member with ahead | rest
        · exact UInt64.lt_trans earlier (later other ahead)
        rcases List.mem_cons.1 rest with rfl | after
        · exact earlier
        · exact UInt64.lt_of_lt_of_le earlier (notEarlier other after)
      · next notOlder =>
        obtain rfl := Option.some.inj found
        refine ⟨before, behind ++ [link], by simp, later, fun other member => ?_⟩
        rcases List.mem_append.1 member with after | last
        · exact notEarlier other after
        · obtain rfl := List.mem_singleton.1 last
          exact UInt64.not_lt.1 notOlder

/-- The oldest of some links is one of them. -/
theorem mem_of_oldest? {links : List ChainLink} {oldest : ChainLink}
    (found : oldest? links = some oldest) : oldest ∈ links := by
  obtain ⟨before, behind, rfl, -, -⟩ := exists_split_of_oldest? found
  simp

/-- There is an oldest unless there are no links. -/
theorem exists_oldest? {links : List ChainLink} {link : ChainLink} (member : link ∈ links) :
    ∃ oldest, oldest? links = some oldest := by
  cases found : oldest? links with
  | none =>
    obtain rfl := oldest?_eq_none_iff.1 found
    cases member
  | some oldest => exact ⟨oldest, rfl⟩

section

variable {codecs : SignDocumentCodecs} {store next : Store} {link : ChainLink}

/-- The other links of an owner on a chain, as a store that holds them gives them. -/
def OthersOf (store : Store) (link : ChainLink) (links : List ChainLink) : Prop :=
  ∀ other, other ∈ links ↔ Holds store other ∧ other.owner = link.owner ∧
    other.chainName = link.chainName ∧ other.key ≠ link.key

/-- The scan that a delete makes for another default can be read, and gives the other links in the
order of their keys. -/
theorem Coherent.others (coherent : Coherent store) (link : ChainLink) :
    ∃ links, ((store.scan (Key.userChainLinksByChain link.owner link.chainName)).filter
        (·.1 ≠ link.key)).mapM (fun entry => readLink entry.2) = .ok links ∧
      OthersOf store link links ∧ links.Pairwise fun left right => left.key < right.key := by
  have under := Key.scope_prefix_userChainLinksByChain link.owner link.chainName
  have stored : ∀ entry ∈ (store.scan (Key.userChainLinksByChain link.owner
      link.chainName)).filter (·.1 ≠ link.key),
      Key.scope Key.chainLinks <+: entry.1 ∧ store.get? entry.1 = some entry.2 := by
    intro entry member
    have ⟨lead, found⟩ := Store.mem_scan_iff.1 (List.mem_filter.1 member).1
    exact ⟨under.trans lead, found⟩
  obtain ⟨links, traversed, keys, members⟩ := coherent.mapM_readLink_of_entries stored
  refine ⟨links, traversed, fun other => ?_, ?_⟩
  · rw [members]
    refine and_congr_right fun held => ?_
    -- The lead of a key gives away owner and chain.
    rw [eq_comm, eq_comm (a := other.chainName), ← and_assoc,
      ← (coherent.plain held).userChainLinksByChain_prefix_iff]
    constructor
    · rintro ⟨⟨key, record⟩, member, rfl⟩
      have ⟨within, differ⟩ := List.mem_filter.1 member
      exact ⟨(Store.mem_scan_iff.1 within).1, by simpa using differ⟩
    · rintro ⟨lead, differ⟩
      obtain ⟨record, found, -⟩ := held
      exact ⟨(other.key, record), List.mem_filter.2 ⟨Store.mem_scan_iff.2 ⟨lead, found⟩,
        by simpa using differ⟩, rfl⟩
  · -- The links come in the order of the entries.
    refine List.pairwise_map.1 (keys ▸ List.pairwise_map.2 ?_)
    exact (store.ascending.filter _).filter _

/-- A default address is that of a held link of its owner and chain. -/
theorem Coherent.default_of_get? (coherent : Coherent store)
    {owner chainName : String} {value : Bytes}
    (found : store.get? (Key.defaultAddress owner chainName) = some value) :
    ∃ link, Holds store link ∧ link.owner = owner ∧ link.chainName = chainName ∧
      Utf8.encode link.address.value = value := by
  obtain ⟨link, held, same, address⟩ :=
    coherent.defaults (Key.scope_prefix_defaultAddress owner chainName) found
  have ⟨owners, chains⟩ := (coherent.plain held).defaultKey_eq_iff.1 same.symm
  exact ⟨link, held, owners.symm, chains.symm, address⟩

/-- A default address reads as the text that was written. -/
theorem Coherent.defaultAddress_eq (coherent : Coherent store)
    (owner chainName : String) :
    ∃ current, defaultAddress store owner chainName = .ok current ∧
      store.get? (Key.defaultAddress owner chainName) = current.map Utf8.encode := by
  unfold defaultAddress
  cases found : store.get? (Key.defaultAddress owner chainName) with
  | none => exact ⟨none, rfl, rfl⟩
  | some value =>
    obtain ⟨link, _, _, _, rfl⟩ := coherent.default_of_get? found
    exact ⟨some link.address.value, by simp [readText, Except.map], rfl⟩

/-- What a delete of a link leaves in each family of keys, given the other links of its owner on its
chain. -/
structure Deleted (store next : Store) (link : ChainLink) (links : List ChainLink) : Prop where
  others : OthersOf store link links
  records : ∀ {key}, Key.scope Key.chainLinks <+: key →
    next.get? key = if link.key = key then none else store.get? key
  index : ∀ {key}, Key.scope Key.chainLinkOwner <+: key →
    next.get? key = if link.ownerIndexKey = key then none else store.get? key
  defaults : ∀ {key}, Key.scope Key.defaultExternalAddress <+: key →
    next.get? key = if link.defaultKey = key ∧
        store.get? key = some (Utf8.encode link.address.value) then
      (oldest? links).map (Utf8.encode ·.address.value) else store.get? key

/-- The change of a default address puts the oldest of the other links in its place. -/
theorem Coherent.exists_changeOfDefault (coherent : Coherent store) (link : ChainLink) :
    ∃ links change, changeOfDefault store link = .ok change ∧ OthersOf store link links ∧
      (links.Pairwise fun left right => left.key < right.key) ∧
      ∀ (base : Store) key, (base.change change).get? key
        = if link.defaultKey = key then (oldest? links).map (Utf8.encode ·.address.value)
          else base.get? key := by
  obtain ⟨links, traversed, members, ordered⟩ := coherent.others link
  cases oldest : oldest? links with
  | none =>
    refine ⟨links, .delete link.defaultKey, bind_eq_ok_iff.2 ⟨links, traversed, ?_⟩, members,
      ordered, fun base key => ?_⟩
    · rw [oldest]
    · rw [oldest]
      exact base.get?_erase ..
  | some heir =>
    refine ⟨links, .put link.defaultKey (Utf8.encode heir.address.value),
      bind_eq_ok_iff.2 ⟨links, traversed, ?_⟩, members, ordered, fun base key => ?_⟩
    · rw [oldest]
    · rw [oldest]
      exact base.get?_insert ..

/-- Whether a link is the default of its owner on its chain can be told from the store. -/
theorem Coherent.defaultAddress_eq_some_iff (coherent : Coherent store)
    {current : Option String}
    (read : defaultAddress store link.owner link.chainName = .ok current) :
    current = some link.address.value
      ↔ store.get? link.defaultKey = some (Utf8.encode link.address.value) := by
  obtain ⟨address, again, found⟩ := coherent.defaultAddress_eq link.owner link.chainName
  obtain rfl := Except.ok.inj (read.symm.trans again)
  rw [ChainLink.defaultKey, found]
  cases current <;> simp [Utf8.encode_inj]

theorem delete_of_absent (absent : store.get? link.key = none) :
    delete store link = .error (.chainLinkNotFound link.key) := by
  simp [delete, changesToDelete, Store.contains_eq_false_iff.2 absent, Except.map]

/-- A link that is there can be deleted, which leaves at every key what is said here. -/
theorem Coherent.exists_delete (coherent : Coherent store)
    (present : store.contains link.key = true) :
    ∃ next links, LinkStore.delete store link = .ok next ∧ OthersOf store link links ∧
      (links.Pairwise fun left right => left.key < right.key) ∧
      ∀ key, next.get? key
        = if link.defaultKey = key ∧ store.get? key = some (Utf8.encode link.address.value) then
            (oldest? links).map (Utf8.encode ·.address.value)
          else if link.ownerIndexKey = key then none
          else if link.key = key then none
          else store.get? key := by
  obtain ⟨links, promotion, chosen, members, ordered, promoted⟩ :=
    coherent.exists_changeOfDefault link
  obtain ⟨current, read, -⟩ := coherent.defaultAddress_eq link.owner link.chainName
  have isDefault := coherent.defaultAddress_eq_some_iff read
  have removal (key : Bytes) : ((store.erase link.key).erase link.ownerIndexKey).get? key
      = if link.ownerIndexKey = key then none
        else if link.key = key then none else store.get? key := by
    rw [Store.get?_erase, Store.get?_erase]
  by_cases default : store.get? link.defaultKey = some (Utf8.encode link.address.value)
  · -- The link is the default, so a third write goes to that place.
    have planned : changesToDelete store link
        = .ok ([.delete link.key, .delete link.ownerIndexKey] ++ [promotion]) := by
      rw [changesToDelete, present, read, chosen, isDefault.2 default]
      simp [bind, Except.bind]
    refine ⟨_, links, map_eq_ok_iff.2 ⟨_, planned, rfl⟩, members, ordered, fun key => ?_⟩
    simp only [List.cons_append, List.nil_append, Store.apply_cons, Store.apply_nil, promoted]
    by_cases same : link.defaultKey = key
    · rw [if_pos same, if_pos ⟨same, same ▸ default⟩]
    · rw [if_neg same, if_neg fun both => same both.1]
      exact removal key
  · have planned : changesToDelete store link
        = .ok [.delete link.key, .delete link.ownerIndexKey] := by
      rw [changesToDelete, present, read]
      simp [bind, Except.bind, mt isDefault.1 default]
    refine ⟨_, links, map_eq_ok_iff.2 ⟨_, planned, rfl⟩, members, ordered, fun key => ?_⟩
    have kept : ¬ (link.defaultKey = key
        ∧ store.get? key = some (Utf8.encode link.address.value)) := by
      rintro ⟨rfl, same⟩
      exact default same
    rw [if_neg kept]
    exact removal key

theorem Coherent.deleted_of_delete (coherent : Coherent store)
    (succeeded : LinkStore.delete store link = .ok next) :
    ∃ links, Deleted store next link links := by
  have present : store.contains link.key = true := by
    by_contra missing
    have absent := Store.contains_eq_false_iff.1 (Bool.not_eq_true _ ▸ missing)
    rw [delete_of_absent absent] at succeeded
    cases succeeded
  obtain ⟨other, links, again, members, -, found⟩ := coherent.exists_delete present
  obtain rfl := Except.ok.inj (again.symm.trans succeeded)
  refine ⟨links, members, ?_, ?_, ?_⟩
  all_goals intro key family; rw [found]
  case refine_1 => simp [link.ne_of_records family]
  case refine_2 => simp [link.ne_of_index family]
  case refine_3 => simp [link.ne_of_defaults family]

/-- After a delete the store holds the other links that it held. -/
theorem Deleted.holds_iff {links : List ChainLink} (deleted : Deleted store next link links)
    (other : ChainLink) : Holds next other ↔ Holds store other ∧ other.key ≠ link.key := by
  unfold Holds
  rw [deleted.records other.scope_prefix_key]
  by_cases same : link.key = other.key
  · simp [same]
  · simp [same, Ne.symm same]

/-- Held links have one index key only if they have one key. -/
theorem Coherent.ownerIndexKey_eq_iff (coherent : Coherent store) {other : ChainLink}
    (held : Holds store other) :
    link.ownerIndexKey = other.ownerIndexKey ↔ link.key = other.key := by
  have plain := coherent.plain held
  refine plain.ownerIndexKey_eq_iff.trans (Iff.trans ?_ plain.key_eq_iff.symm)
  exact ⟨fun ⟨chain, address, owner⟩ => ⟨owner, chain, address⟩,
    fun ⟨owner, chain, address⟩ => ⟨chain, address, owner⟩⟩

theorem Coherent.delete (coherent : Coherent store)
    (succeeded : LinkStore.delete store link = .ok next) : Coherent next := by
  obtain ⟨links, deleted⟩ := coherent.deleted_of_delete succeeded
  have holds := deleted.holds_iff
  constructor
  case records =>
    intro key record family found
    rw [deleted.records family] at found
    split at found
    · cases found
    · exact coherent.records family found
  case index =>
    intro key value family
    simp only [deleted.index family, holds]
    split
    · next same =>
      -- Only the deleted link has its index key.
      simp only [reduceCtorEq, false_iff, not_and, not_exists]
      rintro _ other ⟨held, differ⟩ rfl
      exact differ ((coherent.ownerIndexKey_eq_iff held).1 same).symm
    · next differ =>
      rw [coherent.index family]
      refine and_congr_right fun _ => exists_congr fun other => ?_
      constructor
      · rintro ⟨held, rfl⟩
        exact ⟨⟨held, fun equal =>
          differ ((coherent.ownerIndexKey_eq_iff held).2 equal.symm)⟩, rfl⟩
      · rintro ⟨⟨held, _⟩, same⟩
        exact ⟨held, same⟩
  case defaults =>
    intro key value family found
    rw [deleted.defaults family] at found
    simp only [holds]
    split at found
    · -- What is set now is the address of the oldest link left, which has the same place.
      next promoted =>
      obtain ⟨heir, oldest, rfl⟩ := Option.map_eq_some_iff.1 found
      have member := mem_of_oldest? oldest
      obtain ⟨held, owner, chainName, differ⟩ := (deleted.others heir).1 member
      have place : heir.defaultKey = key := by
        rw [← promoted.1, ChainLink.defaultKey, owner, chainName]
        rfl
      exact ⟨heir, ⟨held, differ⟩, place, rfl⟩
    · -- The default stayed, so the link that it is the address of is not the deleted one.
      next kept =>
      obtain ⟨other, held, rfl, rfl⟩ := coherent.defaults family found
      refine ⟨other, ⟨held, fun equal => kept ?_⟩, rfl, rfl⟩
      have ⟨owner, chainName, address⟩ := (coherent.plain held).key_eq_iff.1 equal.symm
      exact ⟨(coherent.plain held).defaultKey_eq_iff.2 ⟨owner, chainName⟩, address ▸ found⟩

theorem Consistent.delete (consistent : Consistent codecs store)
    (succeeded : LinkStore.delete store link = .ok next) : Consistent codecs next := by
  have coherent := consistent.coherent
  obtain ⟨links, deleted⟩ := coherent.deleted_of_delete succeeded
  have holds := deleted.holds_iff
  refine (coherent.delete succeeded).consistent (fun other held => ?_) fun other held => ?_
  · exact consistent.accepted ((holds other).1 held).1
  · have ⟨before, differ⟩ := (holds other).1 held
    rw [Store.contains_iff, deleted.defaults other.scope_prefix_defaultKey]
    split
    · -- A link that is left at this place is among the others, so there is an oldest of them.
      next promoted =>
      have ⟨owner, chainName⟩ := (coherent.plain before).defaultKey_eq_iff.1 promoted.1
      have member := (deleted.others other).2 ⟨before, owner.symm, chainName.symm, differ⟩
      obtain ⟨heir, oldest⟩ := exists_oldest? member
      exact ⟨Utf8.encode heir.address.value, by rw [oldest]; rfl⟩
    · exact Store.contains_iff.1 (consistent.defaulted before)

end

/-! ## Deleting several -/

section

variable {invariant : Store → Prop} {store : Store}
  (deletes : ∀ {store next link}, invariant store → delete store link = .ok next → invariant next)
include deletes

/-- What each delete keeps is kept by deleting one link after another, also if it fails midway. -/
theorem deleteEach_induction (links : List ChainLink) (holds : invariant store) :
    invariant (deleteEach store links).1 := by
  induction links generalizing store with
  | nil => exact holds
  | cons link rest ih =>
    rw [deleteEach]
    split
    · next next deleted => exact ih (deletes holds deleted)
    · exact holds

theorem deleteAll_induction (owner : String) (holds : invariant store) :
    invariant (deleteAll store owner).1 := by
  unfold deleteAll
  split
  · exact holds
  · exact deleteEach_induction deletes _ holds

end

end LinkStore

end LinkRegistry
