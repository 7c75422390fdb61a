import LinkRegistry.Proofs.LinkStore.History

/-!
# Deleting a link

A delete fails on links that are not held, and on no others. It takes away the record of the link
and its entry in the owner index. Where the link was the default of its owner on its chain, the
default falls to the heir: the oldest of the other links there and, of several as old, the one with
the least address. So a delete right after a save takes the save back. Main statement,
`LinkStore.delete_leaves_to_heir`.
-/

namespace LinkRegistry.LinkStore

/-- A store that calls without zero bytes in their texts have made of the empty one. -/
def Reached (codecs : SignDocumentCodecs) (store : Store) : Prop :=
  ∃ calls : List Call, (∀ call ∈ calls, call.Plain) ∧ history codecs calls = store

/-- A store holds a link of the owner, the chain and the address of a link. -/
def Stored (store : Store) (link : ChainLink) : Prop :=
  ∃ held, Holds store held ∧ held.owner = link.owner ∧ held.chainName = link.chainName ∧
    held.address.value = link.address.value

/-! ## Heirs -/

/-- A link was made earlier than another, or at the same time and has the lesser address. -/
def Precedes (link other : ChainLink) : Prop :=
  link.creationTime < other.creationTime ∨
    link.creationTime = other.creationTime ∧
      Utf8.encode link.address.value < Utf8.encode other.address.value

/-- A store holds another link for the owner of a link on its chain. -/
structure Beside (store : Store) (link other : ChainLink) : Prop where
  held : Holds store other
  owner : other.owner = link.owner
  chainName : other.chainName = link.chainName
  address : other.address.value ≠ link.address.value

/-- Of the links beside a link, the one that precedes all others. -/
structure Heir (store : Store) (link heir : ChainLink) : Prop where
  beside : Beside store link heir
  first : ∀ other, Beside store link other → other ≠ heir → Precedes heir other

/-- What a delete of a link leaves. -/
structure Removed (store next : Store) (link : ChainLink) : Prop where
  record : store.contains link.key = true ∧ next.get? link.key = none
  index : store.get? link.ownerIndexKey = some Key.sentinel ∧ next.get? link.ownerIndexKey = none
  passed : store.get? link.defaultKey = some (Utf8.encode link.address.value) →
    (∃ heir, Heir store link heir ∧
      next.get? link.defaultKey = some (Utf8.encode heir.address.value)) ∨
    (¬ ∃ other, Beside store link other) ∧ next.get? link.defaultKey = none
  kept : store.get? link.defaultKey ≠ some (Utf8.encode link.address.value) →
    next.get? link.defaultKey = store.get? link.defaultKey
  elsewhere : ∀ key, key ∉ [link.key, link.ownerIndexKey, link.defaultKey] →
    next.get? key = store.get? key

section

variable {codecs : SignDocumentCodecs} {store next : Store} {link : ChainLink}

theorem Reached.consistent (reached : Reached codecs store) : Consistent codecs store := by
  obtain ⟨calls, plain, rfl⟩ := reached
  exact consistent_history codecs plain

theorem Reached.save (reached : Reached codecs store) (plain : link.Plain)
    (saved : LinkStore.save codecs store link = .ok next) : Reached codecs next := by
  obtain ⟨calls, plainCalls, rfl⟩ := reached
  refine ⟨calls ++ [.save link], fun call member => ?_, ?_⟩
  · rcases List.mem_append.1 member with earlier | last
    · exact plainCalls call earlier
    · exact List.mem_singleton.1 last ▸ plain
  · rw [history, List.foldl_concat, ← history, perform, saved]

/-- A key is taken exactly if a link of its owner, chain and address is held. -/
theorem Coherent.contains_key_iff (coherent : Coherent store) (link : ChainLink) :
    store.contains link.key = true ↔ Stored store link := by
  rw [coherent.contains_iff link.scope_prefix_key]
  refine exists_congr fun held => and_congr_right fun there => ?_
  rw [eq_comm, ChainLink.key, (coherent.plain there).key_eq_iff, eq_comm,
    eq_comm (a := link.chainName), eq_comm (a := link.address.value)]

/-- A link whose key is taken has an entry in the owner index. -/
theorem Coherent.indexed (coherent : Coherent store) (stored : Stored store link) :
    store.get? link.ownerIndexKey = some Key.sentinel := by
  obtain ⟨held, there, owner, chainName, address⟩ := stored
  have same : held.ownerIndexKey = link.ownerIndexKey := by
    rw [ChainLink.ownerIndexKey, ChainLink.ownerIndexKey, owner, chainName, address]
  exact (coherent.index link.scope_prefix_ownerIndexKey).2 ⟨rfl, held, there, same⟩

theorem Coherent.mem_others_iff (coherent : Coherent store) {links : List ChainLink}
    (others : OthersOf store link links) (other : ChainLink) :
    other ∈ links ↔ Beside store link other := by
  rw [others]
  constructor
  · rintro ⟨held, owner, chainName, differ⟩
    refine ⟨held, owner, chainName, fun address => differ ?_⟩
    rw [ChainLink.key, ChainLink.key, owner, chainName, address]
  · rintro ⟨held, owner, chainName, differ⟩
    refine ⟨held, owner, chainName, fun same => differ ?_⟩
    exact ((coherent.plain held).key_eq_iff.1 same.symm).2.2.symm

/-- The oldest of the other links in the order of their keys is the heir. -/
theorem Coherent.heir_of_oldest? (coherent : Coherent store) {links : List ChainLink}
    (others : OthersOf store link links)
    (ordered : links.Pairwise fun left right => left.key < right.key) {heir : ChainLink}
    (oldest : oldest? links = some heir) : Heir store link heir := by
  have beside := (coherent.mem_others_iff others heir).1 (mem_of_oldest? oldest)
  refine ⟨beside, fun other another differ => ?_⟩
  obtain ⟨before, behind, rfl, later, notEarlier⟩ := exists_split_of_oldest? oldest
  have member := (coherent.mem_others_iff others other).2 another
  rcases List.mem_append.1 member with ahead | rest
  · exact .inl (later other ahead)
  have after := (List.mem_cons.1 rest).resolve_left differ
  -- Behind the heir only links as old are in question, and those have greater addresses.
  rcases UInt64.lt_or_eq_of_le (notEarlier other after) with younger | same
  · exact .inl younger
  · have below : heir.key < other.key :=
      (List.pairwise_cons.1 (List.pairwise_append.1 ordered).2.1).1 other after
    rw [ChainLink.key, ChainLink.key, beside.owner, beside.chainName, another.owner,
      another.chainName] at below
    exact .inr ⟨same, Key.encode_lt_of_chainLink_lt below⟩

/-! ## Deleting -/

theorem Coherent.removed_of_delete (coherent : Coherent store) (stored : Stored store link) :
    ∃ next, LinkStore.delete store link = .ok next ∧ Removed store next link := by
  have present := (coherent.contains_key_iff link).2 stored
  obtain ⟨next, links, deleted, others, ordered, found⟩ := coherent.exists_delete present
  refine ⟨next, deleted, ?_⟩
  constructor
  case record =>
    refine ⟨present, ?_⟩
    simp [found, link.ne_of_records link.scope_prefix_key]
  case index =>
    refine ⟨coherent.indexed stored, ?_⟩
    simp [found, link.ne_of_index link.scope_prefix_ownerIndexKey]
  case passed =>
    intro default
    rw [found, if_pos ⟨rfl, default⟩]
    -- The links read for it are the others of that owner and chain.
    cases oldest : oldest? links with
    | some heir => exact .inl ⟨heir, coherent.heir_of_oldest? others ordered oldest, rfl⟩
    | none =>
      obtain rfl := oldest?_eq_none_iff.1 oldest
      refine .inr ⟨fun ⟨other, beside⟩ => ?_, rfl⟩
      cases (coherent.mem_others_iff others other).2 beside
  case kept =>
    intro other
    simp [found, other, link.ne_of_defaults link.scope_prefix_defaultKey]
  case elsewhere =>
    intro key other
    simp only [List.mem_cons, List.not_mem_nil, or_false, not_or] at other
    rw [found, if_neg fun both => other.2.2 both.1.symm, if_neg (Ne.symm other.2.1),
      if_neg (Ne.symm other.1)]

/-! ## Taking back a save -/

/-- Where nothing is at the key of a link, its index entry is not there either, nor is its address
the default. -/
theorem Coherent.absent_elsewhere (coherent : Coherent store)
    (absent : store.get? link.key = none) :
    store.get? link.ownerIndexKey = none
      ∧ store.get? link.defaultKey ≠ some (Utf8.encode link.address.value) := by
  have new : ¬ Stored store link := fun stored => by
    have present := (coherent.contains_key_iff link).2 stored
    rw [Store.contains, absent] at present
    cases present
  constructor
  · rw [Option.eq_none_iff_forall_ne_some]
    intro value there
    obtain ⟨-, other, held, same⟩ := (coherent.index link.scope_prefix_ownerIndexKey).1 there
    have key := (coherent.ownerIndexKey_eq_iff held).1 same.symm
    exact new ((coherent.contains_key_iff link).1
      ((coherent.contains_iff link.scope_prefix_key).2 ⟨other, held, key.symm⟩))
  · intro default
    obtain ⟨other, held, owner, chainName, address⟩ := coherent.default_of_get? default
    exact new ⟨other, held, owner, chainName, Utf8.encode_inj.1 address⟩

/-- A link that a save made the default is the only one of its owner on its chain. -/
theorem Consistent.alone_of_save (consistent : Consistent codecs store) {record : Bytes}
    (added : Saved codecs store next link record) {links : List ChainLink}
    (others : OthersOf next link links) (unset : store.get? link.defaultKey = none) :
    links = [] := by
  refine List.eq_nil_iff_forall_not_mem.2 fun other member => ?_
  obtain ⟨held, owner, chainName, differ⟩ := (others other).1 member
  have before : Holds store other :=
    ((added.holds_iff other).1 held).resolve_left fun same => differ (by rw [same])
  have place : other.defaultKey = link.defaultKey := by
    rw [ChainLink.defaultKey, ChainLink.defaultKey, owner, chainName]
  have filled := consistent.defaulted before
  rw [place, Store.contains, unset] at filled
  cases filled

/-- A delete right after a save gives back the store from before. -/
theorem Consistent.delete_of_save (consistent : Consistent codecs store) (plain : link.Plain)
    (saved : LinkStore.save codecs store link = .ok next) :
    LinkStore.delete next link = .ok store := by
  obtain ⟨record, added⟩ := saved_of_save saved
  obtain ⟨unindexed, notDefault⟩ := consistent.coherent.absent_elsewhere added.absent
  have present : next.contains link.key = true := by
    rw [Store.contains_iff, added.records link.scope_prefix_key, if_pos rfl]
    exact ⟨record, rfl⟩
  obtain ⟨after, links, deleted, others, -, found⟩ :=
    (consistent.coherent.save plain saved).exists_delete present
  suffices same : after = store by rw [deleted, same]
  refine Store.ext_get? fun key => ?_
  rw [found]
  by_cases place : link.defaultKey = key
  · subst place
    simp only [added.defaults link.scope_prefix_defaultKey, ↓reduceIte, true_and,
      link.ne_of_defaults link.scope_prefix_defaultKey]
    -- The default is the address of the link only if the save put it there.
    cases before : store.get? link.defaultKey with
    | none => simp [consistent.alone_of_save added others before, oldest?]
    | some value =>
      rw [before] at notDefault
      simp [notDefault]
  by_cases entry : link.ownerIndexKey = key
  · subst entry
    simp [place, unindexed]
  by_cases own : link.key = key
  · subst own
    simp [place, entry, added.absent]
  · simp only [place, entry, own, false_and, ↓reduceIte]
    exact get?_of_save saved (by simp [Ne.symm place, Ne.symm entry, Ne.symm own])

end

/-- On the stores that calls lead to, a delete fails exactly on links that are not stored, and then
changes nothing. Otherwise it takes away record and index entry and passes the default on to the
heir. A delete right after a save gives back the store. -/
theorem delete_leaves_to_heir {codecs : SignDocumentCodecs} {store : Store}
    (reached : Reached codecs store) (link : ChainLink) :
    ((∃ error, delete store link = .error error) ↔ ¬ Stored store link)
      ∧ (∀ error, delete store link = .error error →
        error = .chainLinkNotFound link.key ∧ perform codecs store (.delete link) = store)
      ∧ (∀ next, delete store link = .ok next → Removed store next link)
      ∧ (link.Plain → ∀ next, save codecs store link = .ok next →
        delete next link = .ok store) := by
  have consistent := reached.consistent
  have takesBack (plain : link.Plain) next (saved : save codecs store link = .ok next) :
      delete next link = .ok store := consistent.delete_of_save plain saved
  -- Whether the link is stored decides which of the parts has anything to say.
  by_cases stored : Stored store link
  · obtain ⟨next, deleted, removed⟩ := consistent.coherent.removed_of_delete stored
    have never (error) : delete store link ≠ .error error := by simp [deleted]
    refine ⟨⟨fun ⟨error, failed⟩ => absurd failed (never error), fun new => absurd stored new⟩,
      fun error failed => absurd failed (never error), fun other again => ?_, takesBack⟩
    obtain rfl := Except.ok.inj (deleted.symm.trans again)
    exact removed
  · have absent : store.get? link.key = none := by
      rw [← Store.contains_eq_false_iff, Bool.eq_false_iff]
      exact mt (consistent.coherent.contains_key_iff link).1 stored
    have failed := delete_of_absent absent
    refine ⟨⟨fun _ => stored, fun _ => ⟨_, failed⟩⟩, fun error again => ?_, fun next deleted => ?_,
      takesBack⟩
    · exact ⟨Except.error.inj (again.symm.trans failed), by rw [perform, failed]⟩
    · cases failed.symm.trans deleted

/-- Two links of one owner on one chain, made at one time. -/
def siblingLinks : ChainLink × ChainLink :=
  (neutralLink (.bech32 "c1q8g040f9rl9mu2unkjuj0vn262s6nyrhpp6qcu" "c"),
    neutralLink (.base58 "2U8CyXAfjkDq5brpzNBUHEoneb8"))

theorem delete_leaves_to_heir_siblingLinks :
    ∃ before store next, Reached .standard before ∧ Reached .standard store
      ∧ save .standard before siblingLinks.2 = .ok store
      ∧ delete store siblingLinks.1 = .ok next ∧ Removed store next siblingLinks.1
      ∧ delete store siblingLinks.2 = .ok before := by
  have before : Reached .standard (history .standard [.save siblingLinks.1]) :=
    ⟨_, by decide, rfl⟩
  have runs : (save .standard (history .standard [.save siblingLinks.1]) siblingLinks.2 >>=
      fun store => delete store siblingLinks.1).isOk = true := by decide +kernel
  obtain ⟨next, ran⟩ := exists_eq_ok_of_isOk runs
  obtain ⟨store, saved, deleted⟩ := bind_eq_ok_iff.1 ran
  have plain : siblingLinks.2.Plain := by decide
  have after : Reached .standard store := before.save plain saved
  obtain ⟨-, -, removed, -⟩ := delete_leaves_to_heir after siblingLinks.1
  obtain ⟨-, -, -, takesBack⟩ := delete_leaves_to_heir before siblingLinks.2
  exact ⟨_, store, next, before, after, saved, deleted, removed next deleted,
    takesBack plain store saved⟩

end LinkRegistry.LinkStore
