import LinkRegistry.Proofs.LinkStore.Deletion

/-!
# Deleting all links of an owner

The links of an owner are listed first and then deleted one after another, each from the store that
the deletes before it have left. The invariant of the loop: what is held is what was held before
without the links deleted so far, and only keys of these have changed. So each link is still there
when its turn comes, and a default that was passed on along the way goes with its link. Main
statement, `LinkStore.deleteAll_clears_owner`.
-/

namespace LinkRegistry.LinkStore

/-- The keys that name an owner: of its links, its entries in the owner index and its defaults. -/
inductive OfOwner (owner : String) : Bytes → Prop
  | record (chainName address : String) : OfOwner owner (Key.chainLink owner chainName address)
  | index (chainName address : String) : OfOwner owner (Key.ownerIndex chainName address owner)
  | default (chainName : String) : OfOwner owner (Key.defaultAddress owner chainName)

/-- What is left of a coherent store without some links. -/
structure Cleared (store next : Store) (links : List ChainLink) : Prop where
  coherent : Coherent next
  holds : ∀ link, Holds next link ↔ Holds store link ∧ link ∉ links
  elsewhere : ∀ key, (∀ link ∈ links, key ∉ [link.key, link.ownerIndexKey, link.defaultKey]) →
    next.get? key = store.get? key

section

variable {codecs : SignDocumentCodecs} {store next : Store} {owner : String}

theorem ofOwner_of_mem (link : ChainLink) {key : Bytes}
    (own : key ∈ [link.key, link.ownerIndexKey, link.defaultKey]) : OfOwner link.owner key := by
  simp only [List.mem_cons, List.not_mem_nil, or_false] at own
  rcases own with rfl | rfl | rfl
  · exact .record link.chainName link.address.value
  · exact .index link.chainName link.address.value
  · exact .default link.chainName

/-- The keys of a link name its owner and no other. -/
theorem OfOwner.eq_owner {link : ChainLink} (plain : link.Plain) {key : Bytes}
    (ofOwner : OfOwner owner key) (own : key ∈ [link.key, link.ownerIndexKey, link.defaultKey]) :
    owner = link.owner := by
  simp only [List.mem_cons, List.not_mem_nil, or_false] at own
  -- Keys of different families differ, so each key is compared with that of its own family.
  cases ofOwner with
  | record chainName address =>
    have ⟨notIndex, notDefault⟩ :=
      link.ne_of_records (Key.scope_prefix_chainLink owner chainName address)
    simp only [notIndex.symm, notDefault.symm, or_false] at own
    exact (plain.key_eq_iff.1 own).1
  | index chainName address =>
    have ⟨notRecord, notDefault⟩ :=
      link.ne_of_index (Key.scope_prefix_ownerIndex chainName address owner)
    simp only [notRecord.symm, notDefault.symm, or_false, false_or] at own
    exact (plain.ownerIndexKey_eq_iff.1 own).2.2
  | default chainName =>
    have ⟨notRecord, notIndex⟩ :=
      link.ne_of_defaults (Key.scope_prefix_defaultAddress owner chainName)
    simp only [notRecord.symm, notIndex.symm, false_or] at own
    exact (plain.defaultKey_eq_iff.1 own).1

/-- A coherent store without links of an owner has none of its keys. -/
theorem Coherent.get?_of_ofOwner (coherent : Coherent store)
    (gone : ∀ link, Holds store link → link.owner ≠ owner) {key : Bytes}
    (ofOwner : OfOwner owner key) : store.get? key = none := by
  rw [Option.eq_none_iff_forall_ne_some]
  intro value found
  cases ofOwner with
  | record chainName address =>
    obtain ⟨link, -, same, held⟩ := coherent.holds_of_get? (Key.scope_prefix_chainLink ..) found
    exact gone link held ((coherent.plain held).key_eq_iff.1 same.symm).1.symm
  | index chainName address =>
    obtain ⟨-, link, held, same⟩ := (coherent.index (Key.scope_prefix_ownerIndex ..)).1 found
    exact gone link held ((coherent.plain held).ownerIndexKey_eq_iff.1 same.symm).2.2.symm
  | default chainName =>
    obtain ⟨link, held, same, -⟩ := coherent.default_of_get? found
    exact gone link held same

/-! ## The loop -/

theorem Coherent.cleared_of_delete (coherent : Coherent store) {link : ChainLink}
    (held : Holds store link) :
    ∃ next, LinkStore.delete store link = .ok next ∧ Cleared store next [link] := by
  obtain ⟨next, deleted, removed⟩ := coherent.removed_of_delete ⟨link, held, rfl, rfl, rfl⟩
  obtain ⟨links, frame⟩ := coherent.deleted_of_delete deleted
  refine ⟨next, deleted, coherent.delete deleted, fun other => ?_, fun key other => ?_⟩
  · rw [frame.holds_iff, List.mem_singleton]
    exact and_congr_right fun there =>
      not_congr ⟨fun same => there.eq_of_key held same, fun same => same ▸ rfl⟩
  · exact removed.elsewhere key (other link (.head _))

/-- Links that are held, each once, can be deleted one after another. -/
theorem Coherent.cleared_of_deleteEach (coherent : Coherent store) {links : List ChainLink}
    (held : ∀ link ∈ links, Holds store link) (nodup : links.Nodup) :
    ∃ next, deleteEach store links = (next, .ok ()) ∧ Cleared store next links := by
  induction links generalizing store with
  | nil => exact ⟨store, rfl, coherent, by simp, fun _ _ => rfl⟩
  | cons link rest ih =>
    obtain ⟨fresh, nodup⟩ := List.nodup_cons.1 nodup
    obtain ⟨middle, deleted, first⟩ := coherent.cleared_of_delete (held link (.head _))
    -- The links whose turn is still to come are held by the store that this delete leaves.
    have still (other) (member : other ∈ rest) : Holds middle other := by
      refine (first.holds other).2 ⟨held other (.tail _ member), fun same => ?_⟩
      exact fresh (List.mem_singleton.1 same ▸ member)
    obtain ⟨next, ran, later⟩ := ih first.coherent still nodup
    refine ⟨next, by rw [deleteEach, deleted]; exact ran, later.coherent, fun other => ?_,
      fun key apart => ?_⟩
    · rw [later.holds, first.holds, and_assoc, List.mem_singleton, List.mem_cons, not_or]
    · rw [later.elsewhere key fun other member => apart other (.tail _ member)]
      refine first.elsewhere key fun other member => apart other ?_
      exact List.mem_singleton.1 member ▸ .head _

end

/-- On the stores that calls lead to, deleting all links of an owner succeeds and counts them. No
key of the owner is left, and all other keys are as they were. -/
theorem deleteAll_clears_owner {codecs : SignDocumentCodecs} {store : Store}
    (reached : Reached codecs store) {owner : String} (plain : Key.Plain owner) :
    ∃ (next : Store) (links : List ChainLink), deleteAll store owner = (next, .ok links.length)
      ∧ links.Nodup ∧ (∀ link, link ∈ links ↔ Holds store link ∧ link.owner = owner)
      ∧ (∀ key, OfOwner owner key → next.get? key = none)
      ∧ (∀ key, ¬ OfOwner owner key → next.get? key = store.get? key)
      ∧ ∀ link : ChainLink, link.Plain → link.owner ≠ owner →
        ∀ key ∈ [link.key, link.ownerIndexKey, link.defaultKey],
          next.get? key = store.get? key := by
  have coherent := reached.consistent.coherent
  obtain ⟨links, read, distinct, held, members⟩ := coherent.userLinks_eq owner
  have members := members plain
  have nodup : links.Nodup := distinct.imp fun differ same => differ (by rw [same])
  -- Each link is deleted once, from a store that the deletions before have left coherent.
  obtain ⟨next, ran, cleared⟩ := coherent.cleared_of_deleteEach held nodup
  have others (key) (other : ¬ OfOwner owner key) : next.get? key = store.get? key := by
    refine cleared.elsewhere key fun link member own => other ?_
    exact ((members link).1 member).2 ▸ ofOwner_of_mem link own
  refine ⟨next, links, ?_, nodup, members, fun key => ?_, others,
    fun link plain differ key own => ?_⟩
  · rw [deleteAll, read]
    simp [ran, Except.map]
  · refine cleared.coherent.get?_of_ofOwner fun link there same => ?_
    obtain ⟨before, kept⟩ := (cleared.holds link).1 there
    exact kept ((members link).2 ⟨before, same⟩)
  · exact others key fun ofOwner => differ (ofOwner.eq_owner plain own).symm

theorem deleteAll_clears_owner_siblingLinks :
    ∃ store next, Reached .standard store ∧ Key.Plain siblingLinks.1.owner
      ∧ store.get? siblingLinks.1.key ≠ none
      ∧ deleteAll store siblingLinks.1.owner = (next, .ok 2)
      ∧ ∀ key, OfOwner siblingLinks.1.owner key → next.get? key = none := by
  have reached : Reached .standard
      (history .standard [.save siblingLinks.1, .save siblingLinks.2]) := ⟨_, by decide, rfl⟩
  have plain : Key.Plain siblingLinks.1.owner := by decide
  have runs : (history .standard [.save siblingLinks.1, .save siblingLinks.2]).get?
        siblingLinks.1.key ≠ none
      ∧ (deleteAll (history .standard [.save siblingLinks.1, .save siblingLinks.2])
        siblingLinks.1.owner).2.toOption = some 2 := by decide +kernel
  obtain ⟨next, links, ran, -, -, gone, -⟩ := deleteAll_clears_owner reached plain
  have count : links.length = 2 := by
    rw [ran] at runs
    exact Option.some.inj runs.2
  exact ⟨_, next, reached, plain, runs.1, count ▸ ran, gone⟩

end LinkRegistry.LinkStore
