import LinkRegistry.Bytes

/-!
# The store

A store maps keys to values, both byte strings, and lists its entries in ascending order of keys.
Two stores with the same value at every key are equal.
-/

namespace LinkRegistry

/-- A key with its value. -/
abbrev Entry := Bytes × Bytes

/-- Each key is below the keys after it. -/
def Ascending (entries : List Entry) : Prop :=
  entries.Pairwise fun left right => left.1 < right.1

/-- A map from keys to values. -/
structure Store where
  entries : List Entry
  ascending : Ascending entries

namespace Store

def empty : Store := ⟨[], List.Pairwise.nil⟩

/-- The value at a key in a list of entries. -/
def lookup (key : Bytes) : List Entry → Option Bytes
  | [] => none
  | entry :: rest => if entry.1 = key then some entry.2 else lookup key rest

def get? (store : Store) (key : Bytes) : Option Bytes := lookup key store.entries

def contains (store : Store) (key : Bytes) : Bool := (store.get? key).isSome

/-! ## Insertion -/

/-- Puts an entry at its place among ascending entries, for the one of the same key if there is
one. -/
def insertEntry (key value : Bytes) : List Entry → List Entry
  | [] => [(key, value)]
  | entry :: rest =>
    if key < entry.1 then (key, value) :: entry :: rest
    else if key = entry.1 then (key, value) :: rest
    else entry :: insertEntry key value rest

theorem mem_insertEntry {key value : Bytes} {entries : List Entry} {entry : Entry}
    (member : entry ∈ insertEntry key value entries) :
    entry = (key, value) ∨ entry ∈ entries := by
  induction entries with
  | nil => simpa [insertEntry] using member
  | cons first rest ih =>
    simp only [insertEntry] at member
    split at member
    · simpa using member
    · split at member
      · rcases List.mem_cons.1 member with same | later
        · exact .inl same
        · exact .inr (List.mem_cons_of_mem _ later)
      · rcases List.mem_cons.1 member with same | later
        · exact .inr (by simp [same])
        · rcases ih later with new | old
          · exact .inl new
          · exact .inr (List.mem_cons_of_mem _ old)

/-- Keys that are not below and not equal are above. -/
theorem lt_of_not_lt_of_ne {left right : Bytes} (notBelow : ¬ left < right) (other : left ≠ right) :
    right < left := by
  rcases Std.lt_trichotomy left right with below | same | above
  · exact absurd below notBelow
  · exact absurd same other
  · exact above

theorem ascending_insertEntry {key value : Bytes} {entries : List Entry}
    (ascending : Ascending entries) : Ascending (insertEntry key value entries) := by
  induction entries with
  | nil => exact List.pairwise_singleton _ _
  | cons first rest ih =>
    have ⟨above, tail⟩ := List.pairwise_cons.1 ascending
    simp only [insertEntry]
    split
    · next below =>
      refine List.pairwise_cons.2 ⟨fun entry member => ?_, ascending⟩
      rcases List.mem_cons.1 member with same | later
      · simpa [same] using below
      · exact List.lt_trans below (above entry later)
    · next notBelow =>
      split
      · next same => exact List.pairwise_cons.2 ⟨fun entry later => same ▸ above entry later, tail⟩
      · next other =>
        refine List.pairwise_cons.2 ⟨fun entry member => ?_, ih tail⟩
        rcases mem_insertEntry member with new | old
        · simpa [new] using lt_of_not_lt_of_ne notBelow other
        · exact above entry old

/-- The store with a value at a key. -/
def insert (store : Store) (key value : Bytes) : Store :=
  ⟨insertEntry key value store.entries, ascending_insertEntry store.ascending⟩

/-! ## Removal -/

/-- The store without a value at a key. -/
def erase (store : Store) (key : Bytes) : Store :=
  ⟨store.entries.filter (·.1 ≠ key), store.ascending.filter _⟩

/-! ## Laws -/

theorem lookup_eq_none_of_below {key : Bytes} {entries : List Entry}
    (below : ∀ entry ∈ entries, key < entry.1) : lookup key entries = none := by
  induction entries with
  | nil => rfl
  | cons first rest ih =>
    have other : first.1 ≠ key := fun same => List.lt_irrefl key (same ▸ below first (by simp))
    simp only [lookup, other, ↓reduceIte]
    exact ih fun entry member => below entry (List.mem_cons_of_mem _ member)

theorem lookup_insertEntry {key value : Bytes} {entries : List Entry} (wanted : Bytes) :
    lookup wanted (insertEntry key value entries)
      = if key = wanted then some value else lookup wanted entries := by
  induction entries with
  | nil => simp [insertEntry, lookup]
  | cons first rest ih =>
    simp only [insertEntry]
    split
    · simp [lookup]
    · split
      · next same => by_cases hit : key = wanted <;> simp [lookup, ← same, hit]
      · next other =>
        by_cases hit : first.1 = wanted
        · have miss : key ≠ wanted := fun same => other (same.trans hit.symm)
          simp [lookup, hit, miss]
        · simp [lookup, hit, ih]

/-- After an insertion the key has the new value and every other key has its old one. -/
theorem get?_insert (store : Store) (key value wanted : Bytes) :
    (store.insert key value).get? wanted = if key = wanted then some value else store.get? wanted :=
  lookup_insertEntry wanted

theorem lookup_filter_ne {key : Bytes} {entries : List Entry} (wanted : Bytes) :
    lookup wanted (entries.filter (·.1 ≠ key))
      = if key = wanted then none else lookup wanted entries := by
  induction entries with
  | nil => simp [lookup]
  | cons first rest ih =>
    by_cases gone : first.1 = key
    · by_cases hit : key = wanted <;> simp_all [lookup]
    · by_cases hit : first.1 = wanted
      · have miss : key ≠ wanted := fun same => gone (hit.trans same.symm)
        rw [List.filter_cons_of_pos (by simpa using gone)]
        simp [lookup, hit, miss]
      · rw [List.filter_cons_of_pos (by simpa using gone)]
        simpa [lookup, hit] using ih

/-- After a removal the key has no value and every other key has its old one. -/
theorem get?_erase (store : Store) (key wanted : Bytes) :
    (store.erase key).get? wanted = if key = wanted then none else store.get? wanted :=
  lookup_filter_ne wanted

@[simp] theorem get?_empty (key : Bytes) : empty.get? key = none := rfl

theorem mem_of_lookup {key value : Bytes} {entries : List Entry}
    (found : lookup key entries = some value) : (key, value) ∈ entries := by
  induction entries with
  | nil => simp [lookup] at found
  | cons first rest ih =>
    simp only [lookup] at found
    split at found
    · next same => simp only [Option.some.injEq] at found; simp [← same, ← found]
    · exact List.mem_cons_of_mem _ (ih found)

theorem lookup_of_mem {entries : List Entry} (ascending : Ascending entries) {key value : Bytes}
    (member : (key, value) ∈ entries) : lookup key entries = some value := by
  induction entries with
  | nil => simp at member
  | cons first rest ih =>
    have ⟨above, tail⟩ := List.pairwise_cons.1 ascending
    rcases List.mem_cons.1 member with same | later
    · simp [lookup, ← same]
    · have other : first.1 ≠ key := fun same => by
        have below := above _ later
        simp only [same] at below
        exact List.lt_irrefl key below
      simp [lookup, other, ih tail later]

/-- The entries of a store are its keys with their values. -/
theorem mem_entries_iff (store : Store) (key value : Bytes) :
    (key, value) ∈ store.entries ↔ store.get? key = some value :=
  ⟨lookup_of_mem store.ascending, mem_of_lookup⟩

theorem eq_of_lookup {left right : List Entry} (leftAscending : Ascending left)
    (rightAscending : Ascending right) (same : ∀ key, lookup key left = lookup key right) :
    left = right := by
  induction left generalizing right with
  | nil =>
    cases right with
    | nil => rfl
    | cons first rest => simpa [lookup] using same first.1
  | cons first rest ih =>
    cases right with
    | nil => simpa [lookup] using same first.1
    | cons second others =>
      have ⟨aboveFirst, tailFirst⟩ := List.pairwise_cons.1 leftAscending
      have ⟨aboveSecond, tailSecond⟩ := List.pairwise_cons.1 rightAscending
      have notBelow : ¬ first.1 < second.1 := fun below => by
        have missing : lookup first.1 (second :: others) = none :=
          lookup_eq_none_of_below fun entry member => by
            rcases List.mem_cons.1 member with this | later
            · simpa [this] using below
            · exact List.lt_trans below (aboveSecond entry later)
        have agree := same first.1
        rw [missing] at agree
        simp [lookup] at agree
      have notAbove : ¬ second.1 < first.1 := fun above => by
        have missing : lookup second.1 (first :: rest) = none :=
          lookup_eq_none_of_below fun entry member => by
            rcases List.mem_cons.1 member with this | later
            · simpa [this] using above
            · exact List.lt_trans above (aboveFirst entry later)
        have agree := same second.1
        rw [missing] at agree
        simp [lookup] at agree
      have keys : first.1 = second.1 := by
        rcases Std.lt_trichotomy first.1 second.1 with below | equal | above
        · exact absurd below notBelow
        · exact equal
        · exact absurd above notAbove
      have values : first.2 = second.2 := by simpa [lookup, keys] using same first.1
      have heads : first = second := Prod.ext keys values
      subst heads
      refine congrArg (first :: ·) (ih tailFirst tailSecond fun key => ?_)
      by_cases hit : first.1 = key
      · rw [lookup_eq_none_of_below fun entry member => hit ▸ aboveFirst entry member,
          lookup_eq_none_of_below fun entry member => hit ▸ aboveSecond entry member]
      · simpa [lookup, hit] using same key

/-- Stores with the same value at every key are equal. -/
theorem ext_get? {left right : Store} (same : ∀ key, left.get? key = right.get? key) :
    left = right := by
  cases left
  cases right
  congr
  exact eq_of_lookup ‹_› ‹_› same

/-! ## Batches -/

/-- One write of a batch. -/
inductive Change
  | put (key value : Bytes)
  | delete (key : Bytes)
  deriving DecidableEq, Repr

/-- The store after one write. -/
def change (store : Store) : Change → Store
  | .put key value => store.insert key value
  | .delete key => store.erase key

/-- The store after a batch of writes, in order. -/
def apply (store : Store) (changes : List Change) : Store := changes.foldl change store

/-! ## Ranges of keys -/

/-- The entries whose keys begin with a lead, in order. -/
def scan (store : Store) (lead : Bytes) : List Entry :=
  store.entries.filter (lead.isPrefixOf ·.1)

end Store

end LinkRegistry
