import LinkRegistry.Store.Basic

/-!
# What a store holds after a batch

A scan gives the entries under a lead, and a batch that deletes first and then writes leaves at
every key what it writes there, nothing where it only deletes, and elsewhere what was there.
-/

namespace LinkRegistry.Store

/-! ## Scans -/

theorem mem_scan_iff {store : Store} {lead key value : Bytes} :
    (key, value) ∈ store.scan lead ↔ lead <+: key ∧ store.get? key = some value := by
  rw [scan, List.mem_filter, mem_entries_iff, List.isPrefixOf_iff_prefix, and_comm]

/-- A scan is empty exactly if no key has the lead. -/
theorem scan_eq_nil_iff {store : Store} {lead : Bytes} :
    store.scan lead = [] ↔ ∀ key, lead <+: key → store.get? key = none := by
  rw [List.eq_nil_iff_forall_not_mem]
  constructor
  · intro none key under
    cases held : store.get? key with
    | none => rfl
    | some value => exact absurd (mem_scan_iff.2 ⟨under, held⟩) (none (key, value))
  · rintro none ⟨key, value⟩ member
    have ⟨under, held⟩ := mem_scan_iff.1 member
    rw [none key under] at held
    cases held

theorem lookup_scan_eq_some_iff {store : Store} {lead key value : Bytes} :
    lookup key (store.scan lead) = some value ↔ lead <+: key ∧ store.get? key = some value :=
  ⟨fun found => mem_scan_iff.1 (mem_of_lookup found),
    fun held => lookup_of_mem (store.ascending.filter _) (mem_scan_iff.2 held)⟩

/-- Stores that agree under a lead have one scan of it. -/
theorem scan_congr {left right : Store} {lead : Bytes}
    (same : ∀ key, lead <+: key → left.get? key = right.get? key) :
    left.scan lead = right.scan lead := by
  refine eq_of_lookup (left.ascending.filter _) (right.ascending.filter _) fun key => ?_
  refine Option.ext fun value => ?_
  rw [lookup_scan_eq_some_iff, lookup_scan_eq_some_iff]
  exact and_congr_right fun under => by rw [same key under]

/-- A scan gives no key twice. -/
theorem nodup_keys_scan (store : Store) (lead : Bytes) :
    ((store.scan lead).map (·.1)).Nodup := by
  refine List.pairwise_map.2 ((store.ascending.filter _).imp fun {left right} below same => ?_)
  rw [same] at below
  exact List.lt_irrefl _ below

theorem contains_iff {store : Store} {key : Bytes} :
    store.contains key = true ↔ ∃ value, store.get? key = some value := by
  rw [contains, Option.isSome_iff_exists]

theorem contains_eq_false_iff {store : Store} {key : Bytes} :
    store.contains key = false ↔ store.get? key = none := by
  rw [contains, Option.isSome_eq_false_iff, Option.isNone_iff_eq_none]

/-- Of two values put at one key the second stays. -/
theorem insert_insert (store : Store) (key value other : Bytes) :
    (store.insert key value).insert key other = store.insert key other := by
  refine ext_get? fun wanted => ?_
  simp only [get?_insert]
  split <;> rfl

/-! ## Look-up in entries -/

theorem lookup_eq_none_iff {key : Bytes} {entries : List Entry} :
    lookup key entries = none ↔ ∀ entry ∈ entries, entry.1 ≠ key := by
  induction entries with
  | nil => simp [lookup]
  | cons first rest ih =>
    rw [lookup, List.forall_mem_cons, ← ih]
    split <;> simp_all

/-- Where no key has two values, a look-up finds just what is there. -/
theorem lookup_eq_some_iff_of_unique {entries : List Entry}
    (unique : ∀ one ∈ entries, ∀ two ∈ entries, one.1 = two.1 → one = two) {key value : Bytes} :
    lookup key entries = some value ↔ (key, value) ∈ entries := by
  constructor
  · exact mem_of_lookup
  · intro member
    cases found : lookup key entries with
    | none => exact absurd rfl (lookup_eq_none_iff.1 found _ member)
    | some other =>
      have same := unique _ (mem_of_lookup found) _ member rfl
      rw [(Prod.mk.inj same).2]

/-! ## Batches -/

@[simp] theorem apply_nil (store : Store) : store.apply [] = store := rfl

@[simp] theorem apply_cons (store : Store) (first : Change) (rest : List Change) :
    store.apply (first :: rest) = (store.change first).apply rest := rfl

theorem apply_append (store : Store) (first second : List Change) :
    store.apply (first ++ second) = (store.apply first).apply second := List.foldl_append

private theorem get?_apply_deletes (removed : List Bytes) (store : Store) (key : Bytes) :
    (store.apply (removed.map .delete)).get? key
      = if key ∈ removed then none else store.get? key := by
  induction removed generalizing store with
  | nil => rfl
  | cons first rest ih =>
    rw [List.map_cons, apply_cons, ih, change, get?_erase]
    by_cases hit : first = key
    · simp [hit]
    · simp [hit, Ne.symm hit]

/-- Of several writes at a key the last stays, which is the first of the reversed list. -/
private theorem get?_apply_puts (written : List Entry) (store : Store) (key : Bytes) :
    (store.apply (written.reverse.map fun entry => .put entry.1 entry.2)).get? key
      = (lookup key written).or (store.get? key) := by
  induction written with
  | nil => rfl
  | cons last before ih =>
    rw [List.reverse_cons, List.map_append, apply_append, List.map_singleton, apply_cons, apply_nil,
      change, get?_insert, lookup]
    split
    · rfl
    · exact ih

/-- The batch that deletes some keys and then writes some entries, both listed last first. -/
theorem get?_apply_batch (store : Store) (removed : List Bytes) (written : List Entry)
    (key : Bytes) :
    (store.apply (removed.reverse.map .delete ++
        written.reverse.map fun entry => .put entry.1 entry.2)).get? key
      = (lookup key written).or (if key ∈ removed then none else store.get? key) := by
  rw [apply_append, get?_apply_puts, get?_apply_deletes]
  simp only [List.mem_reverse]

end LinkRegistry.Store
