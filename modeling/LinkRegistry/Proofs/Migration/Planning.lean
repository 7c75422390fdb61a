import Mathlib.Data.List.Infix
import LinkRegistry.Proofs.Migration.Pass

/-!
# Passes that can be planned

A pass can be planned exactly if each of its records can be decided and nothing that it writes
collides, with what else it writes or with what the store holds apart from the records it visits.
That is first shown of lists of decisions, by the fold that plans them, and then of passes. Main
statement, `Pass.exists_plan_iff`.
-/

namespace LinkRegistry.Migration

/-! ## Drafts -/

/-- Records and index entries fall neither on one another nor on what the store holds apart. -/
structure Collisionless (store : Store) (sources : List Bytes) (records indexed : List Entry) :
    Prop where
  distinct : (records.map (·.1)).Nodup
  apart : ∀ record ∈ records, ∀ entry ∈ indexed, record.1 ≠ entry.1
  agree : ∀ entry ∈ indexed, ∀ other ∈ indexed, entry.1 = other.1 → entry = other
  fresh : ∀ record ∈ records, heldApart store sources record.1 = none
  same : ∀ entry ∈ indexed, ∀ held, heldApart store sources entry.1 = some held → held = entry.2

section Drafts

variable {store : Store} {sources : List Bytes} {draft : Draft}
  {written entries others more : List Entry} {left : List Bytes}

theorem Draft.Plans.collisionless (plans : draft.Plans store sources written entries left) :
    Collisionless store sources written entries :=
  ⟨plans.distinct, plans.apart, plans.agree, plans.fresh, plans.same⟩

theorem Collisionless.of_prefix (free : Collisionless store sources written entries)
    (fewer : others <+: written) (less : more <+: entries) :
    Collisionless store sources others more where
  distinct := free.distinct.sublist (fewer.sublist.map _)
  apart record member entry within := free.apart record (fewer.mem member) entry (less.mem within)
  agree entry within other among := free.agree entry (less.mem within) other (less.mem among)
  fresh record member := free.fresh record (fewer.mem member)
  same entry within := free.same entry (less.mem within)

theorem records_concat (done : List Decision) (decision : Decision) :
    records (done ++ [decision]) = records done ++ decision.2.record?.toList := by
  rw [records, records, List.filterMap_append]
  cases found : decision.2.record? <;> simp [found]

theorem indexed_concat (done : List Decision) (decision : Decision) :
    indexed (done ++ [decision]) = indexed done ++ decision.2.index := by
  simp [indexed]

/-- An index entry can be added to a draft if it collides with nothing in it. -/
theorem Draft.Plans.exists_addIndex {entry : Entry}
    (plans : draft.Plans store sources written entries left)
    (free : Collisionless store sources written (entries ++ [entry])) :
    ∃ next, Draft.addIndex store sources draft entry = .ok next := by
  have member : entry ∈ entries ++ [entry] := by simp
  have outside : ¬ draft.destinations.contains entry.1 = true := by
    rw [List.contains_iff_mem, plans.destinations, List.mem_reverse, List.mem_map]
    rintro ⟨record, among, clash⟩
    exact free.apart record among entry member clash
  rw [Draft.addIndex, if_neg outside]
  cases found : draft.indexValue? entry.1 with
  | some existing =>
    -- What the draft has at the key is the entry itself.
    have planned := (plans.index _).1 (Store.mem_of_lookup found)
    have equal := free.agree _ (List.mem_append_left _ planned) entry member rfl
    exact ⟨draft, if_pos (congrArg Prod.snd equal)⟩
  | none =>
    cases held : heldApart store sources entry.1 with
    | some existing => exact ⟨_, if_pos (free.same entry member existing held)⟩
    | none => exact ⟨_, rfl⟩

/-- A decision can be added to a draft if what it writes collides with nothing in it. -/
theorem Draft.Plans.exists_add {done : List Decision} {decision : Decision}
    (plans : draft.Plans store sources (records done) (indexed done) (departed done))
    (free : Collisionless store sources (records (done ++ [decision]))
      (indexed (done ++ [decision]))) :
    ∃ next, Draft.add store sources draft decision = .ok next := by
  obtain ⟨source, outcome⟩ := decision
  cases outcome with
  | drop reason => exact ⟨_, rfl⟩
  | keep key value index =>
    rw [records_concat, indexed_concat] at free
    simp only [Outcome.record?, Option.toList_some, Outcome.index] at free
    have member : (key, value) ∈ records done ++ [(key, value)] := by simp
    have outside : key ∉ draft.destinations := by
      have distinct := free.distinct
      rw [List.map_append, List.nodup_append] at distinct
      rw [plans.destinations, List.mem_reverse]
      exact fun among => distinct.2.2 key among key (by simp) rfl
    have new : ∀ entry ∈ draft.index, entry.1 ≠ key := by
      intro entry among clash
      have planned := List.mem_append_left index ((plans.index entry).1 among)
      exact free.apart _ member entry planned clash.symm
    have vacant := free.fresh _ member
    have unindexed : draft.indexValue? key = none := Store.lookup_eq_none_iff.2 new
    simp only [Draft.add, unindexed, vacant, List.contains_iff_mem, outside, Option.isSome_none,
      Bool.or_false, if_false]
    have base := plans.record source value (draft.kept + 1) outside new vacant
    -- Each entry joins those of the decisions before and those of this one that went before it.
    have adds (some : List Entry) (entry : Entry) (state : Draft)
        (within : some ++ [entry] <+: index)
        (holds : state.Plans store sources (records done ++ [(key, value)]) (indexed done ++ some)
          (departed done ++ if key = source then [] else [source])) :
        ∃ next, Draft.addIndex store sources state entry = .ok next
          ∧ next.Plans store sources (records done ++ [(key, value)])
            (indexed done ++ (some ++ [entry]))
            (departed done ++ if key = source then [] else [source]) := by
      have joined : indexed done ++ some ++ [entry] <+: indexed done ++ index := by
        rw [List.append_assoc]
        exact (List.prefix_append_right_inj _).2 within
      obtain ⟨next, here⟩ := holds.exists_addIndex (free.of_prefix (List.prefix_refl _) joined)
      rw [← List.append_assoc]
      exact ⟨next, here, holds.addIndex here⟩
    obtain ⟨next, folded, -⟩ := exists_foldlM_eq_ok _ adds (by simpa using base)
    exact ⟨next, folded⟩

theorem exists_draftOf_iff {decisions : List Decision} :
    (∃ draft, draftOf store decisions = .ok draft)
      ↔ Collisionless store (decisions.map (·.1)) (records decisions) (indexed decisions) := by
  constructor
  · rintro ⟨draft, drafted⟩
    exact (plans_of_draftOf drafted).collisionless
  · intro free
    rw [draftOf]
    generalize decisions.map (·.1) = sources at free
    -- No collision among all decisions is none among those that have been planned so far.
    have adds (done : List Decision) (decision : Decision) (state : Draft)
        (within : done ++ [decision] <+: decisions)
        (holds : state.Plans store sources (records done) (indexed done) (departed done)) :
        ∃ next, Draft.add store sources state decision = .ok next
          ∧ next.Plans store sources (records (done ++ [decision])) (indexed (done ++ [decision]))
            (departed (done ++ [decision])) := by
      have fewer : records (done ++ [decision]) <+: records decisions :=
        List.IsPrefix.filterMap _ within
      have less : indexed (done ++ [decision]) <+: indexed decisions :=
        List.IsPrefix.flatMap within _
      obtain ⟨next, here⟩ := holds.exists_add (free.of_prefix fewer less)
      exact ⟨next, here, holds.add here⟩
    obtain ⟨draft, drafted, -⟩ := exists_foldlM_eq_ok _ adds (Draft.plans_empty store sources)
    exact ⟨draft, drafted⟩

/-- Every decision is counted once, as kept if it writes a record and as dropped if it does not. -/
theorem counts_of_draftOf {decisions : List Decision}
    (drafted : draftOf store decisions = .ok draft) :
    draft.kept = (records decisions).length ∧ draft.kept + draft.dropped = decisions.length := by
  refine foldlM_eq_ok_induction
    (fun done state =>
      state.kept = (records done).length ∧ state.kept + state.dropped = done.length)
    (fun done decision state next holds added => ?_) drafted ⟨rfl, rfl⟩
  obtain ⟨source, outcome⟩ := decision
  rw [records_concat, List.length_append, List.length_append, ← holds.1]
  cases outcome with
  | drop reason =>
    obtain rfl := Except.ok.inj added
    exact ⟨rfl, congrArg (· + 1) holds.2⟩
  | keep key value index =>
    obtain ⟨-, -, -, folded⟩ := Draft.add_keep_eq_ok added
    -- Index entries are not counted among the records.
    have still := foldlM_eq_ok_induction
      (fun _ after => after.kept = state.kept + 1 ∧ after.dropped = state.dropped)
      (fun _ entry before after counted here => by
        obtain ⟨-, ⟨-, rfl⟩ | ⟨-, -, rfl⟩⟩ := Draft.addIndex_eq_ok here <;> exact counted)
      folded ⟨rfl, rfl⟩
    refine ⟨still.1, ?_⟩
    rw [still.1, still.2, Nat.add_right_comm, holds.2]
    rfl

end Drafts

/-! ## Passes -/

/-- A pass keeps an entry as a record. -/
def Pass.Keeps (pass : Pass) (store : Store) (entry : Entry) : Prop :=
  ∃ source outcome, pass.Decides store source outcome ∧ outcome.record? = some entry

/-- A pass writes an entry beside a record that it keeps. -/
def Pass.Indexes (pass : Pass) (store : Store) (entry : Entry) : Prop :=
  ∃ source outcome, pass.Decides store source outcome ∧ entry ∈ outcome.index

/-- A pass can decide every record under its scope, and what it writes collides with nothing. -/
structure Pass.Fits (pass : Pass) (store : Store) : Prop where
  decides : ∀ source content, pass.scope <+: source → store.get? source = some content →
    ∃ outcome, pass.transform source content = .ok outcome
  distinct : ∀ first second one two key, pass.Decides store first one →
    pass.Decides store second two → one.record?.map (·.1) = some key →
    two.record?.map (·.1) = some key → first = second
  apart : ∀ record entry, pass.Keeps store record → pass.Indexes store entry → record.1 ≠ entry.1
  agree : ∀ entry other, pass.Indexes store entry → pass.Indexes store other →
    entry.1 = other.1 → entry = other
  fresh : ∀ record, pass.Keeps store record → ¬ pass.scope <+: record.1 →
    store.get? record.1 = none
  same : ∀ entry, pass.Indexes store entry → ¬ pass.scope <+: entry.1 →
    ∀ held, store.get? entry.1 = some held → held = entry.2

section Passes

variable {pass : Pass} {store : Store} {decisions : List Decision}

section

variable (decided : pass.decide store = .ok decisions)
include decided

theorem Pass.mem_records_iff {entry : Entry} :
    entry ∈ records decisions ↔ pass.Keeps store entry := by
  simp only [records, List.mem_filterMap, Prod.exists, Pass.mem_decide_iff decided, Pass.Keeps]

theorem Pass.mem_indexed_iff {entry : Entry} :
    entry ∈ indexed decisions ↔ pass.Indexes store entry := by
  simp only [indexed, List.mem_flatMap, Prod.exists, Pass.mem_decide_iff decided, Pass.Indexes]

/-- The records are decided for in the order of their keys. -/
theorem Pass.map_fst_decide : decisions.map (·.1) = (store.scan pass.scope).map (·.1) := by
  refine map_of_mapM_eq_ok decided fun entry _ decision here => ?_
  obtain ⟨outcome, -, rfl⟩ := map_eq_ok_iff.1 here
  rfl

/-- What the store holds apart from the records of a pass is what it holds outside its scope. -/
theorem Pass.heldApart_eq_some_iff {key held : Bytes} :
    heldApart store (decisions.map (·.1)) key = some held
      ↔ ¬ pass.scope <+: key ∧ store.get? key = some held := by
  constructor
  · intro found
    rw [heldApart] at found
    split at found
    · cases found
    · next unvisited =>
      -- A key under the scope that holds something is visited.
      refine ⟨fun under => unvisited ?_, found⟩
      rw [List.contains_iff_mem, Pass.map_fst_decide decided]
      exact List.mem_map_of_mem (Store.mem_scan_iff.2 ⟨under, found⟩)
  · rintro ⟨outside, found⟩
    rwa [Pass.heldApart_eq decided outside]

theorem Pass.collisionless_iff :
    Collisionless store (decisions.map (·.1)) (records decisions) (indexed decisions)
      ↔ pass.Fits store := by
  have decides {source : Bytes} {outcome : Outcome} :
      (source, outcome) ∈ decisions ↔ pass.Decides store source outcome :=
    Pass.mem_decide_iff decided
  constructor
  · -- The lists of a draft hold what the decisions ask for, so each field is carried over.
    intro free
    refine ⟨fun source content under held => ?_, ?_, fun record entry kept indexes => ?_,
      fun entry other indexes also => ?_, fun record kept outside => ?_,
      fun entry indexes outside held found => ?_⟩
    · obtain ⟨_, here⟩ := exists_of_mapM_eq_ok decided (Store.mem_scan_iff.2 ⟨under, held⟩)
      obtain ⟨outcome, transformed, -⟩ := map_eq_ok_iff.1 here
      exact ⟨outcome, transformed⟩
    · intro first second one two key firstDecided secondDecided kept also
      have same := decision_unique free.distinct (decides.2 firstDecided) (decides.2 secondDecided)
        kept also
      exact (Prod.mk.inj same).1
    · exact free.apart record ((Pass.mem_records_iff decided).2 kept) entry
        ((Pass.mem_indexed_iff decided).2 indexes)
    · exact free.agree entry ((Pass.mem_indexed_iff decided).2 indexes) other
        ((Pass.mem_indexed_iff decided).2 also)
    · rw [← Pass.heldApart_eq decided outside]
      exact free.fresh record ((Pass.mem_records_iff decided).2 kept)
    · rw [← Pass.heldApart_eq decided outside] at found
      exact free.same entry ((Pass.mem_indexed_iff decided).2 indexes) held found
  · intro fits
    constructor
    case distinct =>
      -- Each key is visited once, so two decisions of the list come from two sources.
      have sources : (decisions.map (·.1)).Nodup :=
        Pass.map_fst_decide decided ▸ store.nodup_keys_scan _
      rw [records, List.map_filterMap]
      refine List.pairwise_filterMap.2 ((List.pairwise_map.1 sources).imp_of_mem ?_)
      rintro one two member among differ key kept key' also rfl
      exact differ (fits.distinct _ _ _ _ key (decides.1 member) (decides.1 among) kept also)
    case apart =>
      intro record member entry within
      exact fits.apart record entry ((Pass.mem_records_iff decided).1 member)
        ((Pass.mem_indexed_iff decided).1 within)
    case agree =>
      intro entry member other within
      exact fits.agree entry other ((Pass.mem_indexed_iff decided).1 member)
        ((Pass.mem_indexed_iff decided).1 within)
    case fresh =>
      intro record member
      refine Option.eq_none_iff_forall_not_mem.2 fun held found => ?_
      obtain ⟨outside, there⟩ := (Pass.heldApart_eq_some_iff decided).1 found
      rw [fits.fresh record ((Pass.mem_records_iff decided).1 member) outside] at there
      cases there
    case same =>
      intro entry member held found
      obtain ⟨outside, there⟩ := (Pass.heldApart_eq_some_iff decided).1 found
      exact fits.same entry ((Pass.mem_indexed_iff decided).1 member) outside held there

end

theorem Pass.exists_decide
    (decides : ∀ source content, pass.scope <+: source → store.get? source = some content →
      ∃ outcome, pass.transform source content = .ok outcome) :
    ∃ decisions, pass.decide store = .ok decisions := by
  apply exists_mapM_eq_ok
  intro entry member
  obtain ⟨under, held⟩ := Store.mem_scan_iff.1 member
  obtain ⟨outcome, transformed⟩ := decides entry.1 entry.2 under held
  exact ⟨_, map_eq_ok_iff.2 ⟨outcome, transformed, rfl⟩⟩

/-- A pass can be planned exactly if it fits. -/
theorem Pass.exists_plan_iff : (∃ plan, pass.plan store = .ok plan) ↔ pass.Fits store := by
  constructor
  · rintro ⟨plan, planned⟩
    obtain ⟨decisions, draft, decided, drafted, -, -⟩ := Pass.plan_eq_ok_iff.1 planned
    exact (Pass.collisionless_iff decided).1 (exists_draftOf_iff.1 ⟨draft, drafted⟩)
  · intro fits
    obtain ⟨decisions, decided⟩ := Pass.exists_decide fits.decides
    obtain ⟨draft, drafted⟩ := exists_draftOf_iff.2 ((Pass.collisionless_iff decided).2 fits)
    exact ⟨_, Pass.plan_eq_ok_iff.2 ⟨decisions, draft, decided, drafted, rfl, rfl⟩⟩

end Passes

end LinkRegistry.Migration
