import Mathlib.Data.List.Nodup
import LinkRegistry.Migration.Pass
import LinkRegistry.Proofs.Store.Contents
import LinkRegistry.Proofs.Success

/-!
# The batch of a pass

A pass that can be planned writes the records and index entries that it decided for, takes away
the keys that records leave, and keeps no two records at one key.
-/

namespace LinkRegistry.Migration

/-! ## What decisions ask for -/

/-- The record that an outcome writes. -/
def Outcome.record? : Outcome → Option Entry
  | .keep key value _ => some (key, value)
  | .drop _ => none

/-- The index entries that an outcome writes. -/
def Outcome.index : Outcome → List Entry
  | .keep _ _ index => index
  | .drop _ => []

/-- The key that a decision takes its record away from. -/
def departure? (decision : Decision) : Option Bytes :=
  if decision.2.record?.map (·.1) = some decision.1 then none else some decision.1

/-- The records that decisions write. -/
def records (decisions : List Decision) : List Entry := decisions.filterMap (·.2.record?)

/-- The index entries that decisions write. -/
def indexed (decisions : List Decision) : List Entry := decisions.flatMap (·.2.index)

/-- The keys that decisions take records away from. -/
def departed (decisions : List Decision) : List Bytes := decisions.filterMap departure?

/-- If records have a key each of its own, two decisions for one key are one decision. -/
theorem decision_unique {decisions : List Decision}
    (distinct : ((records decisions).map (·.1)).Nodup) {first second : Decision} {key : Bytes}
    (one : first ∈ decisions) (two : second ∈ decisions)
    (kept : first.2.record?.map (·.1) = some key) (also : second.2.record?.map (·.1) = some key) :
    first = second := by
  rw [records, List.map_filterMap] at distinct
  have apart := List.pairwise_filterMap.1 distinct
  exact List.Pairwise.forall_of_forall_of_flip
    (R := fun one two => one.2.record?.map (·.1) = some key →
      two.2.record?.map (·.1) = some key → one = two)
    (fun _ _ _ _ => rfl)
    (apart.imp fun differ one two => absurd rfl (differ key one key two))
    (apart.imp fun differ one two => absurd rfl (differ key two key one))
    one two kept also

/-! ## Drafts -/

/-- A draft plans certain records and index entries and the departure from certain keys, and
nothing among them collides, with one another or with what the store holds apart. -/
structure Draft.Plans (store : Store) (sources : List Bytes) (draft : Draft)
    (records indexed : List Entry) (departed : List Bytes) : Prop where
  destinations : draft.destinations = (records.map (·.1)).reverse
  index : ∀ entry, entry ∈ draft.index ↔ entry ∈ indexed
  deletes : draft.deletes = departed.reverse
  puts : ∀ entry, entry ∈ draft.puts ↔ entry ∈ records ∨ entry ∈ indexed
  distinct : (records.map (·.1)).Nodup
  apart : ∀ record ∈ records, ∀ entry ∈ indexed, record.1 ≠ entry.1
  agree : ∀ entry ∈ indexed, ∀ other ∈ indexed, entry.1 = other.1 → entry = other
  fresh : ∀ record ∈ records, heldApart store sources record.1 = none
  same : ∀ entry ∈ indexed, ∀ held, heldApart store sources entry.1 = some held → held = entry.2

section Drafts

variable {store : Store} {sources : List Bytes} {draft next : Draft} {written entries : List Entry}
  {left : List Bytes}

theorem Draft.plans_empty (store : Store) (sources : List Bytes) :
    Draft.empty.Plans store sources [] [] [] where
  destinations := rfl
  index _ := .rfl
  deletes := rfl
  puts _ := by simp [Draft.empty]
  distinct := .nil
  apart := by simp
  agree := by simp
  fresh := by simp
  same := by simp

/-- An index entry that can be planned meets no record and is there already, or is new and meets
nothing but its equal. -/
theorem Draft.addIndex_eq_ok {entry : Entry}
    (added : Draft.addIndex store sources draft entry = .ok next) :
    entry.1 ∉ draft.destinations
      ∧ (entry ∈ draft.index ∧ next = draft
        ∨ (∀ other ∈ draft.index, other.1 ≠ entry.1)
          ∧ (∀ held, heldApart store sources entry.1 = some held → held = entry.2)
          ∧ next = { draft with index := entry :: draft.index, puts := entry :: draft.puts }) := by
  rw [addIndex] at added
  split at added
  · cases added
  · next outside =>
    refine ⟨by simpa using outside, ?_⟩
    split at added
    · -- An equal entry was planned before.
      next existing found =>
      split at added
      · next equal =>
        obtain rfl := Except.ok.inj added
        have there := Store.mem_of_lookup found
        rw [equal] at there
        exact .inl ⟨there, rfl⟩
      · cases added
    · next missing =>
      have new := Store.lookup_eq_none_iff.1 missing
      split at added
      · -- The store holds the key apart from the records of the pass.
        next existing held =>
        split at added
        · next equal =>
          obtain rfl := Except.ok.inj added
          refine .inr ⟨new, fun other found => ?_, rfl⟩
          rw [held] at found
          exact (Option.some.inj found).symm.trans equal
        · cases added
      · next free =>
        obtain rfl := Except.ok.inj added
        refine .inr ⟨new, fun held found => ?_, rfl⟩
        rw [free] at found
        cases found

theorem Draft.Plans.addIndex {entry : Entry}
    (plans : draft.Plans store sources written entries left)
    (added : Draft.addIndex store sources draft entry = .ok next) :
    next.Plans store sources written (entries ++ [entry]) left := by
  obtain ⟨outside, ⟨there, rfl⟩ | ⟨new, same, rfl⟩⟩ := addIndex_eq_ok added
  · -- An entry that is there already adds nothing to what is planned.
    have member : entry ∈ entries := (plans.index entry).1 there
    have joined (other : Entry) : other ∈ entries ++ [entry] ↔ other ∈ entries := by
      rw [List.mem_append, List.mem_singleton]
      exact ⟨fun either => either.elim id fun equal => equal ▸ member, .inl⟩
    exact {
      plans with
      index := by simpa only [joined] using plans.index
      puts := by simpa only [joined] using plans.puts
      apart := by simpa only [joined] using plans.apart
      agree := by simpa only [joined] using plans.agree
      same := by simpa only [joined] using plans.same }
  · rw [plans.destinations, List.mem_reverse] at outside
    exact {
      plans with
      index := by simp [plans.index, or_comm]
      puts := by simp [plans.puts, or_comm, or_left_comm]
      apart := fun record member other either => by
        rcases List.mem_append.1 either with old | equal
        · exact plans.apart record member other old
        · rw [List.mem_singleton.1 equal]
          exact fun clash => outside (clash ▸ List.mem_map_of_mem member)
      agree := fun first one second two => by
        -- Entries from before agree, and the new one has a key of its own.
        have apart (other : Entry) (old : other ∈ entries) : other.1 ≠ entry.1 :=
          new other ((plans.index other).2 old)
        rcases List.mem_append.1 one with oldOne | newOne
          <;> rcases List.mem_append.1 two with oldTwo | newTwo
        · exact plans.agree first oldOne second oldTwo
        · rw [List.mem_singleton.1 newTwo]
          exact fun clash => absurd clash (apart first oldOne)
        · rw [List.mem_singleton.1 newOne]
          exact fun clash => absurd clash.symm (apart second oldTwo)
        · rw [List.mem_singleton.1 newOne, List.mem_singleton.1 newTwo]
          exact fun _ => rfl
      same := fun other either => by
        rcases List.mem_append.1 either with old | equal
        · exact plans.same other old
        · rw [List.mem_singleton.1 equal]
          exact same }

/-- A record that can be kept goes to a free key, and its index entries can be planned after it. -/
theorem Draft.add_keep_eq_ok {source key value : Bytes} {index : List Entry}
    (added : Draft.add store sources draft (source, .keep key value index) = .ok next) :
    key ∉ draft.destinations ∧ (∀ entry ∈ draft.index, entry.1 ≠ key)
      ∧ heldApart store sources key = none
      ∧ index.foldlM (Draft.addIndex store sources)
          { draft with
            destinations := key :: draft.destinations
            deletes := if key = source then draft.deletes else source :: draft.deletes
            puts := (key, value) :: draft.puts
            kept := draft.kept + 1 } = .ok next := by
  simp only [Draft.add] at added
  split at added
  · cases added
  · next free =>
    simp only [Bool.or_eq_true, not_or, List.contains_iff_mem, Bool.not_eq_true,
      Option.isSome_eq_false_iff, Option.isNone_iff_eq_none] at free
    exact ⟨free.1.1, Store.lookup_eq_none_iff.1 free.1.2, free.2, added⟩

theorem Draft.Plans.record (plans : draft.Plans store sources written entries left)
    (source : Bytes) {key : Bytes} (value : Bytes) (kept : Nat)
    (outside : key ∉ draft.destinations) (new : ∀ entry ∈ draft.index, entry.1 ≠ key)
    (free : heldApart store sources key = none) :
    Draft.Plans store sources
      { draft with
        destinations := key :: draft.destinations
        deletes := if key = source then draft.deletes else source :: draft.deletes
        puts := (key, value) :: draft.puts
        kept := kept }
      (written ++ [(key, value)]) entries
      (left ++ if key = source then [] else [source]) := by
  rw [plans.destinations, List.mem_reverse] at outside
  -- Only `distinct`, `apart` and `fresh` ask something of the new record, one hypothesis for each.
  exact {
    destinations := by simp [plans.destinations]
    index := plans.index
    deletes := by split <;> simp [plans.deletes]
    puts := fun entry => by
      simp only [List.mem_cons, plans.puts, List.mem_append, List.not_mem_nil, or_false]
      rw [← or_assoc, or_comm (a := entry = _)]
    distinct := by
      rw [List.map_append, List.map_singleton]
      refine List.nodup_append.2 ⟨plans.distinct, List.pairwise_singleton _ _, ?_⟩
      rintro other member _ (_ | _) rfl
      · exact outside member
      · contradiction
    apart := fun record either entry member => by
      rcases List.mem_append.1 either with old | equal
      · exact plans.apart record old entry member
      · rw [List.mem_singleton.1 equal]
        exact (new entry ((plans.index entry).2 member)).symm
    agree := plans.agree
    fresh := fun record either => by
      rcases List.mem_append.1 either with old | equal
      · exact plans.fresh record old
      · rw [List.mem_singleton.1 equal]
        exact free
    same := plans.same }

theorem Draft.Plans.add {done : List Decision} {decision : Decision}
    (plans : draft.Plans store sources (records done) (indexed done) (departed done))
    (added : Draft.add store sources draft decision = .ok next) :
    next.Plans store sources (records (done ++ [decision])) (indexed (done ++ [decision]))
      (departed (done ++ [decision])) := by
  obtain ⟨source, outcome⟩ := decision
  cases outcome with
  | drop reason =>
    obtain rfl := Except.ok.inj added
    have written : records (done ++ [(source, .drop reason)]) = records done := by
      simp [records, Outcome.record?]
    have entries : indexed (done ++ [(source, .drop reason)]) = indexed done := by
      simp [indexed, Outcome.index]
    have left : departed (done ++ [(source, .drop reason)]) = departed done ++ [source] := by
      simp [departed, departure?, Outcome.record?]
    rw [written, entries, left]
    exact { plans with deletes := by simp [plans.deletes] }
  | keep key value index =>
    have written : records (done ++ [(source, .keep key value index)])
        = records done ++ [(key, value)] := by
      simp [records, Outcome.record?]
    have entries : indexed (done ++ [(source, .keep key value index)])
        = indexed done ++ index := by
      simp [indexed, Outcome.index]
    have left : departed (done ++ [(source, .keep key value index)])
        = departed done ++ if key = source then [] else [source] := by
      by_cases stays : key = source <;> simp [departed, departure?, Outcome.record?, stays]
    rw [written, entries, left]
    obtain ⟨outside, new, free, folded⟩ := add_keep_eq_ok added
    have base := plans.record source value (draft.kept + 1) outside new free
    -- The index entries are added one by one to those of the decisions before.
    refine foldlM_eq_ok_induction
      (fun some state => Draft.Plans store sources state _ (indexed done ++ some) _)
      (fun some entry state after holds here => ?_) folded (by simpa using base)
    rw [← List.append_assoc]
    exact holds.addIndex here

/-- The draft of decisions plans what they ask for. -/
theorem plans_of_draftOf {decisions : List Decision}
    (drafted : draftOf store decisions = .ok draft) :
    draft.Plans store (decisions.map (·.1)) (records decisions) (indexed decisions)
      (departed decisions) := by
  rw [draftOf] at drafted
  generalize decisions.map (·.1) = sources at drafted ⊢
  exact foldlM_eq_ok_induction
    (fun done state =>
      Draft.Plans store sources state (records done) (indexed done) (departed done))
    (fun _ _ _ _ holds here => holds.add here) drafted (Draft.plans_empty store sources)

/-- The entries that a draft writes have one value at each key. -/
theorem Draft.Plans.puts_unique (plans : draft.Plans store sources written entries left) :
    ∀ one ∈ draft.puts, ∀ two ∈ draft.puts, one.1 = two.1 → one = two := by
  intro one first two second same
  rcases (plans.puts one).1 first with record | index
    <;> rcases (plans.puts two).1 second with other | entry
  · exact List.inj_on_of_nodup_map plans.distinct record other same
  · exact absurd same (plans.apart one record two entry)
  · exact absurd same.symm (plans.apart two other one index)
  · exact plans.agree one index two entry same

theorem Draft.put_mem_changes_iff {key value : Bytes} :
    .put key value ∈ draft.changes ↔ (key, value) ∈ draft.puts := by
  simp [changes]

theorem Draft.delete_mem_changes_iff {key : Bytes} :
    .delete key ∈ draft.changes ↔ key ∈ draft.deletes := by
  simp [changes]

end Drafts

/-! ## Passes -/

/-- A pass decides an outcome for the record at a key. -/
def Pass.Decides (pass : Pass) (store : Store) (source : Bytes) (outcome : Outcome) : Prop :=
  pass.scope <+: source
    ∧ ∃ content, store.get? source = some content ∧ pass.transform source content = .ok outcome

/-- A pass writes an entry, as a record or as an index entry. -/
def Pass.Puts (pass : Pass) (store : Store) (entry : Entry) : Prop :=
  ∃ source outcome, pass.Decides store source outcome
    ∧ (outcome.record? = some entry ∨ entry ∈ outcome.index)

/-- A pass takes the record away from a key. -/
def Pass.Leaves (pass : Pass) (store : Store) (source : Bytes) : Prop :=
  ∃ outcome, pass.Decides store source outcome
    ∧ ∀ entry, outcome.record? = some entry → entry.1 ≠ source

/-- What is known of a pass whose batch can be planned. -/
structure Pass.Planned (pass : Pass) (store : Store) (changes : List Store.Change) : Prop where
  decides : ∀ source content, pass.scope <+: source → store.get? source = some content →
    ∃ outcome, pass.transform source content = .ok outcome
  puts : ∀ key value, .put key value ∈ changes ↔ pass.Puts store (key, value)
  deletes : ∀ key, .delete key ∈ changes ↔ pass.Leaves store key
  distinct : ∀ first second one two key, pass.Decides store first one →
    pass.Decides store second two → one.record?.map (·.1) = some key →
    two.record?.map (·.1) = some key → first = second

section Passes

variable {pass : Pass} {store : Store}

theorem Pass.mem_decide_iff {decisions : List Decision}
    (decided : pass.decide store = .ok decisions) {source : Bytes} {outcome : Outcome} :
    (source, outcome) ∈ decisions ↔ pass.Decides store source outcome := by
  rw [mem_of_mapM_eq_ok decided]
  constructor
  · rintro ⟨⟨key, content⟩, member, here⟩
    obtain ⟨found, transformed, same⟩ := map_eq_ok_iff.1 here
    obtain ⟨rfl, rfl⟩ := Prod.mk.inj same
    obtain ⟨under, held⟩ := Store.mem_scan_iff.1 member
    exact ⟨under, content, held, transformed⟩
  · rintro ⟨under, content, held, transformed⟩
    exact ⟨(source, content), Store.mem_scan_iff.2 ⟨under, held⟩,
      map_eq_ok_iff.2 ⟨outcome, transformed, rfl⟩⟩

theorem departure?_eq_some_iff {decision : Decision} {key : Bytes} :
    departure? decision = some key
      ↔ decision.1 = key ∧ ∀ entry, decision.2.record? = some entry → entry.1 ≠ key := by
  obtain ⟨source, outcome⟩ := decision
  rw [departure?]
  cases outcome.record? <;> grind

theorem Pass.plan_eq_ok_iff {changes : List Store.Change} {report : PassReport} :
    pass.plan store = .ok (changes, report)
      ↔ ∃ decisions draft, pass.decide store = .ok decisions ∧ draftOf store decisions = .ok draft
          ∧ draft.changes = changes ∧ pass.report decisions draft = report := by
  simp only [Pass.plan, bind_eq_ok_iff, Except.ok.injEq, Prod.mk.injEq, exists_and_left]

theorem Pass.planned {changes : List Store.Change} {report : PassReport}
    (planned : pass.plan store = .ok (changes, report)) : pass.Planned store changes := by
  obtain ⟨decisions, draft, decided, drafted, rfl, -⟩ := Pass.plan_eq_ok_iff.1 planned
  have plans := plans_of_draftOf drafted
  have decides {source : Bytes} {outcome : Outcome} :
      (source, outcome) ∈ decisions ↔ pass.Decides store source outcome := mem_decide_iff decided
  -- What the draft says of the list of decisions is said here of the store that they were made for.
  refine ⟨fun source content under held => ?_, fun key value => ?_, fun key => ?_,
    fun first second one two key firstDecided secondDecided firstKept secondKept => ?_⟩
  · obtain ⟨_, here⟩ := exists_of_mapM_eq_ok decided (Store.mem_scan_iff.2 ⟨under, held⟩)
    obtain ⟨outcome, transformed, -⟩ := map_eq_ok_iff.1 here
    exact ⟨outcome, transformed⟩
  · rw [Draft.put_mem_changes_iff, plans.puts, records, indexed, List.mem_filterMap,
      List.mem_flatMap]
    constructor
    · rintro (⟨⟨source, outcome⟩, member, found⟩ | ⟨⟨source, outcome⟩, member, found⟩)
      · exact ⟨source, outcome, decides.1 member, .inl found⟩
      · exact ⟨source, outcome, decides.1 member, .inr found⟩
    · rintro ⟨source, outcome, decision, found | found⟩
      · exact .inl ⟨_, decides.2 decision, found⟩
      · exact .inr ⟨_, decides.2 decision, found⟩
  · rw [Draft.delete_mem_changes_iff, plans.deletes, List.mem_reverse, departed,
      List.mem_filterMap]
    constructor
    · rintro ⟨⟨source, outcome⟩, member, gone⟩
      obtain ⟨rfl, away⟩ := departure?_eq_some_iff.1 gone
      exact ⟨outcome, decides.1 member, away⟩
    · rintro ⟨outcome, decision, away⟩
      exact ⟨_, decides.2 decision, departure?_eq_some_iff.2 ⟨rfl, away⟩⟩
  · have same := decision_unique plans.distinct (decides.2 firstDecided) (decides.2 secondDecided)
      firstKept secondKept
    exact (Prod.mk.inj same).1

theorem Pass.exists_plan_of_run {final : Store} {report : PassReport}
    (ran : pass.run store = .ok (final, report)) :
    ∃ changes, pass.plan store = .ok (changes, report) ∧ final = store.apply changes := by
  obtain ⟨⟨changes, own⟩, planned, same⟩ := map_eq_ok_iff.1 ran
  obtain ⟨rfl, rfl⟩ := Prod.mk.inj same
  exact ⟨changes, planned, rfl⟩

/-! ## Keys that a pass does not visit -/

theorem Pass.exists_plans {changes : List Store.Change} {report : PassReport}
    (planned : pass.plan store = .ok (changes, report)) :
    ∃ decisions, ∃ draft : Draft, pass.decide store = .ok decisions
      ∧ draft.Plans store (decisions.map (·.1)) (records decisions) (indexed decisions)
          (departed decisions) := by
  obtain ⟨decisions, draft, decided, drafted, -, -⟩ := Pass.plan_eq_ok_iff.1 planned
  exact ⟨decisions, draft, decided, plans_of_draftOf drafted⟩

theorem Pass.heldApart_eq {decisions : List Decision} (decided : pass.decide store = .ok decisions)
    {key : Bytes} (outside : ¬ pass.scope <+: key) :
    heldApart store (decisions.map (·.1)) key = store.get? key := by
  have unvisited : key ∉ decisions.map (·.1) := by
    intro visited
    obtain ⟨decision, among, rfl⟩ := List.mem_map.1 visited
    exact outside ((mem_decide_iff decided).1 among).1
  simp [heldApart, unvisited]

section

variable {changes : List Store.Change} {report : PassReport} {source : Bytes} {outcome : Outcome}
  {entry : Entry} (planned : pass.plan store = .ok (changes, report))
  (outside : ¬ pass.scope <+: entry.1)
include planned outside

/-- Outside its scope a pass keeps records only at keys that are free. -/
theorem Pass.get?_eq_none_of_record (decides : pass.Decides store source outcome)
    (kept : outcome.record? = some entry) : store.get? entry.1 = none := by
  obtain ⟨decisions, draft, decided, plans⟩ := Pass.exists_plans planned
  have member := (mem_decide_iff decided).2 decides
  rw [← Pass.heldApart_eq decided outside]
  exact plans.fresh entry (List.mem_filterMap.2 ⟨_, member, kept⟩)

/-- Outside its scope a pass indexes only what is free or holds the same. -/
theorem Pass.eq_of_index (decides : pass.Decides store source outcome)
    (indexes : entry ∈ outcome.index) {held : Bytes} (found : store.get? entry.1 = some held) :
    held = entry.2 := by
  obtain ⟨decisions, draft, decided, plans⟩ := Pass.exists_plans planned
  have member := (mem_decide_iff decided).2 decides
  rw [← Pass.heldApart_eq decided outside] at found
  exact plans.same entry (List.mem_flatMap.2 ⟨_, member, indexes⟩) held found

/-- Outside its scope a pass puts no other value than the one that is held. -/
theorem Pass.eq_of_puts (puts : pass.Puts store entry) {held : Bytes}
    (found : store.get? entry.1 = some held) : held = entry.2 := by
  obtain ⟨source, outcome, decides, kept | indexes⟩ := puts
  · rw [Pass.get?_eq_none_of_record planned outside decides kept] at found
    cases found
  · exact Pass.eq_of_index planned outside decides indexes found

end

/-! ## Batches -/

/-- The batch of a pass holds a change. -/
def Pass.Issues (pass : Pass) (store : Store) (change : Store.Change) : Prop :=
  ∃ changes report, pass.plan store = .ok (changes, report) ∧ change ∈ changes

section

variable {changes : List Store.Change} {report : PassReport}
  (planned : pass.plan store = .ok (changes, report))
include planned

theorem Pass.issues_iff {change : Store.Change} : pass.Issues store change ↔ change ∈ changes := by
  constructor
  · rintro ⟨own, other, again, member⟩
    obtain ⟨rfl, -⟩ := Prod.mk.inj (Except.ok.inj (planned.symm.trans again))
    exact member
  · exact fun member => ⟨changes, report, planned, member⟩

theorem Pass.issues_put_iff {key value : Bytes} :
    pass.Issues store (.put key value) ↔ pass.Puts store (key, value) :=
  (Pass.issues_iff planned).trans ((Pass.planned planned).puts key value)

theorem Pass.issues_delete_iff {key : Bytes} :
    pass.Issues store (.delete key) ↔ pass.Leaves store key :=
  (Pass.issues_iff planned).trans ((Pass.planned planned).deletes key)

end

end Passes

end LinkRegistry.Migration
