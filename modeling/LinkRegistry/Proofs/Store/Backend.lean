import LinkRegistry.Store.Backend
import LinkRegistry.Proofs.Store.Contents
import Mathlib.Logic.Function.Basic

/-!
# Both backends answer as one map

What a call on a store is answered with depends only on the contents of the store, a map from keys
to values, and the contents leave no choice: a scan lists the entries under its lead in ascending
order, and there is one such list.

A table and a cursor find that list in different ways, and both rely on the keys with one lead
standing together in the order of keys. The lead is the least of them and `above? lead` is the
least key above them. So the keys from the lead up to that bound are the keys with the lead, and a
cursor that has come to a key without the lead has none with it ahead.
-/

namespace LinkRegistry

/-! ## The map -/

/-- What a store holds at each key. -/
abbrev Contents := Bytes → Option Bytes

namespace Contents

def change (contents : Contents) : Store.Change → Contents
  | .put key value => Function.update contents key (some value)
  | .delete key => Function.update contents key none

/-- The contents after a call. Calls that only read leave them as they are. -/
def after (contents : Contents) : Request → Contents
  | .put key value => contents.change (.put key value)
  | .delete key => contents.change (.delete key)
  | .batch changes => changes.foldl change contents
  | .get _ | .contains _ | .scan _ | .iterate _ _ => contents

/-- Entries are those under a lead, in ascending order of keys and so each of them once. -/
structure Lists (contents : Contents) (lead : Bytes) (entries : List Entry) : Prop where
  ascending : Ascending entries
  mem_iff : ∀ key value, (key, value) ∈ entries ↔ lead <+: key ∧ contents key = some value

/-- The answer that a call has to give on such contents. -/
inductive Answers (contents : Contents) : Request → Answer → Prop
  | put {key value : Bytes} : Answers contents (.put key value) .done
  | delete {key : Bytes} : Answers contents (.delete key) .done
  | batch {changes : List Store.Change} : Answers contents (.batch changes) .done
  | get {key : Bytes} : Answers contents (.get key) (.value (contents key))
  | contains {key : Bytes} {present : Bool}
      (held : present = true ↔ ∃ value, contents key = some value) :
      Answers contents (.contains key) (.found present)
  | scan {lead : Bytes} {entries : List Entry} (lists : contents.Lists lead entries) :
      Answers contents (.scan lead) (.entries entries)
  | iterate {lead : Bytes} {entries : List Entry} (lists : contents.Lists lead entries) :
      Answers contents (.iterate lead none) (.entries entries)
  | iterateSome {lead : Bytes} {limit : Nat} {entries : List Entry}
      (lists : contents.Lists lead entries) :
      Answers contents (.iterate lead (some limit)) (.entries (entries.take limit))

/-- The answers that calls have to give one after the other. -/
inductive Answered : Contents → List Request → List Answer → Prop
  | nil {contents : Contents} : Answered contents [] []
  | cons {contents : Contents} {request : Request} {answer : Answer} {requests : List Request}
      {answers : List Answer} (first : contents.Answers request answer)
      (rest : Answered (contents.after request) requests answers) :
      Answered contents (request :: requests) (answer :: answers)

end Contents

/-- The answers of a backend to calls one after the other. -/
def Backend.answers (backend : Backend) : Store → List Request → List Answer
  | _, [] => []
  | store, request :: requests =>
    let served := backend.serve store request
    served.2 :: backend.answers served.1 requests

namespace Store

/-! ## Keys with one lead -/

/-- The keys from a lead up to the least key above those that begin with it are those that begin
with it. -/
theorem within_above_iff_leads {lead key : Bytes} :
    (¬ key < lead ∧ ∀ bound ∈ above? lead, key < bound) ↔ lead <+: key := by
  induction lead generalizing key with
  | nil => simp [above?]
  | cons byte rest ih =>
    cases key with
    | nil => simp
    | cons first others =>
      rw [List.cons_prefix_cons, ← ih, List.cons_lt_cons_iff, above?]
      rcases Std.lt_trichotomy first byte with below | rfl | above
      · have other : byte ≠ first := fun same => by simp [same] at below
        simp [below, other]
      · -- The first bytes are the same, so the rest decides, on the lower side and on the upper.
        cases above? rest with
        | some bound => simp
        | none =>
          have next : first < 0xFF → first < first + 1 := by grind
          by_cases last : first < 0xFF
          · simp [last, next last, List.cons_lt_cons_iff]
          · simp [last]
      · -- The key is above the lead in its first byte, and then not below the bound, which keeps
        -- that byte or has the next one and ends there.
        have other : byte ≠ first := fun same => by simp [same] at above
        have notBelow : ¬ first < byte := by grind
        have notNext : ¬ first < byte + 1 := by grind
        have last : byte < 0xFF := by grind
        cases above? rest with
        | some bound => simp [List.cons_lt_cons_iff, other, other.symm, notBelow]
        | none => simp [List.cons_lt_cons_iff, other, notNext, last]

theorem not_lt_of_leads {lead key : Bytes} (under : lead <+: key) : ¬ key < lead :=
  (within_above_iff_leads.2 under).1

/-- No key without the lead stands between the lead and a key with it. -/
theorem leads_of_lt {lead key later : Bytes} (notBelow : ¬ key < lead)
    (lt : key < later) (under : lead <+: later) : lead <+: key := by
  have ⟨_, below⟩ := within_above_iff_leads.2 under
  apply within_above_iff_leads.1
  exact ⟨notBelow, fun bound least => List.lt_trans lt (below bound least)⟩

/-- The range of a lead is its scan. -/
theorem range_above (store : Store) (lead : Bytes) :
    store.range lead (above? lead) = store.scan lead := by
  apply List.filter_congr
  intro entry _
  rw [Bool.eq_iff_iff, List.isPrefixOf_iff_prefix, ← within_above_iff_leads]
  simp [Option.all_eq_true]

/-! ## Cursors -/

/-- The entries that a cursor has yet to come to. -/
def ahead (store : Store) (start : Start) : List Entry :=
  store.entries.filter (start.admits ·.1)

theorem Start.admits_of_lt {start : Start} {key later : Bytes} (admitted : start.admits key = true)
    (lt : key < later) : start.admits later = true := by
  cases start with
  | «at» first =>
    simp only [admits, Bool.not_eq_true', decide_eq_false_iff_not] at admitted ⊢
    exact fun below => admitted (List.lt_trans lt below)
  | after last =>
    simp only [admits, decide_eq_true_eq] at admitted ⊢
    exact List.lt_trans admitted lt

private theorem filter_admits_after {start : Start} {entries : List Entry} {entry : Entry}
    {rest : List Entry} (ascending : Ascending entries)
    (next : entries.filter (start.admits ·.1) = entry :: rest) :
    entries.filter ((Start.after entry.1).admits ·.1) = rest := by
  induction entries with
  | nil => cases next
  | cons first others ih =>
    have ⟨above, tail⟩ := List.pairwise_cons.1 ascending
    by_cases admitted : start.admits first.1 = true
    · -- All entries behind the first that is admitted are admitted, and all are above it.
      have all : others.filter (start.admits ·.1) = others :=
        List.filter_eq_self.2 fun later member => Start.admits_of_lt admitted (above later member)
      rw [List.filter_cons, if_pos admitted, all] at next
      obtain ⟨rfl, rfl⟩ := List.cons.inj next
      rw [List.filter_cons_of_neg (by simp [Start.admits, List.lt_irrefl])]
      apply List.filter_eq_self.2
      intro later member
      simpa [Start.admits] using above later member
    · rw [List.filter_cons, if_neg admitted] at next
      have member : entry ∈ others := by
        have kept : entry ∈ others.filter (start.admits ·.1) := next ▸ List.mem_cons_self
        exact (List.mem_filter.1 kept).1
      have notAbove : ¬ entry.1 < first.1 := fun below =>
        List.lt_irrefl _ (List.lt_trans below (above entry member))
      rw [List.filter_cons_of_neg (by simpa [Start.admits] using notAbove)]
      exact ih tail next

/-- A cursor goes through the entries ahead until one has not the lead. -/
theorem cursor_eq_take (store : Store) (lead : Bytes) (count : Nat) (start : Start) :
    store.cursor lead count start
      = ((store.ahead start).takeWhile (lead.isPrefixOf ·.1)).take count := by
  induction count generalizing start with
  | zero => rfl
  | succ count ih =>
    rw [cursor, next?, ← List.head?_filter]
    cases next : store.ahead start with
    | nil => rw [show store.entries.filter (start.admits ·.1) = [] from next]; rfl
    | cons entry rest =>
      rw [show store.entries.filter (start.admits ·.1) = entry :: rest from next]
      have behind : store.ahead (.after entry.1) = rest :=
        filter_admits_after store.ascending next
      by_cases under : lead.isPrefixOf entry.1 = true
      · simp [Option.filter, under, ih, behind]
      · simp [Option.filter, under]

private theorem takeWhile_lead_eq_filter {lead : Bytes} {entries : List Entry}
    (ascending : Ascending entries) (notBelow : ∀ entry ∈ entries, ¬ entry.1 < lead) :
    entries.takeWhile (lead.isPrefixOf ·.1) = entries.filter (lead.isPrefixOf ·.1) := by
  induction entries with
  | nil => rfl
  | cons first rest ih =>
    have ⟨above, tail⟩ := List.pairwise_cons.1 ascending
    by_cases under : lead.isPrefixOf first.1 = true
    · rw [List.takeWhile_cons, if_pos under, List.filter_cons, if_pos under,
        ih tail fun entry member => notBelow entry (.tail _ member)]
    · -- An entry with the lead behind the first would have it between the lead and itself.
      have none : ∀ later ∈ rest, ¬ lead.isPrefixOf later.1 = true := by
        intro later member has
        rw [List.isPrefixOf_iff_prefix] at under has
        exact under (leads_of_lt (notBelow first (.head _)) (above later member) has)
      rw [List.takeWhile_cons, if_neg under, List.filter_cons, if_neg under,
        List.filter_eq_nil_iff.2 none]

/-- A cursor that starts at a lead gives the scan of the lead and then ends. -/
theorem cursor_at (store : Store) (lead : Bytes) (count : Nat) :
    store.cursor lead count (.at lead) = (store.scan lead).take count := by
  have notBelow : ∀ entry ∈ store.ahead (.at lead), ¬ entry.1 < lead := by
    intro entry member
    simpa [Start.admits] using (List.mem_filter.1 member).2
  have whole : (store.ahead (.at lead)).filter (lead.isPrefixOf ·.1) = store.scan lead := by
    rw [ahead, List.filter_filter]
    apply List.filter_congr
    intro entry _
    rw [Bool.and_eq_left_iff_imp, List.isPrefixOf_iff_prefix]
    intro under
    simpa [Start.admits] using not_lt_of_leads under
  have ascending : Ascending (store.ahead (.at lead)) := store.ascending.filter _
  rw [cursor_eq_take, takeWhile_lead_eq_filter ascending notBelow, whole]

end Store

/-! ## Answers -/

/-- Each backend finds the entries under a lead. -/
theorem Backend.scan_eq (backend : Backend) (store : Store) (lead : Bytes) :
    backend.scan store lead = store.scan lead := by
  cases backend with
  | memory =>
    rw [scan, Store.cursor_at, List.take_of_length_le]
    exact List.length_filter_le _ _
  | table path => exact Store.range_above store lead

namespace Contents

theorem Lists.unique {contents : Contents} {lead : Bytes} {left right : List Entry}
    (first : contents.Lists lead left) (second : contents.Lists lead right) : left = right := by
  apply Store.eq_of_lookup first.ascending second.ascending
  intro key
  apply Option.ext
  intro value
  have same : (key, value) ∈ left ↔ (key, value) ∈ right := by
    rw [first.mem_iff, second.mem_iff]
  constructor
  · intro found
    exact Store.lookup_of_mem second.ascending (same.1 (Store.mem_of_lookup found))
  · intro found
    exact Store.lookup_of_mem first.ascending (same.2 (Store.mem_of_lookup found))

theorem lists_scan (store : Store) (lead : Bytes) : Lists store.get? lead (store.scan lead) where
  ascending := store.ascending.filter _
  mem_iff _ _ := Store.mem_scan_iff

theorem get?_change (store : Store) (write : Store.Change) :
    (store.change write).get? = change store.get? write := by
  funext wanted
  cases write with
  | put key value =>
    rw [Store.change, Store.get?_insert, change, Function.update_apply]
    simp only [eq_comm]
  | delete key =>
    rw [Store.change, Store.get?_erase, change, Function.update_apply]
    simp only [eq_comm]

theorem get?_apply (store : Store) (changes : List Store.Change) :
    (store.apply changes).get? = changes.foldl change store.get? := by
  induction changes generalizing store with
  | nil => rfl
  | cons first rest ih => rw [Store.apply_cons, ih, get?_change, List.foldl_cons]

/-- A call leaves what the map has after it. -/
theorem get?_serve (backend : Backend) (store : Store) (request : Request) :
    (backend.serve store request).1.get? = after store.get? request := by
  cases request with
  | put key value => exact get?_change store (.put key value)
  | delete key => exact get?_change store (.delete key)
  | batch changes => exact get?_apply store changes
  | get _ | contains _ | scan _ | iterate _ _ => rfl

/-- A backend gives the one answer that a call can have. -/
theorem answers_iff (backend : Backend) (store : Store) (request : Request) (answer : Answer) :
    Answers store.get? request answer ↔ answer = (backend.serve store request).2 := by
  constructor
  · intro right
    cases right with
    | put | delete | batch | get => rfl
    | contains held =>
      rw [Backend.serve, Answer.found.injEq, Bool.eq_iff_iff, held, Store.contains_iff]
    -- There is one list in order with just the entries under a lead, however it was found.
    | scan lists =>
      rw [Backend.serve, Backend.scan_eq, lists.unique (lists_scan store _)]
    | iterate lists =>
      rw [Backend.serve, Backend.iterate, Backend.scan_eq, lists.unique (lists_scan store _)]
    | iterateSome lists =>
      rw [Backend.serve, Backend.iterate, Backend.scan_eq, lists.unique (lists_scan store _)]
  · rintro rfl
    cases request with
    | put _ _ => exact .put
    | delete _ => exact .delete
    | batch _ => exact .batch
    | get _ => exact .get
    | contains _ => exact .contains Store.contains_iff
    | scan lead =>
      rw [Backend.serve, Backend.scan_eq]
      exact .scan (lists_scan store lead)
    | iterate lead limit =>
      rw [Backend.serve]
      cases limit with
      | none =>
        rw [Backend.iterate, Backend.scan_eq]
        exact .iterate (lists_scan store lead)
      | some limit =>
        rw [Backend.iterate, Backend.scan_eq]
        exact .iterateSome (lists_scan store lead)

/-- The answers of a backend to a run of calls are the only ones right for the contents. -/
theorem answered_iff (backend : Backend) (store : Store) (requests : List Request)
    (answers : List Answer) :
    Answered store.get? requests answers ↔ answers = backend.answers store requests := by
  induction requests generalizing store answers with
  | nil =>
    constructor
    · intro answered
      cases answered
      rfl
    · rintro rfl
      exact .nil
  | cons request requests ih =>
    rw [Backend.answers]
    constructor
    · intro answered
      cases answered with
      | cons first rest =>
        rw [← get?_serve backend store request, ih] at rest
        rw [(answers_iff backend store request _).1 first, rest]
    · rintro rfl
      refine .cons ((answers_iff backend store request _).2 rfl) ?_
      rw [← get?_serve backend store request, ih]

end Contents

/-- From a fresh store on, every backend gives just the answers that one map from keys to values
has for the calls. In every store the range from a lead up to the least key above it, a cursor that
starts at the lead and the filter by the lead list the same entries, those with the lead in
ascending order of keys. -/
theorem answered_iff_eq_answers (requests : List Request) (answers : List Answer) :
    (∀ backend : Backend, Contents.Answered (fun _ => none) requests answers
        ↔ answers = backend.answers .empty requests)
      ∧ ∀ (store : Store) (lead : Bytes),
        Contents.Lists store.get? lead (store.scan lead)
          ∧ store.range lead (Store.above? lead) = store.scan lead
          ∧ ∀ count, store.cursor lead count (.at lead) = (store.scan lead).take count := by
  constructor
  · intro backend
    exact Contents.answered_iff backend .empty requests answers
  · intro store lead
    exact ⟨Contents.lists_scan store lead, Store.range_above store lead, store.cursor_at lead⟩

end LinkRegistry
