import Mathlib.Data.List.Forall2

/-!
# Computations that succeed

What is known of the parts of a computation once the whole has succeeded.
-/

namespace LinkRegistry

variable {ε α β : Type}

theorem bind_eq_ok_iff {first : Except ε α} {next : α → Except ε β} {result : β} :
    first >>= next = .ok result ↔ ∃ value, first = .ok value ∧ next value = .ok result := by
  cases first <;> simp [bind, Except.bind]

theorem bind_eq_error_iff {first : Except ε α} {next : α → Except ε β} {error : ε} :
    first >>= next = .error error
      ↔ first = .error error ∨ ∃ value, first = .ok value ∧ next value = .error error := by
  cases first <;> simp [bind, Except.bind]

theorem map_eq_ok_iff {outcome : Except ε α} {change : α → β} {result : β} :
    outcome.map change = .ok result ↔ ∃ value, outcome = .ok value ∧ change value = result := by
  cases outcome <;> simp [Except.map]

theorem map_eq_error_iff {outcome : Except ε α} {change : α → β} {error : ε} :
    outcome.map change = .error error ↔ outcome = .error error := by
  cases outcome <;> simp [Except.map]

theorem exists_eq_ok_of_isOk {outcome : Except ε α} (succeeds : outcome.isOk = true) :
    ∃ value, outcome = .ok value := by
  cases outcome with
  | error error => cases succeeds
  | ok value => exact ⟨value, rfl⟩

theorem eq_ok_of_toOption {outcome : Except ε α} {value : α}
    (succeeds : outcome.toOption = some value) : outcome = .ok value := by
  cases outcome with
  | error error => cases succeeds
  | ok found => exact congrArg Except.ok (Option.some.inj succeeds)

theorem eq_ok_of_isOk {outcome : Except ε Unit} (succeeds : outcome.isOk = true) :
    outcome = .ok () := by
  obtain ⟨⟨⟩, found⟩ := exists_eq_ok_of_isOk succeeds
  exact found

/-- A run that leaves a state behind and finishes has a result. -/
theorem exists_run_eq_ok {σ : Type} {run : σ × Except ε α} (finishes : run.2.isOk = true) :
    ∃ value, run = (run.1, .ok value) := by
  obtain ⟨value, found⟩ := exists_eq_ok_of_isOk finishes
  exact ⟨value, Prod.ext rfl found⟩

/-- A traversal succeeds exactly if it does so for each item. -/
theorem mapM_eq_ok_iff {f : α → Except ε β} {items : List α} {results : List β} :
    items.mapM f = .ok results
      ↔ List.Forall₂ (fun item result => f item = .ok result) items results := by
  induction items generalizing results with
  | nil =>
    rw [List.mapM_nil, List.forall₂_nil_left_iff]
    exact ⟨fun same => (Except.ok.inj same).symm, fun same => same ▸ rfl⟩
  | cons item rest ih =>
    rw [List.mapM_cons, bind_eq_ok_iff, List.forall₂_cons_left_iff]
    constructor
    · rintro ⟨first, here, later⟩
      obtain ⟨others, there, same⟩ := bind_eq_ok_iff.1 later
      exact ⟨first, others, here, ih.1 there, (Except.ok.inj same).symm⟩
    · rintro ⟨first, others, here, there, rfl⟩
      exact ⟨first, here, bind_eq_ok_iff.2 ⟨others, ih.2 there, rfl⟩⟩

/-- A traversal for items that may have no result has results exactly if each item has one. -/
theorem mapM_eq_some_iff {f : α → Option β} {items : List α} {results : List β} :
    items.mapM f = some results
      ↔ List.Forall₂ (fun item result => f item = some result) items results := by
  induction items generalizing results with
  | nil =>
    rw [List.mapM_nil, List.forall₂_nil_left_iff]
    simp [eq_comm]
  | cons item rest ih =>
    rw [List.mapM_cons, List.forall₂_cons_left_iff]
    simp only [Option.bind_eq_bind, Option.bind_eq_some_iff, ih]
    constructor
    · intro ⟨first, here, others, there, same⟩
      exact ⟨first, others, here, there, (Option.some.inj same).symm⟩
    · intro ⟨first, others, here, there, same⟩
      exact ⟨first, here, others, there, congrArg some same.symm⟩

/-- A traversal of items that each succeed succeeds. -/
theorem exists_mapM_eq_ok {f : α → Except ε β} {items : List α}
    (each : ∀ item ∈ items, ∃ result, f item = .ok result) :
    ∃ results, items.mapM f = .ok results := by
  induction items with
  | nil => exact ⟨[], rfl⟩
  | cons item rest ih =>
    obtain ⟨first, here⟩ := each item (.head _)
    obtain ⟨others, there⟩ := ih fun next member => each next (.tail _ member)
    exact ⟨first :: others, mapM_eq_ok_iff.2 (.cons here (mapM_eq_ok_iff.1 there))⟩

/-- The results of a traversal are those of its items. -/
theorem mem_of_mapM_eq_ok {f : α → Except ε β} {items : List α} {results : List β}
    (succeeded : items.mapM f = .ok results) {result : β} :
    result ∈ results ↔ ∃ item ∈ items, f item = .ok result := by
  have related := mapM_eq_ok_iff.1 succeeded
  clear succeeded
  induction related with
  | nil => simp
  | cons here _ ih => simp [ih, here, eq_comm]

/-- A traversal that succeeds does so for each item. -/
theorem exists_of_mapM_eq_ok {f : α → Except ε β} {items : List α} {results : List β}
    (succeeded : items.mapM f = .ok results) {item : α} (member : item ∈ items) :
    ∃ result, f item = .ok result := by
  have related := mapM_eq_ok_iff.1 succeeded
  clear succeeded
  induction related with
  | nil => cases member
  | cons here _ ih =>
    rcases List.mem_cons.1 member with rfl | later
    · exact ⟨_, here⟩
    · exact ih later

/-- A traversal that fails does so at one of its items. -/
theorem exists_of_mapM_eq_error {f : α → Except ε β} {items : List α} {error : ε}
    (failed : items.mapM f = .error error) : ∃ item ∈ items, f item = .error error := by
  induction items with
  | nil => cases failed
  | cons item rest ih =>
    rw [List.mapM_cons] at failed
    rcases bind_eq_error_iff.1 failed with here | ⟨first, -, later⟩
    · exact ⟨item, .head _, here⟩
    · rcases bind_eq_error_iff.1 later with there | ⟨others, -, built⟩
      · obtain ⟨next, member, fails⟩ := ih there
        exact ⟨next, .tail _ member, fails⟩
      · cases built

/-- What agrees for each item and its result agrees for all of them in order. -/
theorem map_of_mapM_eq_ok {γ : Type} {f : α → Except ε β} {items : List α} {results : List β}
    (succeeded : items.mapM f = .ok results) {ofResult : β → γ} {ofItem : α → γ}
    (agree : ∀ item ∈ items, ∀ result, f item = .ok result → ofResult result = ofItem item) :
    results.map ofResult = items.map ofItem := by
  have related := mapM_eq_ok_iff.1 succeeded
  clear succeeded
  induction related with
  | nil => rfl
  | cons here _ ih =>
    rw [List.map_cons, List.map_cons, agree _ (.head _) _ here,
      ih fun item member => agree item (.tail _ member)]

/-- A relation between results in their order is one between the items they come from. -/
theorem pairwise_of_mapM_eq_ok {f : α → Except ε β} {items : List α} {results : List β}
    (succeeded : items.mapM f = .ok results) {ofItems : α → α → Prop} {ofResults : β → β → Prop}
    (agree : ∀ item other result next, f item = .ok result → f other = .ok next →
      (ofItems item other ↔ ofResults result next)) :
    items.Pairwise ofItems ↔ results.Pairwise ofResults := by
  have related := mapM_eq_ok_iff.1 succeeded
  clear succeeded
  induction related with
  | nil => simp
  | @cons item result items results here later ih =>
    rw [List.pairwise_cons, List.pairwise_cons]
    refine and_congr ?_ ih
    constructor
    · intro ahead next member
      obtain ⟨other, among, there⟩ := (mem_of_mapM_eq_ok (mapM_eq_ok_iff.2 later)).1 member
      exact (agree item other result next here there).1 (ahead other among)
    · intro ahead other among
      obtain ⟨next, there⟩ := exists_of_mapM_eq_ok (mapM_eq_ok_iff.2 later) among
      have member := (mem_of_mapM_eq_ok (mapM_eq_ok_iff.2 later)).2 ⟨other, among, there⟩
      exact (agree item other result next here there).2 (ahead next member)

theorem mapM_congr {f g : α → Except ε β} {items : List α}
    (same : ∀ item ∈ items, f item = g item) : items.mapM f = items.mapM g := by
  induction items with
  | nil => rfl
  | cons item rest ih =>
    rw [List.mapM_cons, List.mapM_cons, same item (.head _),
      ih fun next member => same next (.tail _ member)]

theorem foldlM_congr {σ : Type} {f g : σ → α → Except ε σ} {items : List α}
    (same : ∀ item ∈ items, ∀ state, f state item = g state item) (start : σ) :
    items.foldlM f start = items.foldlM g start := by
  induction items generalizing start with
  | nil => rfl
  | cons item rest ih =>
    rw [List.foldlM_cons, List.foldlM_cons, same item (.head _)]
    exact congrArg _ (funext fun next => ih (fun later member => same later (.tail _ member)) next)

/-- What holds at the start of a fold and is kept by each item holds at its end. -/
theorem foldlM_eq_ok_induction {σ : Type} {step : σ → α → Except ε σ}
    (Invariant : List α → σ → Prop)
    (kept : ∀ done item state next, Invariant done state → step state item = .ok next →
      Invariant (done ++ [item]) next)
    {items : List α} {start final : σ} (folded : items.foldlM step start = .ok final)
    (initial : Invariant [] start) : Invariant items final := by
  suffices general : ∀ done, Invariant done start → Invariant (done ++ items) final from
    general [] initial
  clear initial
  induction items generalizing start with
  | nil =>
    intro done holds
    obtain rfl := Except.ok.inj folded
    rwa [List.append_nil]
  | cons item rest ih =>
    intro done holds
    rw [List.foldlM_cons] at folded
    obtain ⟨next, here, later⟩ := bind_eq_ok_iff.1 folded
    have goal := ih later (done ++ [item]) (kept done item start next holds here)
    rwa [List.append_assoc, List.singleton_append] at goal

/-- A fold whose every item can be taken succeeds, with the invariant that shows it. -/
theorem exists_foldlM_eq_ok {σ : Type} {step : σ → α → Except ε σ}
    (Invariant : List α → σ → Prop) {items : List α}
    (goes : ∀ done item state, done ++ [item] <+: items → Invariant done state →
      ∃ next, step state item = .ok next ∧ Invariant (done ++ [item]) next)
    {start : σ} (initial : Invariant [] start) :
    ∃ final, items.foldlM step start = .ok final ∧ Invariant items final := by
  -- The induction is on what is left, with any beginning done and any state it led to.
  suffices general : ∀ rest done state, done ++ rest = items → Invariant done state →
      ∃ final, rest.foldlM step state = .ok final ∧ Invariant items final from
    general items [] start (List.nil_append _) initial
  intro rest
  induction rest with
  | nil =>
    intro done state whole holds
    rw [List.append_nil] at whole
    exact ⟨state, rfl, whole ▸ holds⟩
  | cons item rest ih =>
    intro done state whole holds
    have cut : done ++ [item] ++ rest = items := by
      rw [List.append_assoc, List.singleton_append, whole]
    obtain ⟨next, here, holdsNext⟩ := goes done item state ⟨rest, cut⟩ holds
    obtain ⟨final, later, holdsFinal⟩ := ih (done ++ [item]) next cut holdsNext
    refine ⟨final, ?_, holdsFinal⟩
    rw [List.foldlM_cons, bind_eq_ok_iff]
    exact ⟨next, here, later⟩

/-- A fold that fails does so at one of its items. -/
theorem exists_of_foldlM_eq_error {σ : Type} {step : σ → α → Except ε σ} {items : List α}
    {start : σ} {error : ε} (failed : items.foldlM step start = .error error) :
    ∃ item ∈ items, ∃ state, step state item = .error error := by
  induction items generalizing start with
  | nil => cases failed
  | cons item rest ih =>
    rw [List.foldlM_cons] at failed
    cases here : step start item with
    | error cause =>
      rw [here] at failed
      cases failed
      exact ⟨item, .head _, start, here⟩
    | ok next =>
      rw [here] at failed
      obtain ⟨later, member, state, there⟩ := ih failed
      exact ⟨later, .tail _ member, state, there⟩

end LinkRegistry
