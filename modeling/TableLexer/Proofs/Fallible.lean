import TableLexer.Fault

/-! Operations that may fail, in sequence. One lemma opens a sequence of two, and the loops over
lists are opened with it. -/

set_option autoImplicit false

namespace TableLexer

variable {ε α β : Type}

theorem bind_eq_ok_iff {first : Except ε α} {next : α → Except ε β} {result : β} :
    (first >>= next) = .ok result ↔ ∃ value, first = .ok value ∧ next value = .ok result := by
  cases first with
  | error cause => simp [bind, Except.bind]
  | ok value => simp [bind, Except.bind]

theorem check_bind_eq_ok_iff {check : Except ε Unit} {next : Except ε β} {result : β} :
    (check >>= fun _ => next) = .ok result ↔ check = .ok () ∧ next = .ok result := by
  rw [bind_eq_ok_iff]
  constructor
  · rintro ⟨_, first, others⟩
    exact ⟨first, others⟩
  · rintro ⟨first, others⟩
    exact ⟨(), first, others⟩

@[simp] theorem ok_bind (value : α) (next : α → Except ε β) :
    ((.ok value : Except ε α) >>= next) = next value := rfl

@[simp] theorem error_bind (cause : ε) (next : α → Except ε β) :
    ((.error cause : Except ε α) >>= next) = .error cause := rfl

@[simp] theorem pure_eq_ok (value : α) : (pure value : Except ε α) = .ok value := rfl

@[simp] theorem throw_eq_error (cause : ε) : (throw cause : Except ε α) = .error cause := rfl

theorem eq_add_of_addWord {a b sum : Nat} (added : addWord a b = .ok sum) : sum = a + b := by
  unfold addWord at added
  split at added
  · cases added
    rfl
  · cases added

theorem eq_sub_of_subWord {a b rest : Nat} (left : subWord a b = .ok rest) : rest = a - b := by
  unfold subWord at left
  split at left
  · cases left
    rfl
  · cases left

theorem toOption_eq_some_iff {outcome : Except ε α} {value : α} :
    outcome.toOption = some value ↔ outcome = .ok value := by
  cases outcome with
  | error cause => simp [Except.toOption]
  | ok found => simp [Except.toOption]

theorem mapError_eq_ok_iff {ε' : Type} {outcome : Except ε α} {convert : ε → ε'} {value : α} :
    outcome.mapError convert = .ok value ↔ outcome = .ok value := by
  cases outcome with
  | error cause =>
    change Except.error (convert cause) = .ok value ↔ _
    simp
  | ok found =>
    change Except.ok found = .ok value ↔ _
    simp

theorem forM_eq_ok_iff {items : List α} {check : α → Except ε Unit} :
    items.forM check = .ok () ↔ ∀ item ∈ items, check item = .ok () := by
  induction items with
  | nil => simp [List.forM]
  | cons item rest ih =>
    change (check item >>= fun _ => rest.forM check) = .ok () ↔ _
    rw [check_bind_eq_ok_iff, ih]
    simp only [List.mem_cons, forall_eq_or_imp]

theorem mapM_eq_ok {items : List α} {visit : α → Except ε β} {result : α → β}
    (each : ∀ item ∈ items, visit item = .ok (result item)) :
    items.mapM visit = .ok (items.map result) := by
  induction items with
  | nil => rfl
  | cons item rest ih =>
    rw [List.forall_mem_cons] at each
    rw [List.mapM_cons, each.1, ih each.2]
    rfl

/-- What every step keeps, a loop keeps: an invariant that speaks of the items done so far. -/
theorem foldlM_induction {step : β → α → Except ε β} {start result : β} {items : List α}
    (kept : List α → β → Prop) (base : kept [] start)
    (advance : ∀ done item state next, kept done state → item ∈ items →
      step state item = .ok next → kept (done ++ [item]) next)
    (ran : items.foldlM step start = .ok result) : kept items result := by
  suffices general : ∀ (rest done : List α) (state : β), (∀ item ∈ rest, item ∈ items) →
      kept done state → rest.foldlM step state = .ok result → kept (done ++ rest) result by
    simpa using general items [] start (fun _ member => member) base ran
  intro rest
  induction rest with
  | nil =>
    intro done state _ holds finished
    simp only [List.foldlM_nil, pure_eq_ok, Except.ok.injEq] at finished
    subst finished
    simpa using holds
  | cons item rest ih =>
    intro done state within holds continued
    rw [List.foldlM_cons, bind_eq_ok_iff] at continued
    obtain ⟨next, stepped, continued⟩ := continued
    have later := ih (done ++ [item]) next (fun other member => within other (.tail item member))
      (advance done item state next holds (within item (.head rest)) stepped) continued
    simpa using later

/-- A loop whose every step succeeds and keeps an invariant succeeds and keeps it. -/
theorem foldlM_succeeds {step : β → α → Except ε β} {start : β} {items : List α}
    (kept : List α → β → Prop) (base : kept [] start)
    (advance : ∀ done item rest state, items = done ++ item :: rest → kept done state →
      ∃ next, step state item = .ok next ∧ kept (done ++ [item]) next) :
    ∃ result, items.foldlM step start = .ok result ∧ kept items result := by
  suffices general : ∀ (rest done : List α) (state : β), items = done ++ rest →
      kept done state → ∃ result, rest.foldlM step state = .ok result ∧ kept items result by
    exact general items [] start rfl base
  intro rest
  induction rest with
  | nil =>
    intro done state shape holds
    rw [List.append_nil] at shape
    exact ⟨state, rfl, shape ▸ holds⟩
  | cons item rest ih =>
    intro done state shape holds
    obtain ⟨next, stepped, holds'⟩ := advance done item rest state shape holds
    obtain ⟨result, ran, holds''⟩ :=
      ih (done ++ [item]) next (by rw [shape, List.append_assoc]; rfl) holds'
    refine ⟨result, ?_, holds''⟩
    rw [List.foldlM_cons, stepped]
    exact ran

theorem foldlM_eq_ok {step : β → α → Except ε β} (advance : β → α → β) {start : β}
    {items : List α} (each : ∀ done item rest, items = done ++ item :: rest →
      step (done.foldl advance start) item = .ok (advance (done.foldl advance start) item)) :
    items.foldlM step start = .ok (items.foldl advance start) := by
  have reached : ∃ result, items.foldlM step start = .ok result ∧
      result = items.foldl advance start := by
    refine foldlM_succeeds (fun done state => state = done.foldl advance start) rfl ?_
    rintro done item rest _ split rfl
    exact ⟨_, each done item rest split, by rw [List.foldl_append]; rfl⟩
  obtain ⟨_, ran, rfl⟩ := reached
  exact ran

/-- If the operation fails, it does so for one of these causes. -/
def FailsOnly (cause : ε → Prop) (outcome : Except ε α) : Prop :=
  ∀ error, outcome = .error error → cause error

section

variable {cause : ε → Prop}

theorem failsOnly_ok (value : α) : FailsOnly cause (.ok value : Except ε α) :=
  nofun

theorem failsOnly_error {error : ε} (allowed : cause error) :
    FailsOnly cause (.error error : Except ε α) := by
  rintro _ ⟨⟩
  exact allowed

theorem FailsOnly.bind {first : Except ε α} {next : α → Except ε β}
    (fails : FailsOnly cause first)
    (fails' : ∀ value, first = .ok value → FailsOnly cause (next value)) :
    FailsOnly cause (first >>= next) := by
  cases first with
  | error error => exact failsOnly_error (fails error rfl)
  | ok value => exact fails' value rfl

theorem failsOnly_forM {items : List α} {check : α → Except ε Unit}
    (each : ∀ item ∈ items, FailsOnly cause (check item)) :
    FailsOnly cause (items.forM check) := by
  induction items with
  | nil => exact failsOnly_ok ()
  | cons item rest ih =>
    rw [List.forall_mem_cons] at each
    exact each.1.bind fun _ _ => ih each.2

theorem failsOnly_foldlM {step : β → α → Except ε β} {items : List α}
    (each : ∀ state, ∀ item ∈ items, FailsOnly cause (step state item)) (start : β) :
    FailsOnly cause (items.foldlM step start) := by
  induction items generalizing start with
  | nil => exact failsOnly_ok start
  | cons item rest ih =>
    rw [List.foldlM_cons]
    exact (each start item List.mem_cons_self).bind fun next _ =>
      ih (fun state other member => each state other (List.mem_cons_of_mem item member)) next

end

end TableLexer
