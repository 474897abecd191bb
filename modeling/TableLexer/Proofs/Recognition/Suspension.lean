import TableLexer.Proofs.Recognition.Progress

/-! What suspending an attempt changes. An attempt cut by a pause goes on in the state where it
stopped. What it recognizes depends on neither pauses nor the observer; only the memory does, for
the tag of the state at a pause is run once more. -/

set_option autoImplicit false

namespace TableLexer

variable {μ : Type}

def Signal.symbol? : Signal → Option Symbol
  | .symbol value => some value
  | .pause => none

def Signal.symbols (signals : List Signal) : List Symbol :=
  signals.filterMap symbol?

namespace Signal

@[simp] theorem symbols_nil : symbols [] = [] := rfl

@[simp] theorem symbols_symbol (value : Symbol) (rest : List Signal) :
    symbols (.symbol value :: rest) = value :: symbols rest := rfl

@[simp] theorem symbols_pause (rest : List Signal) :
    symbols (.pause :: rest) = symbols rest := rfl

@[simp] theorem symbols_append (first rest : List Signal) :
    symbols (first ++ rest) = symbols first ++ symbols rest :=
  List.filterMap_append

@[simp] theorem symbols_map (values : List Symbol) : symbols (values.map .symbol) = values := by
  rw [symbols, List.filterMap_map]
  exact List.filterMap_some

end Signal

namespace Tables

variable {tables : Tables} {reaction : Reaction μ}

/-- The cases of an attempt: its state accepts, or the state is open and the attempt runs dry,
pauses, finds no successor or moves on. -/
theorem proceed_induction (tables : Tables) (reaction : Reaction μ)
    {motive : List Signal → Nat → Trail → μ → Prop}
    (final : ∀ signals state trail memory action, tables.final? state = some action →
      motive signals state trail memory)
    (dry : ∀ state trail memory, tables.final? state = none → motive [] state trail memory)
    (pause : ∀ rest state trail memory, tables.final? state = none →
      motive rest state (trail.note (tables.bookmark? state))
        (tables.tagged reaction state memory) →
      motive (.pause :: rest) state trail memory)
    (stuck : ∀ symbol rest state trail memory, tables.final? state = none →
      tables.successor? state symbol = none → motive (.symbol symbol :: rest) state trail memory)
    (move : ∀ symbol rest state target trail memory, tables.final? state = none →
      tables.successor? state symbol = some target →
      motive rest target ((trail.note (tables.bookmark? state)).pass symbol)
        (reaction.move state symbol (trail.curr + symbol.width)
          (tables.tagged reaction state memory)) →
      motive (.symbol symbol :: rest) state trail memory)
    (signals : List Signal) (state : Nat) (trail : Trail) (memory : μ) :
    motive signals state trail memory := by
  induction signals generalizing state trail memory with
  | nil =>
    cases accepts : tables.final? state with
    | some action => exact final [] state trail memory action accepts
    | none => exact dry state trail memory accepts
  | cons signal rest ih =>
    cases accepts : tables.final? state with
    | some action => exact final (signal :: rest) state trail memory action accepts
    | none =>
      cases signal with
      | pause => exact pause rest state trail memory accepts (ih _ _ _)
      | symbol symbol =>
        cases leads : tables.successor? state symbol with
        | none => exact stuck symbol rest state trail memory accepts leads
        | some target =>
          exact move symbol rest state target trail memory accepts leads (ih _ _ _)

/-- Recognition alone: an attempt on symbols without pauses, and with nothing to remember. -/
def recognize (tables : Tables) (symbols : List Symbol) (state : Nat) (trail : Trail) :
    Progress Unit :=
  tables.proceed .silent (symbols.map .symbol) state trail ()

/-- Running the tag of a backtrack point a second time changes nothing. -/
def TagsSettle (tables : Tables) (reaction : Reaction μ) : Prop :=
  ∀ state memory, tables.tagged reaction state (tables.tagged reaction state memory) =
    tables.tagged reaction state memory

theorem tagsSettle_silent : tables.TagsSettle (Reaction.silent : Reaction μ) := by
  intro state memory
  simp only [tagged_silent]

theorem proceed_note (settle : tables.TagsSettle reaction) (symbols : List Symbol) {state : Nat}
    (trail : Trail) (memory : μ) (unfinished : tables.final? state = none) :
    tables.proceed reaction (symbols.map .symbol) state (trail.note (tables.bookmark? state))
        (tables.tagged reaction state memory) =
      tables.proceed reaction (symbols.map .symbol) state trail memory := by
  cases symbols with
  | nil =>
    rw [List.map_nil, proceed_nil unfinished, proceed_nil unfinished, Trail.note_note, settle]
  | cons symbol rest =>
    simp only [List.map_cons, proceed, arrive_open unfinished, Trail.note_note, settle state memory]

theorem proceed_symbols (settle : tables.TagsSettle reaction) (signals : List Signal) (state : Nat)
    (trail : Trail) (memory : μ) :
    tables.proceed reaction signals state trail memory =
      tables.proceed reaction ((Signal.symbols signals).map .symbol) state trail memory := by
  induction signals, state, trail, memory using tables.proceed_induction reaction with
  | final signals state trail memory action accepts =>
    rw [proceed_final accepts, proceed_final accepts]
  | dry state trail memory unfinished =>
    rw [Signal.symbols_nil, List.map_nil]
  | pause rest state trail memory unfinished ih =>
    -- After the pause the same state is entered with its bookmark and its tag taken already.
    rw [proceed_pause unfinished, Signal.symbols_pause, ih]
    exact proceed_note settle _ trail memory unfinished
  | stuck symbol rest state trail memory unfinished stuck =>
    rw [Signal.symbols_symbol, List.map_cons, proceed_stuck unfinished stuck,
      proceed_stuck unfinished stuck]
  | move symbol rest state target trail memory unfinished leads ih =>
    rw [Signal.symbols_symbol, List.map_cons, proceed_move unfinished leads,
      proceed_move unfinished leads]
    exact ih

theorem proceed_recognizes (reaction : Reaction μ) (signals : List Signal) (state : Nat)
    (trail : Trail) (memory : μ) :
    (tables.proceed reaction signals state trail memory).outcome =
        (tables.recognize (Signal.symbols signals) state trail).outcome ∧
      (tables.proceed reaction signals state trail memory).trail =
        (tables.recognize (Signal.symbols signals) state trail).trail := by
  induction signals, state, trail, memory using tables.proceed_induction reaction with
  | final signals state trail memory action accepts =>
    rw [recognize, proceed_final accepts, proceed_final accepts]
    exact ⟨rfl, rfl⟩
  | dry state trail memory unfinished =>
    rw [Signal.symbols_nil, recognize, List.map_nil, proceed_nil unfinished, proceed_nil unfinished]
    exact ⟨rfl, rfl⟩
  | pause rest state trail memory unfinished ih =>
    rw [proceed_pause unfinished, Signal.symbols_pause]
    rw [recognize, ← proceed_note tagsSettle_silent _ trail () unfinished]
    exact ih
  | stuck symbol rest state trail memory unfinished stuck =>
    rw [Signal.symbols_symbol, recognize, List.map_cons, proceed_stuck unfinished stuck,
      proceed_stuck unfinished stuck]
    exact ⟨rfl, rfl⟩
  | move symbol rest state target trail memory unfinished leads ih =>
    rw [Signal.symbols_symbol, recognize, List.map_cons, proceed_move unfinished leads,
      proceed_move unfinished leads]
    exact ih

theorem recognize_symbols (signals : List Signal) (state : Nat) (trail : Trail) :
    tables.recognize (Signal.symbols signals) state trail =
      tables.proceed .silent signals state trail () :=
  (proceed_symbols tagsSettle_silent signals state trail ()).symm

theorem proceed_append_decided (signals more : List Signal) (state : Nat) (trail : Trail)
    (memory : μ) (decided : ∀ stopped,
      (tables.proceed reaction signals state trail memory).outcome ≠ .ok (.refill stopped)) :
    tables.proceed reaction (signals ++ more) state trail memory =
      tables.proceed reaction signals state trail memory := by
  induction signals, state, trail, memory using tables.proceed_induction reaction with
  | final signals state trail memory action accepts =>
    rw [proceed_final accepts, proceed_final accepts]
  | dry state trail memory unfinished =>
    rw [proceed_nil unfinished] at decided
    exact absurd rfl (decided state)
  | pause rest state trail memory unfinished ih =>
    rw [proceed_pause unfinished] at decided
    rw [List.cons_append, proceed_pause unfinished, proceed_pause unfinished]
    exact ih decided
  | stuck symbol rest state trail memory unfinished stuck =>
    rw [List.cons_append, proceed_stuck unfinished stuck, proceed_stuck unfinished stuck]
  | move symbol rest state target trail memory unfinished leads ih =>
    rw [proceed_move unfinished leads] at decided
    rw [List.cons_append, proceed_move unfinished leads, proceed_move unfinished leads]
    exact ih decided

/-- A suspended attempt goes on after a pause in the state where it stopped. -/
theorem proceed_append_suspended (signals more : List Signal) (state : Nat) (trail : Trail)
    (memory : μ) {stopped : Nat}
    (suspended : (tables.proceed reaction signals state trail memory).outcome =
      .ok (.refill stopped)) :
    tables.proceed reaction (signals ++ .pause :: more) state trail memory =
      tables.proceed reaction more stopped
        (tables.proceed reaction signals state trail memory).trail
        (tables.proceed reaction signals state trail memory).memory := by
  induction signals, state, trail, memory using tables.proceed_induction reaction with
  | final signals state trail memory action accepts =>
    rw [proceed_final accepts] at suspended
    cases suspended
  | dry state trail memory unfinished =>
    rw [proceed_nil unfinished] at suspended ⊢
    cases suspended
    exact proceed_pause unfinished more
  | pause rest state trail memory unfinished ih =>
    rw [proceed_pause unfinished] at suspended ⊢
    rw [List.cons_append, proceed_pause unfinished]
    exact ih suspended
  | stuck symbol rest state trail memory unfinished stuck =>
    rw [proceed_stuck unfinished stuck] at suspended
    exact absurd suspended (Trail.deadEnd_ne_refill _ _ stopped)
  | move symbol rest state target trail memory unfinished leads ih =>
    rw [proceed_move unfinished leads] at suspended ⊢
    rw [List.cons_append, proceed_move unfinished leads]
    exact ih suspended

theorem recognize_append_decided {first : List Symbol} (more : List Symbol) {state : Nat}
    {trail : Trail} (decided : ∀ stopped,
      (tables.recognize first state trail).outcome ≠ .ok (.refill stopped)) :
    tables.recognize (first ++ more) state trail = tables.recognize first state trail := by
  rw [recognize, List.map_append, proceed_append_decided _ _ _ _ _ decided]
  rfl

theorem recognize_append_suspended {first : List Symbol} (more : List Symbol) {state : Nat}
    {trail : Trail} {stopped : Nat}
    (suspended : (tables.recognize first state trail).outcome = .ok (.refill stopped)) :
    tables.recognize (first ++ more) state trail =
      tables.recognize more stopped (tables.recognize first state trail).trail := by
  -- Without an observer a pause between the two parts goes unnoticed.
  have paused := tables.recognize_symbols (first.map .symbol ++ .pause :: more.map .symbol) state
    trail
  rw [Signal.symbols_append, Signal.symbols_pause, Signal.symbols_map, Signal.symbols_map] at paused
  rw [paused, proceed_append_suspended _ _ _ _ _ suspended]
  rfl

theorem proceed_stopped (valid : tables.Valid) (signals : List Signal) {state : Nat}
    (trail : Trail) (memory : μ) (inside : state < tables.states) {stopped : Nat}
    (suspended : (tables.proceed reaction signals state trail memory).outcome =
      .ok (.refill stopped)) :
    stopped < tables.states ∧ tables.final? stopped = none := by
  induction signals, state, trail, memory using tables.proceed_induction reaction with
  | final signals state trail memory action accepts =>
    rw [proceed_final accepts] at suspended
    cases suspended
  | dry state trail memory unfinished =>
    rw [proceed_nil unfinished] at suspended
    cases suspended
    exact ⟨inside, unfinished⟩
  | pause rest state trail memory unfinished ih =>
    rw [proceed_pause unfinished] at suspended
    exact ih inside suspended
  | stuck symbol rest state trail memory unfinished stuck =>
    rw [proceed_stuck unfinished stuck] at suspended
    exact absurd suspended (Trail.deadEnd_ne_refill _ _ stopped)
  | move symbol rest state target trail memory unfinished leads ih =>
    rw [proceed_move unfinished leads] at suspended
    exact ih (valid.successor?_lt inside unfinished leads) suspended

end Tables

end TableLexer
