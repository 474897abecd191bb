import TableLexer.Proofs.Scanning.Attempt
import TableLexer.Proofs.Session.Ordered
import TableLexer.Proofs.Tables.Loading
import TableLexer.Proofs.Tables.Uniform

/-! What a failed call leaves behind. A call that is refused touches nothing. An attempt that ends
without a token puts the cursor back to the end of its last match and leaves the rest as it was,
the flag of the end of the input included: after a transition that clears the flag nothing is left
to read, so the call cannot fail any more. A fresh attempt therefore fails again in the same way. -/

set_option autoImplicit false

namespace TableLexer

variable {μ : Type}

theorem Trail.note_eq_self {trail : Trail} {mark : Option ActionId}
    (unmatched : (trail.note mark).lastAction = none) : trail.note mark = trail := by
  cases mark with
  | none => rfl
  | some action => cases unmatched

/-- The end of the input is the last of the symbols, and it is one of them only with the flag. -/
def Symbol.Closed (ended : Bool) (symbols : List Symbol) : Prop :=
  ∀ read rest, symbols = read ++ .endOfInput :: rest → ended = true ∧ rest = []

theorem Window.unread_closed (window : Window) : Symbol.Closed window.ended window.unread := by
  intro read rest ahead
  obtain ⟨flag, _⟩ := Window.unread_endOfInput ahead
  refine ⟨flag, ?_⟩
  rcases List.eq_nil_or_concat rest with nothing | ⟨others, symbol, rfl⟩
  · exact nothing
  · -- Otherwise the end of the input would stand among the bytes before the last symbol.
    rw [List.concat_eq_append, Window.unread, flag, if_pos rfl, ← List.cons_append,
      ← List.append_assoc] at ahead
    have bytes := (List.append_inj' ahead rfl).1
    have early : Symbol.endOfInput ∈ read ++ .endOfInput :: others :=
      List.mem_append_right read List.mem_cons_self
    rw [← bytes] at early
    obtain ⟨byte, _, same⟩ := List.mem_map.mp early
    cases same

theorem Symbol.Closed.tail {ended : Bool} {symbol : Symbol} {rest : List Symbol}
    (closed : Closed ended (symbol :: rest)) : Closed ended rest := fun read others ahead =>
  closed (symbol :: read) others (congrArg (symbol :: ·) ahead)

namespace Tables

variable {tables : Tables} {reaction : Reaction μ}

theorem proceed_nothing {signals : List Signal} (nothing : Signal.symbols signals = [])
    (state : Nat) (trail : Trail) (memory : μ) (error : LexError) :
    (tables.proceed reaction signals state trail memory).outcome ≠ .error error := by
  rw [(proceed_recognizes reaction signals state trail memory).1, nothing, recognize, List.map_nil]
  intro failed
  cases final : tables.final? state with
  | some action =>
    rw [proceed_final final] at failed
    cases failed
  | none =>
    rw [proceed_nil final] at failed
    cases failed

theorem proceed_failed (signals : List Signal) (state : Nat) (trail : Trail) (memory : μ)
    (closed : Symbol.Closed trail.ended (Signal.symbols signals)) {error : LexError}
    (failed : (tables.proceed reaction signals state trail memory).outcome = .error error) :
    trail.lastAction = none ∧ error = .emptyToken trail.last ∧
      (tables.proceed reaction signals state trail memory).trail = trail.backUp := by
  induction signals, state, trail, memory using tables.proceed_induction reaction with
  | final signals state trail memory action accepts =>
    rw [proceed_final accepts] at failed
    cases failed
  | dry state trail memory unfinished =>
    rw [proceed_nil unfinished] at failed
    cases failed
  | pause rest state trail memory unfinished ih =>
    rw [proceed_pause unfinished] at failed ⊢
    obtain ⟨unmatched, error_eq, left⟩ := ih (by rwa [Trail.note_ended]) failed
    have same := Trail.note_eq_self unmatched
    rw [left, same]
    rw [same] at unmatched error_eq
    exact ⟨unmatched, error_eq, rfl⟩
  | stuck symbol rest state trail memory unfinished stuck =>
    rw [proceed_stuck unfinished stuck] at failed ⊢
    cases chosen : (trail.note (tables.bookmark? state)).lastAction with
    | some action =>
      rw [Trail.deadEnd_some ((Trail.read_lastAction _ _).trans chosen)] at failed
      cases failed
    | none =>
      have same := Trail.note_eq_self chosen
      rw [Trail.deadEnd_none ((Trail.read_lastAction _ _).trans chosen), same] at failed ⊢
      rw [same] at chosen
      cases failed
      refine ⟨chosen, by rw [Trail.read_last], ?_⟩
      cases symbol with
      | byte value => rfl
      | endOfInput =>
        have flag : trail.ended = true := (closed [] _ rfl).1
        simp only [Trail.read, Trail.backUp, flag]
  | move symbol rest state target trail memory unfinished leads ih =>
    rw [proceed_move unfinished leads] at failed ⊢
    rw [Signal.symbols_symbol] at closed
    cases symbol with
    | endOfInput =>
      -- The flag is cleared here, and then there is no symbol left to fail on.
      exact absurd failed (proceed_nothing (closed [] _ rfl).2 _ _ _ error)
    | byte value =>
      have flag : ((trail.note (tables.bookmark? state)).pass (.byte value)).ended =
          trail.ended := Trail.note_ended _ _
      obtain ⟨unmatched, error_eq, left⟩ := ih (by rw [flag]; exact closed.tail) failed
      rw [Trail.pass_lastAction] at unmatched
      have same := Trail.note_eq_self unmatched
      rw [left, same]
      rw [same] at unmatched error_eq
      exact ⟨unmatched, error_eq, rfl⟩

theorem proceed_silent_memory (signals : List Signal) (state : Nat) (trail : Trail) (memory : μ) :
    (tables.proceed .silent signals state trail memory).memory = memory := by
  induction signals, state, trail, memory using tables.proceed_induction .silent with
  | final signals state trail memory action accepts =>
    rw [proceed_final accepts]
    rfl
  | dry state trail memory unfinished =>
    rw [proceed_nil unfinished, tagged_silent]
  | pause rest state trail memory unfinished ih =>
    rw [proceed_pause unfinished, ih, tagged_silent]
  | stuck symbol rest state trail memory unfinished stuck =>
    rw [proceed_stuck unfinished stuck, tagged_silent]
    rfl
  | move symbol rest state target trail memory unfinished leads ih =>
    rw [proceed_move unfinished leads, ih, tagged_silent]
    rfl

theorem runPlain_eq (valid : tables.Valid) (entry : Entry) (window : Window)
    (cells : Array Cell) :
    tables.runPlain entry window cells =
      .ok { outcome := (tables.answer entry window).1, window := (tables.answer entry window).2,
            memory := cells } := by
  obtain ⟨result, ran, answered⟩ := runPlain_answers valid entry window cells
  have kept : result.memory = cells := by
    unfold runPlain at ran
    by_cases inside : entry.state < tables.states
    · have called : tables.run .silent entry window cells = .ok
          ((tables.proceed .silent (window.unread.map .symbol) entry.state
            (entry.begun window).trail cells).result (entry.begun window)) :=
        (run_eq valid (Observer.silent_follows tables) entry inside trivial rfl).1
      rw [called] at ran
      cases ran
      exact proceed_silent_memory _ _ _ _
    · rw [run.eq_def, if_neg inside] at ran
      cases ran
      rfl
  rw [ran, ← answered, ← kept]

theorem answer_failed (entry : Entry) (inside : entry.state < tables.states) (window : Window)
    {error : LexError} (failed : (tables.answer entry window).1 = .error error) :
    (entry.begun window).lastAction = none ∧ error = .emptyToken (entry.begun window).last ∧
      (tables.answer entry window).2 = (entry.begun window).backUp := by
  rw [answer, if_pos inside] at failed ⊢
  have unread : (entry.begun window).unread = window.unread := by cases entry <;> rfl
  have closed := (entry.begun window).unread_closed
  rw [unread, ← Signal.symbols_map window.unread] at closed
  obtain ⟨unmatched, error_eq, left⟩ := proceed_failed _ _ _ _ closed failed
  exact ⟨unmatched, error_eq, congrArg (entry.begun window).withTrail left⟩

/-- A fresh attempt that fails stands where it began, so another one does the same. -/
theorem answer_again {state : Nat} (inside : state < tables.states) (window : Window)
    {error : LexError} (failed : (tables.answer (.fresh state) window).1 = .error error) :
    tables.answer (.fresh state) (tables.answer (.fresh state) window).2 =
      tables.answer (.fresh state) window := by
  have begun : (tables.answer (.fresh state) window).2 = window.beginAttempt :=
    (answer_failed (.fresh state) inside window failed).2.2
  have inside' : (Entry.fresh state).state < tables.states := inside
  rw [begun, answer, answer, if_pos inside', if_pos inside']
  rfl

end Tables

/-- The window after an attempt without a token, with the cursor at `offset`: the input, the flag
and the locations are as before. -/
structure Window.Rewound (before : Window) (offset : Nat) (after : Window) : Prop where
  sameInput : before.SameInput after
  ended : after.ended = before.ended
  lastAction : after.lastAction = none
  curr : after.curr = offset
  last : after.last = offset

def Session.Spared (session : Session) (result : Result (Array Cell)) : LexError → Prop
  | .emptyToken offset => session.window.Rewound offset result.window
  | .invalidState _ => result.window = session.window ∧ result.memory = session.cells
  | .missingCaptures => result.window = session.window ∧ result.memory = session.cells

def Session.refused (session : Session) (error : LexError) : Result (Array Cell) where
  outcome := .error error
  window := session.window
  memory := session.cells

theorem Entry.begun_rewound (entry : Entry) (window : Window)
    (unmatched : (entry.begun window).lastAction = none) :
    window.Rewound (entry.begun window).last (entry.begun window).backUp := by
  cases entry with
  | fresh state => exact ⟨⟨rfl, rfl, rfl, rfl, rfl⟩, rfl, rfl, rfl, rfl⟩
  | resume state => exact ⟨⟨rfl, rfl, rfl, rfl, rfl⟩, rfl, unmatched, rfl, rfl⟩

namespace Scanner

section

variable {scanner : Scanner} {observer : Observer (Array Cell)}
  {reaction : Reaction (Array Cell)} {ready : Array Cell → Prop}
  (steady : scanner.Steady observer reaction ready)

include steady

theorem Steady.call_answers (entry : Entry) (session : Session) :
    ∃ result, scanner.call entry session = .ok result ∧
      (result.outcome, result.window) = scanner.tables.answer entry session.window := by
  rw [steady.call]
  exact Tables.run_answers steady.valid steady.follows entry session.window session.cells

theorem Steady.call_unknown {entry : Entry} (outside : ¬ entry.state < scanner.tables.states)
    (session : Session) :
    scanner.call entry session = .ok (session.refused (.invalidState entry)) := by
  rw [steady.call, Tables.run.eq_def, if_neg outside]
  rfl

end

variable {tables : Tables}

theorem steady_or_missing (valid : tables.Valid) (capturing : Bool) :
    (∃ observer reaction ready,
      Scanner.Steady { tables, capturing } observer reaction ready) ∨
    ∀ entry session,
      Scanner.call { tables, capturing } entry session = .ok (session.refused .missingCaptures) := by
  cases capturing with
  | false => exact .inl ⟨_, _, _, plain_steady valid⟩
  | true =>
    cases carried : tables.captures with
    | none =>
      refine .inr fun entry session => ?_
      simp only [call, if_true, Tables.runCapturing, carried]
      rfl
    | some captures =>
      have scanner : ({ tables, capturing := true } : Scanner) = .ofTables tables := by
        rw [Scanner.ofTables, carried]
        rfl
      exact .inl ⟨_, _, _, scanner ▸ capturing_steady valid carried⟩

/-- Failed calls do no harm. A call that is refused leaves the session as it was. One that finds no
token leaves the input, the flag and the locations, forgets any match and reports where it puts the
cursor. After a fresh one, a plain call in the same state does the same again and changes nothing,
and the same call does the same again to anything but the cells. -/
theorem failed_call_spares (loaded : tables.Loaded) (capturing : Bool) (code : Int)
    (session : Session) :
    ∃ result, Scanner.call { tables, capturing } (.ofCode code) session = .ok result ∧
      ∀ error, result.outcome = .error error → session.Spared result error ∧
        ∀ offset, error = .emptyToken offset → 0 ≤ code →
          tables.runPlain (.ofCode code) result.window result.memory = .ok result ∧
          ∃ again, Scanner.call { tables, capturing } (.ofCode code)
              { window := result.window, cells := result.memory } = .ok again ∧
            again.outcome = result.outcome ∧ again.window = result.window := by
  rcases steady_or_missing loaded.valid capturing with ⟨_, _, _, steady⟩ | missing
  · by_cases inside : (Entry.ofCode code).state < tables.states
    · obtain ⟨result, called, answered⟩ := steady.call_answers (.ofCode code) session
      refine ⟨result, called, ?_⟩
      intro error failed
      have outcome : (tables.answer (.ofCode code) session.window).1 = .error error := by
        rw [← answered]
        exact failed
      have left : (tables.answer (.ofCode code) session.window).2 = result.window := by
        rw [← answered]
      obtain ⟨unmatched, rfl, rewound⟩ := Tables.answer_failed _ inside _ outcome
      rw [left] at rewound
      refine ⟨?_, ?_⟩
      · rw [Session.Spared, rewound]
        exact Entry.begun_rewound _ _ unmatched
      · intro _ _ nonneg
        -- The call was fresh, so the window it leaves has the same answer.
        obtain ⟨state, rfl⟩ := Int.eq_ofNat_of_zero_le nonneg
        have repeated : tables.answer (.ofCode state) result.window =
            (result.outcome, result.window) := by
          rw [answered, ← left]
          exact Tables.answer_again inside session.window outcome
        refine ⟨by rw [Tables.runPlain_eq loaded.valid, repeated], ?_⟩
        obtain ⟨again, called', answered'⟩ := steady.call_answers (.ofCode state)
          { window := result.window, cells := result.memory }
        exact ⟨again, called', Prod.mk.inj (answered'.trans repeated)⟩
    · refine ⟨_, steady.call_unknown inside session, ?_⟩
      intro error failed
      cases failed
      exact ⟨⟨rfl, rfl⟩, nofun⟩
  · refine ⟨_, missing (.ofCode code) session, ?_⟩
    intro error failed
    cases failed
    exact ⟨⟨rfl, rfl⟩, nofun⟩

/-- In the last state of a chain no symbol leads on, and the chain carries no captures. -/
theorem chainTables_spare :
    chainTables.Loaded ∧ ∃ result,
      Scanner.call { tables := chainTables, capturing := false } (.ofCode 2) (.ofBytes [97]) =
        .ok result ∧
      (Session.ofBytes [97]).window.Rewound 0 result.window ∧
      chainTables.runPlain (.ofCode 2) result.window result.memory = .ok result ∧
      ∃ refused,
        Scanner.call { tables := chainTables, capturing := true } (.ofCode 2) (.ofBytes [97]) =
          .ok refused ∧
        refused.window = (Session.ofBytes [97]).window := by
  have loaded : chainTables.Loaded := .ofParts chainTables_accepted
  obtain ⟨result, called, spared⟩ := failed_call_spares loaded false 2 (.ofBytes [97])
  obtain ⟨refused, called', spared'⟩ := failed_call_spares loaded true 2 (.ofBytes [97])
  have failed : (Scanner.call { tables := chainTables, capturing := false } (.ofCode 2)
      (.ofBytes [97])).toOption.map Result.outcome = some (.error (.emptyToken 0)) := by
    decide +kernel
  have failed' : (Scanner.call { tables := chainTables, capturing := true } (.ofCode 2)
      (.ofBytes [97])).toOption.map Result.outcome = some (.error .missingCaptures) := by
    decide +kernel
  rw [called] at failed
  rw [called'] at failed'
  obtain ⟨rewound, again⟩ := spared _ (Option.some.inj failed)
  exact ⟨loaded, result, called, rewound, (again 0 rfl (by decide)).1, refused, called',
    (spared' _ (Option.some.inj failed')).1.1⟩

end Scanner

end TableLexer
