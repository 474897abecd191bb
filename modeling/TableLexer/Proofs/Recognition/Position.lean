import TableLexer.Proofs.Recognition.Suspension

/-! Where an attempt takes place. Its positions stay within what it has read, and an attempt that
begins elsewhere, or with the flag of the end of the input set, does the same there. -/

set_option autoImplicit false

namespace TableLexer

variable {μ : Type}

def Trail.shift (distance : Nat) (trail : Trail) : Trail :=
  { trail with curr := trail.curr + distance, last := trail.last + distance }

def LexError.shift (distance : Nat) : LexError → LexError
  | .emptyToken offset => .emptyToken (offset + distance)
  | .invalidState entry => .invalidState entry
  | .missingCaptures => .missingCaptures

/-- The same progress further on; `carry` does this to the memory. -/
def Progress.shift (distance : Nat) (carry : μ → μ) (progress : Progress μ) : Progress μ where
  outcome := progress.outcome.mapError (.shift distance)
  trail := progress.trail.shift distance
  memory := carry progress.memory

/-- The reaction does not depend on where the attempt takes place. -/
structure Reaction.Shifts (reaction : Reaction μ) (distance : Nat) (carry : μ → μ) : Prop where
  tag : ∀ point state memory,
    reaction.tag point state (carry memory) = carry (reaction.tag point state memory)
  move : ∀ state symbol position memory,
    reaction.move state symbol (position + distance) (carry memory) =
      carry (reaction.move state symbol position memory)

theorem Reaction.silent_shifts (distance : Nat) :
    (Reaction.silent : Reaction μ).Shifts distance id where
  tag _ _ _ := rfl
  move _ _ _ _ := rfl

theorem CaptureTables.reaction_shifts (captures : CaptureTables) (distance : Nat) :
    captures.reaction.Shifts distance (shiftCells distance) where
  tag point state cells := applyProgram_shift (captures.tag? point state) distance none cells
  move state symbol position cells :=
    applyProgram_shift (captures.record? state symbol) distance (some position) cells

namespace Trail

variable (trail : Trail) (distance : Nat)

theorem start_shift (curr : Nat) (ended : Bool) :
    (start curr ended).shift distance = start (curr + distance) ended := rfl

theorem note_shift (mark : Option ActionId) :
    (trail.shift distance).note mark = (trail.note mark).shift distance := by
  cases mark <;> rfl

theorem read_shift (symbol : Symbol) :
    (trail.shift distance).read symbol = (trail.read symbol).shift distance := by
  cases symbol with
  | byte value => simp only [read, shift, Nat.add_right_comm]
  | endOfInput => rfl

theorem pass_shift (symbol : Symbol) :
    (trail.shift distance).pass symbol = (trail.pass symbol).shift distance := by
  rw [pass, pass, read_shift]
  cases symbol <;> rfl

theorem deadEnd_shift (memory : μ) (carry : μ → μ) :
    (trail.shift distance).deadEnd (carry memory) =
      (trail.deadEnd memory).shift distance carry := by
  cases chosen : trail.lastAction with
  | none =>
    rw [deadEnd_none chosen,
      deadEnd_none (show (trail.shift distance).lastAction = none from chosen)]
    rfl
  | some action =>
    rw [deadEnd_some chosen,
      deadEnd_some (show (trail.shift distance).lastAction = some action from chosen)]
    rfl

end Trail

namespace Tables

variable {tables : Tables} {reaction : Reaction μ}

theorem proceed_shift {distance : Nat} {carry : μ → μ} (shifts : reaction.Shifts distance carry)
    (signals : List Signal) (state : Nat) (trail : Trail) (memory : μ) :
    tables.proceed reaction signals state (trail.shift distance) (carry memory) =
      (tables.proceed reaction signals state trail memory).shift distance carry := by
  have tagged (state : Nat) (memory : μ) :
      tables.tagged reaction state (carry memory) =
        carry (tables.tagged reaction state memory) := by
    unfold Tables.tagged
    split
    · exact shifts.tag .backtrack state memory
    · rfl
  induction signals, state, trail, memory using tables.proceed_induction reaction with
  | final signals state trail memory action accepts =>
    rw [proceed_final accepts, proceed_final accepts, shifts.tag]
    rfl
  | dry state trail memory unfinished =>
    rw [proceed_nil unfinished, proceed_nil unfinished, tagged, Trail.note_shift]
    rfl
  | pause rest state trail memory unfinished ih =>
    rw [proceed_pause unfinished, proceed_pause unfinished, tagged, Trail.note_shift]
    exact ih
  | stuck symbol rest state trail memory unfinished stuck =>
    rw [proceed_stuck unfinished stuck, proceed_stuck unfinished stuck, tagged, Trail.note_shift,
      Trail.read_shift, Trail.deadEnd_shift]
  | move symbol rest state target trail memory unfinished leads ih =>
    have position : (trail.shift distance).curr + symbol.width =
        trail.curr + symbol.width + distance := Nat.add_right_comm _ _ _
    rw [proceed_move unfinished leads, proceed_move unfinished leads, tagged, Trail.note_shift,
      Trail.pass_shift, position, shifts.move]
    exact ih

/-- Apart from the flag itself, nothing depends on whether the end of the input was reached
before. -/
theorem proceed_ended (reaction : Reaction μ) (signals : List Signal) (state : Nat) (trail : Trail)
    (memory : μ) (ended : Bool) :
    ∃ ended', tables.proceed reaction signals state { trail with ended } memory =
      { tables.proceed reaction signals state trail memory with
        trail := { (tables.proceed reaction signals state trail memory).trail with
          ended := ended' } } := by
  induction signals, state, trail, memory using tables.proceed_induction reaction
    generalizing ended with
  | final signals state trail memory action accepts =>
    rw [proceed_final accepts, proceed_final accepts]
    exact ⟨ended, rfl⟩
  | dry state trail memory unfinished =>
    rw [proceed_nil unfinished, proceed_nil unfinished, Trail.note_withEnded]
    exact ⟨ended, rfl⟩
  | pause rest state trail memory unfinished ih =>
    rw [proceed_pause unfinished, proceed_pause unfinished, Trail.note_withEnded]
    exact ih ended
  | stuck symbol rest state trail memory unfinished stuck =>
    rw [proceed_stuck unfinished stuck, proceed_stuck unfinished stuck, Trail.note_withEnded]
    cases symbol with
    | byte value => exact ⟨ended, rfl⟩
    | endOfInput => exact ⟨true, rfl⟩
  | move symbol rest state target trail memory unfinished leads ih =>
    rw [proceed_move unfinished leads, proceed_move unfinished leads, Trail.note_withEnded]
    cases symbol with
    | byte value => exact ih ended
    | endOfInput => exact ih false

theorem proceed_bounds (reaction : Reaction μ) (signals : List Signal) (state : Nat) (trail : Trail)
    (memory : μ) (ordered : trail.last ≤ trail.curr) :
    let progress := tables.proceed reaction signals state trail memory
    trail.last ≤ progress.trail.last ∧ progress.trail.last ≤ progress.trail.curr ∧
      progress.trail.curr ≤ trail.curr + Symbol.room (Signal.symbols signals) := by
  induction signals, state, trail, memory using tables.proceed_induction reaction with
  | final signals state trail memory action accepts =>
    rw [proceed_final accepts]
    exact ⟨Nat.le_refl _, ordered, Nat.le_add_right _ _⟩
  | dry state trail memory unfinished =>
    rw [proceed_nil unfinished]
    have noted := trail.le_note_last (tables.bookmark? state) ordered
    refine ⟨noted.1, noted.2, ?_⟩
    exact Nat.le_of_eq (Trail.note_curr _ _)
  | pause rest state trail memory unfinished ih =>
    have noted := trail.le_note_last (tables.bookmark? state) ordered
    rw [proceed_pause unfinished]
    obtain ⟨low, middle, high⟩ := ih noted.2
    exact ⟨Nat.le_trans noted.1 low, middle, by simpa using high⟩
  | stuck symbol rest state trail memory unfinished stuck =>
    have noted := trail.le_note_last (tables.bookmark? state) ordered
    rw [proceed_stuck unfinished stuck]
    -- A dead end puts the cursor back to the end of the last match.
    change trail.last ≤ (Trail.read _ symbol).last ∧
      (Trail.read _ symbol).last ≤ (Trail.read _ symbol).last ∧ (Trail.read _ symbol).last ≤ _
    simp only [Trail.read_last, Trail.note_curr] at noted ⊢
    omega
  | move symbol rest state target trail memory unfinished leads ih =>
    have noted := trail.le_note_last (tables.bookmark? state) ordered
    rw [proceed_move unfinished leads]
    simp only [Trail.pass_last, Trail.pass_curr, Trail.note_curr, Signal.symbols_symbol,
      Symbol.room_cons] at ih noted ⊢
    obtain ⟨low, middle, high⟩ := ih (by omega)
    omega

theorem proceed_keeps {kept : μ → Prop} (low high : Nat)
    (tag : ∀ point state memory, kept memory → kept (reaction.tag point state memory))
    (move : ∀ state symbol position memory, low < position → position ≤ high → kept memory →
      kept (reaction.move state symbol position memory))
    (signals : List Signal) (state : Nat) (trail : Trail) (memory : μ)
    (beyond : ∀ symbol rest, Signal.symbols signals = symbol :: rest →
      low < trail.curr + symbol.width)
    (within : trail.curr + Symbol.room (Signal.symbols signals) ≤ high) (holds : kept memory) :
    kept (tables.proceed reaction signals state trail memory).memory := by
  have tagged (state : Nat) {memory : μ} (holds : kept memory) :
      kept (tables.tagged reaction state memory) :=
    tagged_keeps (tag .backtrack state memory) holds
  induction signals, state, trail, memory using tables.proceed_induction reaction with
  | final signals state trail memory action accepts =>
    rw [proceed_final accepts]
    exact tag .accept state memory holds
  | dry state trail memory unfinished =>
    rw [proceed_nil unfinished]
    exact tagged state holds
  | pause rest state trail memory unfinished ih =>
    -- A pause reads nothing, so the places still to come are the same.
    rw [proceed_pause unfinished]
    rw [Signal.symbols_pause] at beyond within
    refine ih ?_ ?_ (tagged state holds)
    · rwa [Trail.note_curr]
    · rwa [Trail.note_curr]
  | stuck symbol rest state trail memory unfinished stuck =>
    rw [proceed_stuck unfinished stuck]
    exact tagged state holds
  | move symbol rest state target trail memory unfinished leads ih =>
    have passed : low < trail.curr + symbol.width := beyond symbol _ rfl
    rw [Signal.symbols_symbol, Symbol.room_cons] at within
    rw [proceed_move unfinished leads]
    refine ih ?_ ?_ (move state symbol _ _ passed (by omega) (tagged state holds))
    · intro next later ahead
      rw [Trail.pass_curr, Trail.note_curr]
      omega
    · rw [Trail.pass_curr, Trail.note_curr]
      omega

theorem proceed_flag (reaction : Reaction μ) (signals : List Signal) (state : Nat) (trail : Trail)
    (memory : μ)
    (flagged : (tables.proceed reaction signals state trail memory).trail.ended = true) :
    trail.ended = true ∨ .endOfInput ∈ Signal.symbols signals := by
  induction signals, state, trail, memory using tables.proceed_induction reaction with
  | final signals state trail memory action accepts =>
    rw [proceed_final accepts] at flagged
    exact .inl flagged
  | dry state trail memory unfinished =>
    rw [proceed_nil unfinished] at flagged
    exact .inl ((Trail.note_ended _ _).symm.trans flagged)
  | pause rest state trail memory unfinished ih =>
    rw [proceed_pause unfinished] at flagged
    have earlier := ih flagged
    rw [Trail.note_ended] at earlier
    exact earlier
  | stuck symbol rest state trail memory unfinished stuck =>
    rw [proceed_stuck unfinished stuck] at flagged
    cases symbol with
    | byte value => exact .inl ((Trail.note_ended _ _).symm.trans flagged)
    | endOfInput => exact .inr List.mem_cons_self
  | move symbol rest state target trail memory unfinished leads ih =>
    rw [proceed_move unfinished leads] at flagged
    rw [Signal.symbols_symbol, List.mem_cons]
    rcases ih flagged with before | later
    · rw [Trail.pass_ended, Trail.note_ended, Bool.and_eq_true] at before
      exact .inl before.1
    · exact .inr (.inr later)

theorem proceed_error (reaction : Reaction μ) (signals : List Signal) (state : Nat) (trail : Trail)
    (memory : μ) {origin : Nat} (unmatched : trail.lastAction = none → trail.last = origin)
    {error : LexError}
    (failed : (tables.proceed reaction signals state trail memory).outcome = .error error) :
    error = .emptyToken origin := by
  induction signals, state, trail, memory using tables.proceed_induction reaction with
  | final signals state trail memory action accepts =>
    rw [proceed_final accepts] at failed
    cases failed
  | dry state trail memory unfinished =>
    rw [proceed_nil unfinished] at failed
    cases failed
  | pause rest state trail memory unfinished ih =>
    rw [proceed_pause unfinished] at failed
    exact ih (trail.note_unmatched unmatched _) failed
  | stuck symbol rest state trail memory unfinished stuck =>
    have unmatched' := trail.note_unmatched unmatched (tables.bookmark? state)
    rw [proceed_stuck unfinished stuck] at failed
    -- Only without a match does the attempt fail, and then it stands where it began.
    cases chosen : (trail.note (tables.bookmark? state)).lastAction with
    | some action =>
      rw [Trail.deadEnd_some ((Trail.read_lastAction _ _).trans chosen)] at failed
      cases failed
    | none =>
      rw [Trail.deadEnd_none ((Trail.read_lastAction _ _).trans chosen), Trail.read_last,
        unmatched' chosen] at failed
      cases failed
      rfl
  | move symbol rest state target trail memory unfinished leads ih =>
    rw [proceed_move unfinished leads] at failed
    refine ih ?_ failed
    rw [Trail.pass_lastAction, Trail.pass_last]
    exact trail.note_unmatched unmatched _

theorem proceed_unmatched (reaction : Reaction μ) (signals : List Signal) (state : Nat)
    (trail : Trail) (memory : μ) {origin : Nat}
    (unmatched : trail.lastAction = none → trail.last = origin) :
    let progress := tables.proceed reaction signals state trail memory
    progress.trail.lastAction = none → progress.trail.last = origin := by
  induction signals, state, trail, memory using tables.proceed_induction reaction with
  | final signals state trail memory action accepts =>
    rw [proceed_final accepts]
    exact unmatched
  | dry state trail memory unfinished =>
    rw [proceed_nil unfinished]
    exact trail.note_unmatched unmatched _
  | pause rest state trail memory unfinished ih =>
    rw [proceed_pause unfinished]
    exact ih (trail.note_unmatched unmatched _)
  | stuck symbol rest state trail memory unfinished stuck =>
    rw [proceed_stuck unfinished stuck]
    change (Trail.read _ symbol).lastAction = none → (Trail.read _ symbol).last = origin
    rw [Trail.read_lastAction, Trail.read_last]
    exact trail.note_unmatched unmatched _
  | move symbol rest state target trail memory unfinished leads ih =>
    rw [proceed_move unfinished leads]
    refine ih ?_
    rw [Trail.pass_lastAction, Trail.pass_last]
    exact trail.note_unmatched unmatched _

end Tables

end TableLexer
