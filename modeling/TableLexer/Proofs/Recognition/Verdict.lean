import TableLexer.Proofs.Recognition.EndOfInput

/-! What the automaton makes of bytes that are followed by the end of the input. The verdict depends
on the bytes alone: not on where they stand, not on the pauses between them, not on how often the
end of the input is read once that is often enough, and not on what is remembered. -/

set_option autoImplicit false

namespace TableLexer

variable {μ : Type}

inductive Verdict where
  | lexeme (action : ActionId) (length : Nat)
  | stuck
  | endless
  deriving DecidableEq, Repr

def Progress.verdict (progress : Progress μ) : Verdict :=
  match progress.outcome with
  | .ok (.action action) => .lexeme action progress.trail.curr
  | .ok (.refill _) => .endless
  | .error _ => .stuck

/-- Bytes, and then the end of the input over and over. -/
def Symbol.input (bytes : List UInt8) (rounds : Nat) : List Symbol :=
  bytes.map .byte ++ List.replicate rounds .endOfInput

theorem Symbol.room_input (bytes : List UInt8) (rounds : Nat) :
    room (input bytes rounds) = bytes.length := by
  have bytes_room : room (bytes.map .byte) = bytes.length := by
    induction bytes with
    | nil => rfl
    | cons byte bytes ih =>
      rw [List.map_cons, room_cons, ih, List.length_cons, Nat.add_comm]
      rfl
  have ends_room : room (List.replicate rounds .endOfInput) = 0 := by
    induction rounds with
    | zero => rfl
    | succ rounds ih =>
      rw [List.replicate_succ, room_cons, ih]
      rfl
  rw [input, room_append, bytes_room, ends_room, Nat.add_zero]

theorem Window.limit_filled {window : Window} (filled : window.len = window.bytes.size) :
    window.limit = window.bytes.size := by
  rw [limit, filled, Nat.min_self]

theorem Window.unread_filled {window : Window} (filled : window.len = window.bytes.size) :
    window.unread = Symbol.input (window.bytes.toList.drop window.curr)
      (if window.ended then 1 else 0) := by
  rw [unread, limit_filled filled, ← Array.length_toList, List.take_length, Symbol.input]
  cases window.ended <;> rfl

/-- Progress from a position is what the verdict says it is. -/
def Verdict.Describes (verdict : Verdict) (origin : Nat) (progress : Progress μ) : Prop :=
  match verdict with
  | .lexeme action length =>
    progress.outcome = .ok (.action action) ∧ progress.trail.curr = origin + length
  | .stuck => progress.outcome = .error (.emptyToken origin)
  | .endless => ∃ stopped, progress.outcome = .ok (.refill stopped)

namespace Tables

variable {tables : Tables}

def verdict (tables : Tables) (bytes : List UInt8) : Verdict :=
  (tables.recognize (Symbol.input bytes tables.states) 0 (.start 0 false)).verdict

theorem verdict_rounds (valid : tables.Valid) (bytes : List UInt8) {rounds : Nat}
    (enough : tables.states ≤ rounds) :
    (tables.recognize (Symbol.input bytes rounds) 0 (.start 0 false)).verdict =
      tables.verdict bytes := by
  -- More rounds change nothing: the attempt is decided already, or it never will be.
  by_cases dry : ∃ stopped, (tables.recognize (Symbol.input bytes tables.states) 0
      (.start 0 false)).outcome = .ok (.refill stopped)
  · obtain ⟨stopped, suspended⟩ := dry
    obtain ⟨stopped', suspended'⟩ :=
      recognize_endless valid valid.states_pos (Nat.le_refl _) suspended rounds
    rw [verdict, Progress.verdict, Progress.verdict, suspended, Symbol.input, suspended']
  · have decided : ∀ stopped, (tables.recognize (Symbol.input bytes tables.states) 0
        (.start 0 false)).outcome ≠ .ok (.refill stopped) :=
      fun stopped suspended => dry ⟨stopped, suspended⟩
    have longer : Symbol.input bytes rounds = Symbol.input bytes tables.states ++
        List.replicate (rounds - tables.states) .endOfInput := by
      rw [Symbol.input, Symbol.input, List.append_assoc, List.replicate_append_replicate,
        Nat.add_sub_cancel' enough]
    rw [verdict, longer, recognize_append_decided _ decided]

theorem verdict_length_le {bytes : List UInt8} {action : ActionId} {length : Nat}
    (found : tables.verdict bytes = .lexeme action length) : length ≤ bytes.length := by
  obtain ⟨_, _, far⟩ := tables.proceed_bounds .silent
    ((Symbol.input bytes tables.states).map .symbol) 0 (.start 0 false) () (Nat.le_refl _)
  rw [Signal.symbols_map, Symbol.room_input] at far
  simp only [verdict, Progress.verdict, recognize] at found
  split at found
  · cases found
    simpa [Trail.start] using far
  · cases found
  · cases found

theorem recognize_elsewhere (symbols : List Symbol) (state origin : Nat) (ended : Bool) :
    (tables.recognize symbols state (.start origin ended)).outcome =
        (tables.recognize symbols state (.start 0 false)).outcome.mapError (.shift origin) ∧
      (tables.recognize symbols state (.start origin ended)).trail.curr =
        (tables.recognize symbols state (.start 0 false)).trail.curr + origin := by
  -- First the flag is set at position zero, and then the whole attempt is moved.
  obtain ⟨ended', flagged⟩ := tables.proceed_ended .silent (symbols.map .symbol) state
    (.start 0 false) () ended
  have moved := tables.proceed_shift (Reaction.silent_shifts origin) (symbols.map .symbol) state
    (.start 0 ended) ()
  rw [Trail.start_shift, Nat.zero_add] at moved
  change tables.proceed .silent _ state (.start 0 ended) () = _ at flagged
  rw [flagged] at moved
  change (tables.proceed .silent _ state _ ()).outcome = _ ∧
    (tables.proceed .silent _ state _ ()).trail.curr = _
  rw [show () = id () from rfl, moved]
  exact ⟨rfl, rfl⟩

theorem verdict_describes (valid : tables.Valid) (reaction : Reaction μ) {bytes : List UInt8}
    {signals : List Signal} {rounds : Nat}
    (shape : Signal.symbols signals = Symbol.input bytes rounds)
    (enough : tables.states ≤ rounds) (origin : Nat) (ended : Bool) (memory : μ) :
    (tables.verdict bytes).Describes origin
      (tables.proceed reaction signals 0 (.start origin ended) memory) := by
  obtain ⟨outcome, place⟩ :=
    tables.proceed_recognizes reaction signals 0 (.start origin ended) memory
  obtain ⟨outcome', place'⟩ :=
    tables.recognize_elsewhere (Symbol.input bytes rounds) 0 origin ended
  rw [shape] at outcome place
  rw [← verdict_rounds valid bytes enough]
  rw [← outcome] at outcome'
  rw [← place] at place'
  unfold Progress.verdict Verdict.Describes
  cases came : (tables.recognize (Symbol.input bytes rounds) 0 (.start 0 false)).outcome with
  | error error =>
    have failed : error = .emptyToken 0 :=
      tables.proceed_error .silent _ 0 (.start 0 false) () (fun _ => rfl) came
    rw [came, failed] at outcome'
    change _ = Except.error (LexError.emptyToken (0 + origin)) at outcome'
    rwa [Nat.zero_add] at outcome'
  | ok step =>
    rw [came] at outcome'
    cases step with
    | action action => exact ⟨outcome', by rw [place', Nat.add_comm]⟩
    | refill stopped => exact ⟨stopped, outcome'⟩

/-- An endless verdict means that no number of rounds decides the attempt. -/
theorem verdict_endless (valid : tables.Valid) (reaction : Reaction μ) {bytes : List UInt8}
    (endless : tables.verdict bytes = .endless) {signals : List Signal} {rounds : Nat}
    (shape : Signal.symbols signals = Symbol.input bytes rounds) (origin : Nat) (ended : Bool)
    (memory : μ) :
    ∃ stopped, (tables.proceed reaction signals 0 (.start origin ended) memory).outcome =
      .ok (.refill stopped) := by
  have dry : ∃ stopped, (tables.recognize (Symbol.input bytes tables.states) 0
      (.start 0 false)).outcome = .ok (.refill stopped) := by
    unfold verdict Progress.verdict at endless
    split at endless
    · cases endless
    · rename_i stopped suspended
      exact ⟨stopped, suspended⟩
    · cases endless
  obtain ⟨stopped, suspended⟩ := dry
  obtain ⟨stopped', suspended'⟩ :=
    recognize_endless valid valid.states_pos (Nat.le_refl _) suspended rounds
  refine ⟨stopped', ?_⟩
  rw [(tables.proceed_recognizes reaction signals 0 (.start origin ended) memory).1, shape,
    (tables.recognize_elsewhere _ 0 origin ended).1, Symbol.input, suspended']
  rfl

end Tables

end TableLexer
