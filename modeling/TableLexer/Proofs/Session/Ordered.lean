import TableLexer.Proofs.Recognition.Answer
import TableLexer.Proofs.Recognition.Verdict
import TableLexer.Session

/-! The order of the cursors of a window. An attempt lies between the start of its lexeme and the
end of the input, the end of its last match lies in between, and as long as there is none it stands
at the start. Every operation on windows and every call keeps this order, whatever code the call is
entered with. -/

set_option autoImplicit false

namespace TableLexer

structure Window.Ordered (window : Window) : Prop where
  start_le : window.start ≤ window.last
  last_le : window.last ≤ window.curr
  curr_le : window.curr ≤ window.len
  filled : window.len = window.bytes.size
  unmatched : window.lastAction = none → window.last = window.start

structure Window.SameInput (before after : Window) : Prop where
  bytes : after.bytes = before.bytes
  len : after.len = before.len
  origin : after.origin = before.origin
  startsAt : after.startsAt = before.startsAt
  currAt : after.currAt = before.currAt

namespace Window

variable {window after : Window}

theorem SameInput.refl (window : Window) : window.SameInput window :=
  ⟨rfl, rfl, rfl, rfl, rfl⟩

theorem emptyAt_ordered (location : Location) : (emptyAt location).Ordered :=
  ⟨Nat.le_refl 0, Nat.le_refl 0, Nat.le_refl 0, rfl, fun _ => rfl⟩

theorem eq_of_commit (committed : window.commit = .ok after) :
    after =
      { window with
        startsAt := { window.currAt with offset := window.origin + window.start }
        currAt := { window.currAt with offset := window.origin + window.curr } } := by
  simp only [commit, bind_eq_ok_iff, pure_eq_ok, Except.ok.injEq] at committed
  obtain ⟨start, first, curr, last, rfl⟩ := committed
  rw [eq_add_of_addWord first, eq_add_of_addWord last]

namespace Ordered

theorem refill (ordered : window.Ordered) (data : List UInt8) : (window.refill data).Ordered where
  start_le := ordered.start_le
  last_le := ordered.last_le
  curr_le := by
    have size : (window.refill data).len = window.len + data.length := by
      simp [Window.refill, ordered.filled, ← Array.length_toList]
    have within := ordered.curr_le
    change window.curr ≤ (window.refill data).len
    omega
  filled := rfl
  unmatched := ordered.unmatched

theorem finish (ordered : window.Ordered) : window.finish.Ordered :=
  ⟨ordered.start_le, ordered.last_le, ordered.curr_le, ordered.filled, ordered.unmatched⟩

theorem named (ordered : window.Ordered) (file : String) : (window.named file).Ordered :=
  ⟨ordered.start_le, ordered.last_le, ordered.curr_le, ordered.filled, ordered.unmatched⟩

theorem commit (ordered : window.Ordered) (committed : window.commit = .ok after) :
    after.Ordered := by
  rw [eq_of_commit committed]
  exact ⟨ordered.start_le, ordered.last_le, ordered.curr_le, ordered.filled, ordered.unmatched⟩

theorem newLine (ordered : window.Ordered) (counted : window.newLine = .ok after) :
    after.Ordered := by
  simp only [Window.newLine, bind_eq_ok_iff, pure_eq_ok, Except.ok.injEq] at counted
  obtain ⟨line, _, rfl⟩ := counted
  exact ⟨ordered.start_le, ordered.last_le, ordered.curr_le, ordered.filled, ordered.unmatched⟩

theorem begun (ordered : window.Ordered) (entry : Entry) : (entry.begun window).Ordered := by
  cases entry with
  | fresh state =>
    exact ⟨Nat.le_refl _, Nat.le_refl _, ordered.curr_le, ordered.filled, fun _ => rfl⟩
  | resume state => exact ordered

theorem lexeme (ordered : window.Ordered) : ∃ lexeme, window.lexeme = .ok lexeme := by
  have first : window.start ≤ window.curr := Nat.le_trans ordered.start_le ordered.last_le
  have last : window.curr ≤ window.bytes.size := ordered.filled ▸ ordered.curr_le
  exact ⟨_, if_pos ⟨first, last⟩⟩

theorem room_unread (ordered : window.Ordered) :
    window.curr + Symbol.room window.unread = window.len := by
  have within := ordered.curr_le
  rw [unread_filled ordered.filled, Symbol.room_input, List.length_drop, Array.length_toList,
    ← ordered.filled]
  omega

end Ordered

end Window

theorem Session.resetCells_window {session after : Session} {count : Nat}
    (reset : session.resetCells count = .ok after) : after.window = session.window := by
  unfold resetCells at reset
  split at reset
  · cases reset
    rfl
  · cases reset

namespace Tables

theorem answer_sameInput (tables : Tables) (entry : Entry) (window : Window) :
    window.SameInput (tables.answer entry window).2 := by
  unfold answer
  split
  · cases entry <;> exact ⟨rfl, rfl, rfl, rfl, rfl⟩
  · exact Window.SameInput.refl window

theorem answer_ordered (tables : Tables) (entry : Entry) {window : Window}
    (ordered : window.Ordered) : (tables.answer entry window).2.Ordered := by
  unfold answer
  split
  · have begun := ordered.begun entry
    have unread : (entry.begun window).unread = window.unread := by cases entry <;> rfl
    let trail := (entry.begun window).trail
    let signals := window.unread.map Signal.symbol
    obtain ⟨grown, last_le, curr_le⟩ := tables.proceed_bounds .silent signals entry.state trail ()
      begun.last_le
    rw [Signal.symbols_map, ← unread] at curr_le
    refine ⟨Nat.le_trans begun.start_le grown, last_le, ?_, begun.filled, ?_⟩
    · exact Nat.le_trans curr_le (Nat.le_of_eq begun.room_unread)
    · exact tables.proceed_unmatched .silent signals entry.state trail () begun.unmatched
  · exact ordered

theorem answer_emptyToken (tables : Tables) (entry : Entry) {window : Window}
    (ordered : window.Ordered) (offset : Nat)
    (failed : (tables.answer entry window).1 = .error (.emptyToken offset)) :
    offset = (tables.answer entry window).2.start := by
  unfold answer at failed ⊢
  split at failed
  · rename_i inside
    rw [if_pos inside]
    have origin := tables.proceed_error .silent _ entry.state _ ()
      (ordered.begun entry).unmatched failed
    exact LexError.emptyToken.inj origin
  · cases failed

end Tables

/-- What a call that ends with this result leaves of the window it was made on. -/
structure Window.Attempted {μ : Type} (window : Window) (result : Result μ) : Prop where
  sameInput : window.SameInput result.window
  ordered : result.window.Ordered
  emptyToken : ∀ offset, result.outcome = .error (.emptyToken offset) →
    offset = result.window.start

/-- A call has one result, so what is known of some result is known of it. -/
theorem Window.Attempted.of_called {μ : Type} {window : Window} {result : Result μ}
    {call : Except Fault (Result μ)} (ends : ∃ result, call = .ok result ∧ window.Attempted result)
    (called : call = .ok result) : window.Attempted result := by
  obtain ⟨result', called', attempted⟩ := ends
  rw [called] at called'
  cases called'
  exact attempted

namespace Tables

variable {tables : Tables} {window : Window}

theorem attempted_of_answer (entry : Entry) (ordered : window.Ordered)
    {result : Result (Array Cell)}
    (answered : (result.outcome, result.window) = tables.answer entry window) :
    window.Attempted result := by
  obtain ⟨outcome, after, memory⟩ := result
  have sameInput := tables.answer_sameInput entry window
  have ordered' := tables.answer_ordered entry ordered
  have emptyToken := tables.answer_emptyToken entry ordered
  simp only [← answered] at sameInput ordered' emptyToken
  exact ⟨sameInput, ordered', emptyToken⟩

theorem runPlain_attempted (valid : tables.Valid) (entry : Entry) (ordered : window.Ordered)
    (cells : Array Cell) :
    ∃ result, tables.runPlain entry window cells = .ok result ∧ window.Attempted result := by
  obtain ⟨result, ran, answered⟩ := runPlain_answers valid entry window cells
  exact ⟨result, ran, attempted_of_answer entry ordered answered⟩

theorem runCapturing_attempted (valid : tables.Valid) (entry : Entry) (ordered : window.Ordered)
    (cells : Array Cell) :
    ∃ result, tables.runCapturing entry window cells = .ok result ∧ window.Attempted result := by
  cases carried : tables.captures with
  | none =>
    -- Without capture programs the call is refused and touches nothing.
    refine ⟨{ outcome := .error .missingCaptures, window, memory := cells }, ?_, ?_⟩
    · rw [runCapturing, carried]
    · refine ⟨.refl window, ordered, ?_⟩
      intro offset failed
      cases failed
  | some captures =>
    obtain ⟨result, ran, answered⟩ := runCapturing_answers valid carried entry window cells
    exact ⟨result, ran, attempted_of_answer entry ordered answered⟩

end Tables

end TableLexer
