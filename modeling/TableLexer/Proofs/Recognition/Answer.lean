import TableLexer.Proofs.Recognition.Suspension

/-! The answer of a call. What a call comes to and the window it leaves are functions of the entry
and the window, whoever observes the call and whatever is remembered so far. -/

set_option autoImplicit false

namespace TableLexer

variable {μ : Type}

namespace Tables

variable {tables : Tables}

/-- What a call by this entry on this window comes to, and the window it leaves. -/
def answer (tables : Tables) (entry : Entry) (window : Window) : Except LexError Step × Window :=
  if entry.state < tables.states then
    let seen := tables.recognize window.unread entry.state (entry.begun window).trail
    (seen.outcome, (entry.begun window).withTrail seen.trail)
  else (.error (.invalidState entry), window)

theorem run_answers {observer : Observer μ} {reaction : Reaction μ} {ready : μ → Prop}
    (valid : tables.Valid) (follows : observer.Follows tables reaction ready) (entry : Entry)
    (window : Window) (memory : μ) :
    ∃ result, tables.run observer entry window memory = .ok result ∧
      (result.outcome, result.window) = tables.answer entry window := by
  by_cases inside : entry.state < tables.states
  · let progress := tables.proceed reaction (window.unread.map .symbol) entry.state
      (entry.begun window).trail (observer.prepare memory)
    -- The memory may have too few cells as it is; the call itself makes it ready.
    have called : tables.run observer entry window memory =
        .ok (progress.result (entry.begun window)) := by
      rw [run_prepare follows entry inside]
      exact (run_eq valid follows entry inside (follows.prepared memory) rfl).1
    obtain ⟨outcome, trail⟩ := tables.proceed_recognizes reaction (window.unread.map .symbol)
      entry.state (entry.begun window).trail (observer.prepare memory)
    rw [Signal.symbols_map] at outcome trail
    refine ⟨_, called, ?_⟩
    simp only [answer, if_pos inside, Progress.result, progress, outcome, trail]
  · refine ⟨_, if_neg inside, ?_⟩
    simp only [answer, if_neg inside]

theorem runPlain_answers (valid : tables.Valid) (entry : Entry) (window : Window)
    (cells : Array Cell) :
    ∃ result, tables.runPlain entry window cells = .ok result ∧
      (result.outcome, result.window) = tables.answer entry window :=
  run_answers valid (Observer.silent_follows tables) entry window cells

theorem runCapturing_answers (valid : tables.Valid) {captures : CaptureTables}
    (carried : tables.captures = some captures) (entry : Entry) (window : Window)
    (cells : Array Cell) :
    ∃ result, tables.runCapturing entry window cells = .ok result ∧
      (result.outcome, result.window) = tables.answer entry window := by
  simp only [runCapturing, carried]
  exact run_answers valid (CaptureTables.observer_follows valid carried) entry window cells

end Tables

end TableLexer
