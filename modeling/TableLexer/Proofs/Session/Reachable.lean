import TableLexer.Proofs.Session.Requests
import TableLexer.Proofs.Tables.Loading
import TableLexer.Proofs.Tables.Uniform

/-! Sessions as their users can make them. Operations come in any order: calls may be entered with
codes of other attempts or of no state at all, fail, and be followed by any other operation, and
every call and every request may use other tables. The order of the cursors survives all of it. -/

set_option autoImplicit false

namespace TableLexer

namespace Session

/-- One operation on a session. The operations that can meet a fault are those that did not. -/
inductive Step (session : Session) : Session → Prop where
  | refill (data : List UInt8) :
      session.Step { session with window := session.window.refill data }
  | finish : session.Step { session with window := session.window.finish }
  | named (file : String) : session.Step { session with window := session.window.named file }
  | resetCells {count : Nat} {after : Session} :
      session.resetCells count = .ok after → session.Step after
  | commit {window : Window} :
      session.window.commit = .ok window → session.Step { session with window }
  | newLine {window : Window} :
      session.window.newLine = .ok window → session.Step { session with window }
  | flush : session.Step session.flush
  | plain {tables : Tables} {code : Int} {result : Result (Array Cell)} :
      tables.Loaded →
      tables.runPlain (.ofCode code) session.window session.cells = .ok result →
      session.Step { window := result.window, cells := result.memory }
  | capturing {tables : Tables} {code : Int} {result : Result (Array Cell)} :
      tables.Loaded →
      tables.runCapturing (.ofCode code) session.window session.cells = .ok result →
      session.Step { window := result.window, cells := result.memory }
  | request {scanner : Scanner} {delivery : Delivery} {after : Session} :
      scanner.tables.Loaded → scanner.Requests session delivery after → session.Step after

inductive Reachable : Session → Prop where
  | empty : Reachable .empty
  | ofBytes (data : List UInt8) : Reachable (.ofBytes data)
  | step {before after : Session} : Reachable before → before.Step after → Reachable after

variable {session after : Session}

theorem Step.ordered (step : session.Step after) (ordered : session.window.Ordered) :
    after.window.Ordered := by
  cases step with
  | refill data => exact ordered.refill data
  | finish => exact ordered.finish
  | named file => exact ordered.named file
  | resetCells reset =>
    rw [resetCells_window reset]
    exact ordered
  | commit committed => exact ordered.commit committed
  | newLine counted => exact ordered.newLine counted
  | flush => exact Window.emptyAt_ordered _
  | plain loaded ran =>
    exact (Window.Attempted.of_called (Tables.runPlain_attempted loaded.valid _ ordered _)
      ran).ordered
  | capturing loaded ran =>
    exact (Window.Attempted.of_called (Tables.runCapturing_attempted loaded.valid _ ordered _)
      ran).ordered
  | request loaded requests => exact (requests.answered loaded.valid ordered).ordered

theorem Reachable.ordered (reachable : session.Reachable) : session.window.Ordered := by
  induction reachable with
  | empty => exact Window.emptyAt_ordered _
  | ofBytes data => exact ((Window.emptyAt_ordered _).refill data).finish
  | step _ step ih => exact step.ordered ih

/-- Every session that can be made has its cursors in order, so its lexeme is there. Every call on
it ends, leaves the input and the locations alone and the cursors in order, and reports an empty
token where its attempt started. A request that delivers a token leaves the locations at the two
ends of the token. -/
theorem reachable_sessions_ordered (reachable : session.Reachable) :
    session.window.Ordered ∧
    (∃ lexeme, session.window.lexeme = .ok lexeme) ∧
    (∀ tables : Tables, tables.Loaded → ∀ code : Int,
      (∃ result, tables.runPlain (.ofCode code) session.window session.cells = .ok result ∧
        session.window.Attempted result) ∧
      ∃ result, tables.runCapturing (.ofCode code) session.window session.cells = .ok result ∧
        session.window.Attempted result) ∧
    ∀ (scanner : Scanner) (delivery : Delivery) (after : Session), scanner.tables.Loaded →
      scanner.Requests session delivery after → after.Answered delivery := by
  have ordered := reachable.ordered
  refine ⟨ordered, ordered.lexeme, ?_, ?_⟩
  · intro tables loaded code
    exact ⟨Tables.runPlain_attempted loaded.valid _ ordered _,
      Tables.runCapturing_attempted loaded.valid _ ordered _⟩
  · intro scanner delivery after loaded requests
    exact requests.answered loaded.valid ordered

/-- A session with the first byte of its input, a call that resumes an attempt it never began, and
a request that takes the second byte. -/
theorem refilled_session_ordered :
    let session : Session := { Session.empty with window := Session.empty.window.refill [97] }
    session.Reachable ∧ session.window.Ordered ∧
    (∃ result, rerunTables.runPlain (.ofCode (-2)) session.window session.cells = .ok result ∧
      session.window.Attempted result) ∧
    ∃ turn token, (Scanner.ofTables rerunTables).nextToken session [[98]] = .ok turn ∧
      turn.delivery = .token token ∧
      turn.session.window.startsAt.offset = 0 ∧ turn.session.window.currAt.offset = 2 := by
  intro session
  have reachable : session.Reachable := .step .empty (.refill [97])
  have loaded : rerunTables.Loaded := .ofParts rerunTables_accepted
  obtain ⟨ordered, _, calls, requests⟩ := reachable_sessions_ordered reachable
  have requested : ((Scanner.ofTables rerunTables).nextToken session [[98]]).toOption.map
      Turn.delivery =
        some (.token { action := 1, start := 0, len := 2, captures := #[none, none] }) := by
    decide +kernel
  obtain ⟨turn, answered, delivered⟩ := Option.map_eq_some_iff.mp requested
  rw [toOption_eq_some_iff] at answered
  have served := Scanner.nextToken_requests answered (delivered ▸ nofun)
  obtain ⟨first, last⟩ := (requests _ _ _ loaded served).token _ delivered
  exact ⟨reachable, ordered, (calls rerunTables loaded (-2)).1, turn, _, answered, delivered,
    first, last⟩

end Session

end TableLexer
