import TableLexer.Proofs.Session.Ordered
import TableLexer.Scanner

/-! Requests for a token, whoever supplies the input. What happens between two calls is up to the
source of the input: it puts any number of pieces behind the window and may report the end of the
input, and nothing is assumed of when it does so. A request that is answered is a run of calls with
such supplies in between. -/

set_option autoImplicit false

namespace TableLexer

/-- What a source of input does to a window: it appends pieces and sets the flag of the end. -/
inductive Window.Supplied (window : Window) : Window → Prop where
  | nothing : window.Supplied window
  | piece {after : Window} (data : List UInt8) :
      window.Supplied after → window.Supplied (after.refill data)
  | finish {after : Window} : window.Supplied after → window.Supplied after.finish

theorem Window.Ordered.supplied {window after : Window} (ordered : window.Ordered)
    (supplied : window.Supplied after) : after.Ordered := by
  induction supplied with
  | nothing => exact ordered
  | piece data _ ih => exact ih.refill data
  | finish _ ih => exact ih.finish

structure Session.Answered (session : Session) (delivery : Delivery) : Prop where
  ordered : session.window.Ordered
  token : ∀ token, delivery = .token token →
    session.window.startsAt.offset = token.start ∧
      session.window.currAt.offset = token.start + token.len
  emptyToken : ∀ offset, delivery = .failed (.emptyToken offset) →
    offset = session.window.start

namespace Scanner

/-- The calls of a request, from one that enters the automaton by `entry` to one that decides. -/
inductive Serves (scanner : Scanner) : Entry → Session → Delivery → Session → Prop where
  | failed {entry : Entry} {session : Session} {error : LexError} {window : Window}
      {memory : Array Cell} :
      scanner.call entry session = .ok { outcome := .error error, window, memory } →
      scanner.Serves entry session (.failed error) { window, cells := memory }
  | matched {entry : Entry} {session : Session} {action : ActionId} {window : Window}
      {memory : Array Cell} {pieces : List (List UInt8)} {turn : Turn} :
      scanner.call entry session = .ok { outcome := .ok (.action action), window, memory } →
      scanner.deliver action { window, cells := memory } pieces = .ok turn →
      scanner.Serves entry session turn.delivery turn.session
  | suspended {entry : Entry} {session : Session} {state : Nat} {window supplied : Window}
      {memory : Array Cell} {delivery : Delivery} {after : Session} :
      scanner.call entry session = .ok { outcome := .ok (.refill state), window, memory } →
      window.Supplied supplied →
      scanner.Serves (.resume state) { window := supplied, cells := memory } delivery after →
      scanner.Serves entry session delivery after

/-- A request that is answered. Input is asked for until something is left to read or the input has
ended, and then a fresh attempt is served unless nothing is left. -/
inductive Requests (scanner : Scanner) : Session → Delivery → Session → Prop where
  | waits {session after : Session} {supplied : Window} {delivery : Delivery} :
      ¬ (session.window.curr < session.window.len ∨ session.window.ended = true) →
      session.window.Supplied supplied →
      scanner.Requests { session with window := supplied } delivery after →
      scanner.Requests session delivery after
  | nothing {session : Session} :
      session.window.atEnd = true → scanner.Requests session .nothing session
  | attempt {session prepared after : Session} {delivery : Delivery} :
      session.window.curr < session.window.len ∨ session.window.ended = true →
      session.window.atEnd = false →
      (if scanner.capturing then
          session.resetCells (scanner.tables.captures.elim 0 CaptureTables.cells)
        else .ok session) = .ok prepared →
      scanner.Serves (.fresh 0) prepared delivery after →
      scanner.Requests session delivery after

variable {scanner : Scanner} {entry : Entry} {session after : Session} {delivery : Delivery}

theorem call_attempted (valid : scanner.tables.Valid) (ordered : session.window.Ordered)
    {result : Result (Array Cell)} (called : scanner.call entry session = .ok result) :
    session.window.Attempted result := by
  unfold call at called
  split at called
  · exact .of_called (Tables.runCapturing_attempted valid entry ordered session.cells) called
  · exact .of_called (Tables.runPlain_attempted valid entry ordered session.cells) called

theorem deliver_answered {action : ActionId} {pieces : List (List UInt8)} {turn : Turn}
    (ordered : session.window.Ordered)
    (delivered : scanner.deliver action session pieces = .ok turn) :
    turn.session.Answered turn.delivery := by
  simp only [deliver, bind_eq_ok_iff, pure_eq_ok, Except.ok.injEq] at delivered
  obtain ⟨window, committed, start, started, len, measured, rfl⟩ := delivered
  refine ⟨ordered.commit committed, ?_, nofun⟩
  rintro token ⟨⟩
  have first := eq_add_of_addWord started
  have rest := eq_sub_of_subWord measured
  have forward := Nat.le_trans ordered.start_le ordered.last_le
  rw [Window.eq_of_commit committed] at first rest ⊢
  simp only at first rest ⊢
  omega

theorem Serves.answered (valid : scanner.tables.Valid)
    (serves : scanner.Serves entry session delivery after) (ordered : session.window.Ordered) :
    after.Answered delivery := by
  induction serves with
  | failed called =>
    have attempted := call_attempted valid ordered called
    refine ⟨attempted.ordered, nofun, ?_⟩
    rintro offset ⟨⟩
    exact attempted.emptyToken offset rfl
  | matched called delivered =>
    exact deliver_answered (call_attempted valid ordered called).ordered delivered
  | suspended called supplied _ ih =>
    exact ih ((call_attempted valid ordered called).ordered.supplied supplied)

theorem reset_window {count : Nat} {prepared : Session}
    (reset : (if scanner.capturing then session.resetCells count else .ok session) =
      .ok prepared) : prepared.window = session.window := by
  split at reset
  · exact Session.resetCells_window reset
  · cases reset
    rfl

theorem Requests.answered (valid : scanner.tables.Valid)
    (requests : scanner.Requests session delivery after) (ordered : session.window.Ordered) :
    after.Answered delivery := by
  induction requests with
  | waits _ supplied _ ih => exact ih (ordered.supplied supplied)
  | nothing _ => exact ⟨ordered, nofun, nofun⟩
  | attempt _ _ prepared serves =>
    refine serves.answered valid ?_
    rw [reset_window prepared]
    exact ordered

theorem callThen_serves {pieces : List (List UInt8)} {turn : Turn}
    {resume : Entry → Session → Except Fault Turn}
    (answered : scanner.callThen entry session pieces resume = .ok turn)
    (onward : ∀ state window memory, resume (.resume state) { window, cells := memory } = .ok turn →
      ∃ supplied, window.Supplied supplied ∧
        scanner.Serves (.resume state) { window := supplied, cells := memory } turn.delivery
          turn.session) :
    scanner.Serves entry session turn.delivery turn.session := by
  rw [callThen, bind_eq_ok_iff] at answered
  obtain ⟨⟨outcome, window, memory⟩, called, answered⟩ := answered
  cases outcome with
  | error error =>
    cases answered
    exact .failed called
  | ok step =>
    cases step with
    | action action => exact .matched called answered
    | refill state =>
      obtain ⟨supplied, supply, serves⟩ := onward state window memory answered
      exact .suspended called supply serves

theorem drain_serves {rounds : Nat} {turn : Turn}
    (answered : scanner.drain rounds entry session = .ok turn)
    (decided : turn.delivery ≠ .endless) :
    scanner.Serves entry session turn.delivery turn.session := by
  induction rounds generalizing entry session with
  | zero =>
    cases answered
    exact absurd rfl decided
  | succ rounds ih =>
    apply callThen_serves answered
    intro state window memory resumed
    exact ⟨window.finish, .finish .nothing, ih resumed⟩

theorem attempt_serves {rounds : Nat} {pieces : List (List UInt8)} {turn : Turn}
    (answered : scanner.attempt rounds entry session pieces = .ok turn)
    (decided : turn.delivery ≠ .endless) :
    scanner.Serves entry session turn.delivery turn.session := by
  induction pieces generalizing entry session with
  | nil => exact drain_serves answered decided
  | cons piece rest ih =>
    apply callThen_serves answered
    intro state window memory resumed
    exact ⟨window.refill piece, .piece piece .nothing, ih resumed⟩

theorem await_requests {window : Window} {cells : Array Cell} (pieces : List (List UInt8))
    (onward : (window.await pieces).1.curr < (window.await pieces).1.len ∨
        (window.await pieces).1.ended = true →
      scanner.Requests { window := (window.await pieces).1, cells } delivery after) :
    scanner.Requests { window, cells } delivery after := by
  induction pieces generalizing window with
  | nil =>
    by_cases ready : window.curr < window.len ∨ window.ended = true
    · simp only [Window.await, Bool.or_eq_true, decide_eq_true_eq, if_pos ready] at onward
      exact onward ready
    · simp only [Window.await, Bool.or_eq_true, decide_eq_true_eq, if_neg ready] at onward
      exact .waits ready (.finish .nothing) (onward (.inr rfl))
  | cons piece rest ih =>
    by_cases ready : window.curr < window.len ∨ window.ended = true
    · simp only [Window.await, Bool.or_eq_true, decide_eq_true_eq, if_pos ready] at onward
      exact onward ready
    · simp only [Window.await, Bool.or_eq_true, decide_eq_true_eq, if_neg ready] at onward
      exact .waits ready (.piece piece .nothing) (ih onward)

theorem nextToken_requests {pieces : List (List UInt8)} {turn : Turn}
    (answered : scanner.nextToken session pieces = .ok turn)
    (decided : turn.delivery ≠ .endless) :
    scanner.Requests session turn.delivery turn.session := by
  obtain ⟨window, cells⟩ := session
  unfold nextToken nextTokenWithin at answered
  simp only at answered
  apply await_requests pieces
  intro ready
  by_cases finished : (window.await pieces).1.atEnd = true
  · rw [if_pos finished] at answered
    cases answered
    exact .nothing finished
  · rw [if_neg finished] at answered
    -- The check whether to reset the cells comes before the rest of the request.
    have asked : ((if scanner.capturing then
          ({ window := (window.await pieces).1, cells } : Session).resetCells
            (scanner.tables.captures.elim 0 CaptureTables.cells)
        else .ok { window := (window.await pieces).1, cells }) >>= fun session =>
          scanner.attempt scanner.enoughRounds (.fresh 0) session (window.await pieces).2) =
        .ok turn :=
      (apply_ite (· >>= _) _ _ _).trans answered
    rw [bind_eq_ok_iff] at asked
    obtain ⟨prepared, reset, attempted⟩ := asked
    exact .attempt ready (Bool.eq_false_iff.mpr finished) reset
      (attempt_serves attempted decided)

end Scanner

end TableLexer
