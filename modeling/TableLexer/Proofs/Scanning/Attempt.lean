import TableLexer.Proofs.Scanning.Feeding

/-! A request for a token. However many calls it takes, they are one attempt on the feed of the
window and the pieces, with a pause between any two of them. -/

set_option autoImplicit false

namespace TableLexer

structure Window.Leaves (before after : Window) (pieces : List (List UInt8))
    (source : List UInt8) (trail : Trail) : Prop where
  holds : after.Holds pieces source
  trail_eq : after.trail = trail
  start : after.start = before.start
  startsAt : after.startsAt = before.startsAt
  currAt : after.currAt = before.currAt

namespace Scanner

def freshCells (scanner : Scanner) (cells : Array Cell) : Array Cell :=
  if scanner.capturing then
    Array.replicate (scanner.tables.captures.elim 0 CaptureTables.cells) none
  else cells

theorem freshCells_capturing {tables : Tables} {captures : CaptureTables}
    (carried : tables.captures = some captures) (cells : Array Cell) :
    (Scanner.ofTables tables).freshCells cells = Array.replicate captures.cells none := by
  rw [freshCells, Scanner.ofTables, carried]
  exact if_pos rfl

/-- A scanner whose calls follow a reaction and never fail. -/
structure Steady (scanner : Scanner) (observer : Observer (Array Cell))
    (reaction : Reaction (Array Cell)) (ready : Array Cell → Prop) : Prop where
  valid : scanner.tables.Valid
  follows : observer.Follows scanner.tables reaction ready
  call : ∀ entry session, scanner.call entry session =
    scanner.tables.run observer entry session.window session.cells
  fresh : ∀ cells, ready (scanner.freshCells cells)

theorem plain_steady {tables : Tables} (valid : tables.Valid) :
    (Scanner.plain tables).Steady .silent .silent fun _ => True where
  valid := valid
  follows := Observer.silent_follows tables
  call _ _ := rfl
  fresh _ := trivial

theorem capturing_steady {tables : Tables} (valid : tables.Valid) {captures : CaptureTables}
    (carried : tables.captures = some captures) :
    (Scanner.ofTables tables).Steady captures.observer captures.reaction
      fun cells => captures.cells ≤ cells.size where
  valid := valid
  follows := CaptureTables.observer_follows valid carried
  call entry session := by
    have capturing : (Scanner.ofTables tables).capturing = true := by
      rw [Scanner.ofTables, carried]
      rfl
    rw [Scanner.call, if_pos capturing]
    change tables.runCapturing entry session.window session.cells = _
    unfold Tables.runCapturing
    rw [carried]
    rfl
  fresh cells := by
    simp [freshCells, Scanner.ofTables, carried]

theorem ofTables_of_bare {tables : Tables} (bare : tables.captures = none) :
    Scanner.ofTables tables = Scanner.plain tables := by
  rw [Scanner.ofTables, bare]
  rfl

theorem exists_steady {tables : Tables} (valid : tables.Valid) {scanner : Scanner}
    (chosen : scanner = .plain tables ∨ scanner = .ofTables tables) :
    ∃ observer reaction ready, scanner.Steady observer reaction ready := by
  rcases chosen with rfl | rfl
  · exact ⟨_, _, _, plain_steady valid⟩
  · cases carried : tables.captures with
    | none => exact ⟨_, _, _, ofTables_of_bare carried ▸ plain_steady valid⟩
    | some captures => exact ⟨_, _, _, capturing_steady valid carried⟩

def Settles (scanner : Scanner) (source : List UInt8) (before : Window)
    (progress : Progress (Array Cell)) (answer : Except Fault Turn) : Prop :=
  match progress.outcome with
  | .ok (.refill _) => ∃ turn, answer = .ok turn ∧ turn.delivery = .endless
  | .ok (.action action) =>
    ∃ window pieces, before.Leaves window pieces source progress.trail ∧
      answer = scanner.deliver action { window, cells := progress.memory } pieces
  | .error error =>
    ∃ window pieces, before.Leaves window pieces source progress.trail ∧
      answer = .ok
        { delivery := .failed error, session := { window, cells := progress.memory }, pieces }

variable {scanner : Scanner} {observer : Observer (Array Cell)}
  {reaction : Reaction (Array Cell)} {ready : Array Cell → Prop} {source : List UInt8}
  {window : Window} {cells : Array Cell} {pieces : List (List UInt8)} {entry : Entry}

section

variable {first : Progress (Array Cell)}

theorem call_leaves (holds : window.Holds pieces source)
    (ordered : (entry.begun window).last ≤ (entry.begun window).curr)
    (made : scanner.tables.proceed reaction (window.unread.map .symbol) entry.state
      (entry.begun window).trail cells = first) :
    (entry.begun window).Leaves ((entry.begun window).withTrail first.trail) pieces source
        first.trail ∧
      first.trail.last ≤ first.trail.curr := by
  have begun := holds.begun entry
  have cursor : (entry.begun window).curr = window.curr := by cases entry <;> rfl
  have flag : (entry.begun window).ended = window.ended := by cases entry <;> rfl
  obtain ⟨_, ordered', far⟩ := scanner.tables.proceed_bounds reaction (window.unread.map .symbol)
    entry.state (entry.begun window).trail cells ordered
  rw [made] at ordered' far
  refine ⟨⟨begun.withTrail ?_ ?_, rfl, rfl, rfl, rfl⟩, ordered'⟩
  · have within := holds.within
    rw [Signal.symbols_map, holds.unread_eq, Symbol.room_input, List.length_drop,
      Array.length_toList, ← holds.filled] at far
    change first.trail.curr ≤ (entry.begun window).curr + _ at far
    have len : (entry.begun window).len = window.len := by cases entry <;> rfl
    omega
  · intro flagged
    rw [← made] at flagged
    -- The flag is set after the call only if it was before or if the end of the input was read,
    -- which takes the flag.
    rcases scanner.tables.proceed_flag _ _ _ _ _ flagged with before | later
    · exact begun.exhausted before
    · rw [Signal.symbols_map] at later
      obtain ⟨read, rest, shape⟩ := List.append_of_mem later
      exact holds.exhausted (Window.unread_endOfInput shape).1

variable (steady : scanner.Steady observer reaction ready)
  (inside : entry.state < scanner.tables.states) (prepared : ready cells)
  (made : scanner.tables.proceed reaction (window.unread.map .symbol) entry.state
    (entry.begun window).trail cells = first)

include steady inside prepared made

theorem call_eq :
    scanner.call entry { window, cells } = .ok (first.result (entry.begun window)) ∧
      ready first.memory ∧ ∀ stopped, first.outcome = .ok (.refill stopped) →
        ((entry.begun window).withTrail first.trail).unread = [] ∧
        stopped < scanner.tables.states ∧ scanner.tables.final? stopped = none := by
  obtain ⟨called, prepared', dry⟩ :=
    Tables.run_eq steady.valid steady.follows entry inside prepared made
  rw [steady.call]
  refine ⟨called, prepared', ?_⟩
  intro stopped suspended
  refine ⟨dry stopped suspended, ?_⟩
  rw [← made] at suspended
  exact Tables.proceed_stopped steady.valid _ _ _ inside suspended

theorem callThen_decided (holds : window.Holds pieces source)
    (ordered : (entry.begun window).last ≤ (entry.begun window).curr)
    (decided : ∀ stopped, first.outcome ≠ .ok (.refill stopped))
    (resume : Entry → Session → Except Fault Turn) :
    scanner.Settles source (entry.begun window) first
      (scanner.callThen entry { window, cells } pieces resume) := by
  have called := (call_eq steady inside prepared made).1
  have leaves := (call_leaves holds ordered made).1
  unfold Settles callThen
  rw [called, ok_bind]
  simp only [Progress.result]
  cases came : first.outcome with
  | error error => exact ⟨_, pieces, leaves, rfl⟩
  | ok step =>
    cases step with
    | action action => exact ⟨_, pieces, leaves, rfl⟩
    | refill stopped => exact absurd came (decided stopped)

theorem callThen_suspended {stopped : Nat} (suspended : first.outcome = .ok (.refill stopped))
    (resume : Entry → Session → Except Fault Turn) :
    scanner.callThen entry { window, cells } pieces resume =
      resume (.resume stopped)
        { window := (entry.begun window).withTrail first.trail, cells := first.memory } := by
  have called := (call_eq steady inside prepared made).1
  rw [callThen, called, ok_bind]
  simp only [Progress.result, suspended]

end

/-- Once a suspended attempt has asked for more, the rest of its answer is that of the window it
goes on with. -/
theorem Settles.of_leaves {before after : Window} {progress : Progress (Array Cell)}
    {answer : Except Fault Turn} (settles : scanner.Settles source after progress answer)
    (start : after.start = before.start) (startsAt : after.startsAt = before.startsAt)
    (currAt : after.currAt = before.currAt) : scanner.Settles source before progress answer := by
  have transfer {window : Window} {pieces : List (List UInt8)}
      (leaves : after.Leaves window pieces source progress.trail) :
      before.Leaves window pieces source progress.trail :=
    ⟨leaves.holds, leaves.trail_eq, leaves.start.trans start, leaves.startsAt.trans startsAt,
      leaves.currAt.trans currAt⟩
  unfold Settles at settles ⊢
  cases came : progress.outcome with
  | error error =>
    simp only [came] at settles ⊢
    obtain ⟨window, pieces, leaves, answered⟩ := settles
    exact ⟨window, pieces, transfer leaves, answered⟩
  | ok step =>
    cases step with
    | action action =>
      simp only [came] at settles ⊢
      obtain ⟨window, pieces, leaves, answered⟩ := settles
      exact ⟨window, pieces, transfer leaves, answered⟩
    | refill stopped =>
      simp only [came] at settles ⊢
      exact settles

theorem callThen_settles (steady : scanner.Steady observer reaction ready)
    (inside : entry.state < scanner.tables.states) (prepared : ready cells)
    (holds : window.Holds pieces source)
    (ordered : (entry.begun window).last ≤ (entry.begun window).curr) (more : List Signal)
    (resume : Entry → Session → Except Fault Turn)
    (onward : ∀ (first : Progress (Array Cell)) (stopped : Nat),
      scanner.tables.proceed reaction (window.unread.map .symbol) entry.state
        (entry.begun window).trail cells = first →
      first.outcome = .ok (.refill stopped) →
      stopped < scanner.tables.states → scanner.tables.final? stopped = none →
      ready first.memory →
      let after := (entry.begun window).withTrail first.trail
      after.Holds pieces source → after.last ≤ after.curr → after.unread = [] →
      scanner.Settles source after
        (scanner.tables.proceed reaction (window.unread.map .symbol ++ more) entry.state
          (entry.begun window).trail cells)
        (resume (.resume stopped) { window := after, cells := first.memory })) :
    scanner.Settles source (entry.begun window)
      (scanner.tables.proceed reaction (window.unread.map .symbol ++ more) entry.state
        (entry.begun window).trail cells)
      (scanner.callThen entry { window, cells } pieces resume) := by
  -- A call that decides does not look at what comes after its window; one that suspends
  -- has read the whole window, and the rest is up to its continuation.
  by_cases dry : ∃ stopped, (scanner.tables.proceed reaction (window.unread.map .symbol)
      entry.state (entry.begun window).trail cells).outcome = .ok (.refill stopped)
  · obtain ⟨stopped, suspended⟩ := dry
    obtain ⟨_, prepared', dried⟩ := call_eq steady inside prepared rfl
    obtain ⟨nothing, known, unfinished⟩ := dried stopped suspended
    obtain ⟨leaves, ordered'⟩ := call_leaves holds ordered rfl
    rw [callThen_suspended steady inside prepared rfl suspended]
    exact (onward _ stopped rfl suspended known unfinished prepared' leaves.holds ordered'
      nothing).of_leaves rfl rfl rfl
  · have decided : ∀ stopped, (scanner.tables.proceed reaction (window.unread.map .symbol)
        entry.state (entry.begun window).trail cells).outcome ≠ .ok (.refill stopped) :=
      fun stopped suspended => dry ⟨stopped, suspended⟩
    rw [Tables.proceed_append_decided _ _ _ _ _ decided]
    exact callThen_decided steady inside prepared rfl holds ordered decided resume

/-- With no more input to come the calls are one attempt on the unread symbols and the end of the
input over and over. -/
theorem drain_settles (steady : scanner.Steady observer reaction ready) (rounds : Nat)
    (inside : entry.state < scanner.tables.states) (prepared : ready cells)
    (holds : window.Holds [] source)
    (ordered : (entry.begun window).last ≤ (entry.begun window).curr) :
    scanner.Settles source (entry.begun window)
      (scanner.tables.proceed reaction (window.feed [] rounds) entry.state
        (entry.begun window).trail cells)
      (scanner.drain (rounds + 1) entry { window, cells }) := by
  -- Each round sets the flag again, and the call reads the end of the input once more.
  induction rounds generalizing entry window cells with
  | zero =>
    rw [Window.feed, List.append_assoc]
    refine callThen_settles steady inside prepared holds ordered _ _ ?_
    intro first stopped made suspended _ _ _ after _ _ _
    rw [List.flatMap_nil, Signal.endings_zero, List.append_nil, List.append_nil, made, Settles]
    simp only [suspended]
    exact ⟨_, rfl, rfl⟩
  | succ rounds ih =>
    rw [Window.feed, List.append_assoc]
    refine callThen_settles steady inside prepared holds ordered _ _ ?_
    intro first stopped made suspended known unfinished prepared' after holds' ordered' nothing
    rw [List.flatMap_nil, List.nil_append, Signal.endings_succ,
      Tables.proceed_append_suspended _ _ _ _ _ (made ▸ suspended), made,
      ← Tables.proceed_endOfInput unfinished true, ← holds'.finish_feed nothing]
    have resumed : (Entry.resume stopped).state < scanner.tables.states := known
    exact (ih resumed prepared' holds'.finish ordered').of_leaves rfl rfl rfl

theorem attempt_settles (steady : scanner.Steady observer reaction ready) (rounds : Nat)
    (inside : entry.state < scanner.tables.states) (prepared : ready cells)
    (holds : window.Holds pieces source)
    (ordered : (entry.begun window).last ≤ (entry.begun window).curr) :
    scanner.Settles source (entry.begun window)
      (scanner.tables.proceed reaction (window.feed pieces rounds) entry.state
        (entry.begun window).trail cells)
      (scanner.attempt (rounds + 1) entry { window, cells } pieces) := by
  -- The next piece is what the suspended call reads after its pause.
  induction pieces generalizing entry window cells with
  | nil => exact drain_settles steady rounds inside prepared holds ordered
  | cons piece rest ih =>
    rw [Window.feed, List.append_assoc]
    refine callThen_settles steady inside prepared holds ordered _ _ ?_
    intro first stopped made suspended known unfinished prepared' after holds' ordered' nothing
    rw [← holds'.refill_feed nothing,
      Tables.proceed_append_suspended _ _ _ _ _ (made ▸ suspended), made]
    have resumed : (Entry.resume stopped).state < scanner.tables.states := known
    exact (ih resumed prepared' holds'.refill ordered').of_leaves rfl rfl rfl

end Scanner

end TableLexer
