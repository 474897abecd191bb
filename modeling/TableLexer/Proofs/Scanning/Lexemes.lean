import TableLexer.Proofs.Scanning.Request

/-! Scanning as one function on the bytes. Every token is the lexeme of the bytes that are left, and
the next one starts where it ends. A scan finds these tokens and ends as they do, whatever the
pieces in which the bytes arrive. -/

set_option autoImplicit false

namespace TableLexer

def Token.bare (token : Token) : Token :=
  { token with captures := #[] }

def Ending.inFile (file : String) : Ending → Ending
  | .failed error location => .failed error { location with file }
  | .complete => .complete
  | .fault cause => .fault cause
  | .endless => .endless

def Tables.tokenize (tables : Tables) (start : Nat) (bytes : List UInt8) : List Token × Ending :=
  match bytes with
  | [] => ([], .complete)
  | first :: rest =>
    match tables.verdict (first :: rest) with
    | .endless => ([], .endless)
    | .stuck =>
      ([], .failed (.emptyToken start) { Location.start "" with offset := start })
    | .lexeme action length =>
      if start + length < wordLimit then
        let token : Token := { action, start, len := length, captures := #[] }
        if length = 0 then ([token], .complete)
        else
          let later := tables.tokenize (start + length) ((first :: rest).drop length)
          (token :: later.1, later.2)
      else ([], .fault .overflow)
termination_by bytes.length
decreasing_by
  rw [List.length_drop, List.length_cons]
  omega

namespace Tables

variable {tables : Tables} {bytes : List UInt8}

section

variable (start : Nat) (more : bytes ≠ [])

include more

theorem tokenize_of_endless (endless : tables.verdict bytes = .endless) :
    tables.tokenize start bytes = ([], .endless) := by
  cases bytes with
  | nil => exact absurd rfl more
  | cons first rest =>
    rw [tokenize]
    simp only [endless]

theorem tokenize_of_stuck (stuck : tables.verdict bytes = .stuck) :
    tables.tokenize start bytes =
      ([], .failed (.emptyToken start) { Location.start "" with offset := start }) := by
  cases bytes with
  | nil => exact absurd rfl more
  | cons first rest =>
    rw [tokenize]
    simp only [stuck]

theorem tokenize_of_lexeme {action : ActionId} {length : Nat}
    (found : tables.verdict bytes = .lexeme action length) :
    tables.tokenize start bytes =
      if start + length < wordLimit then
        if length = 0 then
          ([{ action, start, len := length, captures := #[] }], .complete)
        else
          ({ action, start, len := length, captures := #[] } ::
              (tables.tokenize (start + length) (bytes.drop length)).1,
            (tables.tokenize (start + length) (bytes.drop length)).2)
      else ([], .fault .overflow) := by
  cases bytes with
  | nil => exact absurd rfl more
  | cons first rest =>
    rw [tokenize]
    simp only [found]

end

theorem tokenize_unnamed (tables : Tables) (start : Nat) (bytes : List UInt8) :
    (tables.tokenize start bytes).2.inFile "" = (tables.tokenize start bytes).2 := by
  fun_induction tables.tokenize start bytes with
  | case1 => rfl
  | case2 => rfl
  | case3 => rfl
  | case4 => rfl
  | case5 start first rest action length found small token more later ih => exact ih
  | case6 => rfl

end Tables

structure Turn.Delivers (turn : Turn) (before : Window) (source : List UInt8) (action : ActionId)
    (length : Nat) (captures : Array Cell) (ended : Bool) : Prop where
  delivery : turn.delivery = .token { action, start := before.curr, len := length, captures }
  holds : turn.session.window.Holds turn.pieces source
  curr : turn.session.window.curr = before.curr + length
  ended : turn.session.window.ended = ended
  currAt : turn.session.window.currAt = { before.currAt with offset := before.curr + length }

namespace Scanner

/-- An answer as a verdict on the bytes demands it, with what the attempt remembered as captures. -/
def Answers (scanner : Scanner) (source : List UInt8) (before : Window) (verdict : Verdict)
    (progress : Progress (Array Cell)) (answer : Except Fault Turn) : Prop :=
  match verdict with
  | .endless => ∃ turn, answer = .ok turn ∧ turn.delivery = .endless
  | .stuck =>
    ∃ turn, answer = .ok turn ∧ turn.delivery = .failed (.emptyToken before.curr) ∧
      turn.session.window.currAt = before.currAt
  | .lexeme action length =>
    if before.curr + length < wordLimit then
      ∃ turn, answer = .ok turn ∧
        turn.Delivers before source action length
          (if scanner.capturing then progress.memory else #[]) progress.trail.ended
    else answer = .error .overflow

variable {scanner : Scanner} {observer : Observer (Array Cell)}
  {reaction : Reaction (Array Cell)} {ready : Array Cell → Prop} {source : List UInt8}
  {window : Window} {cells : Array Cell} {pieces : List (List UInt8)}

theorem attempted_describes (steady : scanner.Steady observer reaction ready)
    (holds : window.Holds pieces source) {rounds : Nat}
    (enough : scanner.tables.states ≤ rounds) :
    (scanner.tables.verdict (window.left source)).Describes window.curr
      (scanner.attempted reaction rounds window cells pieces) := by
  have awaited := Window.await_holds holds
  have shape := awaited.holds.feed_symbols rounds
  rw [Window.left, awaited.curr] at shape
  exact Tables.verdict_describes steady.valid reaction shape (Nat.le_trans enough
    (Nat.le_add_right _ _)) window.curr window.ended _

theorem nextToken_answers (steady : scanner.Steady observer reaction ready)
    (holds : window.Holds pieces source) (more : window.left source ≠ []) {rounds : Nat}
    (enough : scanner.tables.states ≤ rounds) :
    scanner.Answers source window (scanner.tables.verdict (window.left source))
      (scanner.attempted reaction rounds window cells pieces)
      (scanner.nextTokenWithin (rounds + 1) { window, cells } pieces) := by
  have awaited := Window.await_holds holds
  have described : (scanner.tables.verdict (window.left source)).Describes window.curr
      (scanner.attempted reaction rounds window cells pieces) :=
    attempted_describes steady holds enough
  have settles : scanner.Settles source (window.await pieces).1.beginAttempt
      (scanner.attempted reaction rounds window cells pieces)
      (scanner.nextTokenWithin (rounds + 1) { window, cells } pieces) :=
    nextToken_settles steady cells holds more rounds
  -- What the attempt came to is what the verdict describes, and this settles the request.
  unfold Answers
  unfold Settles at settles
  cases verdict : scanner.tables.verdict (window.left source) with
  | endless =>
    rw [verdict] at described
    obtain ⟨stopped, suspended⟩ := described
    simp only [suspended] at settles
    exact settles
  | stuck =>
    rw [verdict] at described
    simp only [show (scanner.attempted reaction rounds window cells pieces).outcome = _ from
      described] at settles
    obtain ⟨after, rest, leaves, answered⟩ := settles
    exact ⟨_, answered, rfl, leaves.currAt.trans awaited.currAt⟩
  | lexeme action length =>
    rw [verdict] at described
    obtain ⟨matched, stop⟩ := described
    simp only [matched] at settles
    obtain ⟨after, rest, leaves, answered⟩ := settles
    have start : after.start = window.curr := leaves.start.trans awaited.curr
    have curr : after.curr = window.curr + length :=
      (congrArg Trail.curr leaves.trail_eq).trans stop
    have place : after.currAt = window.currAt := leaves.currAt.trans awaited.currAt
    rw [deliver_eq scanner action after _ rest leaves.holds.origin (by omega), start, curr,
      Nat.add_sub_cancel_left] at answered
    simp only
    by_cases small : window.curr + length < wordLimit
    · rw [if_pos small] at answered ⊢
      refine ⟨_, answered, rfl, ?_, rfl, ?_, ?_⟩
      · exact ⟨leaves.holds.filled, leaves.holds.origin, leaves.holds.whole,
          curr ▸ leaves.holds.within, leaves.holds.exhausted⟩
      · exact congrArg Trail.ended leaves.trail_eq
      · rw [place]
    · rw [if_neg small] at answered ⊢
      exact answered

def captured (scanner : Scanner) (reaction : Reaction (Array Cell)) (window : Window)
    (cells : Array Cell) (pieces : List (List UInt8)) : Array Cell :=
  if scanner.capturing then
    (scanner.attempted reaction (scanner.tables.states + 1) window cells pieces).memory
  else #[]

theorem captured_capturing {tables : Tables} {captures : CaptureTables}
    (carried : tables.captures = some captures) (reaction : Reaction (Array Cell))
    (window : Window) (cells : Array Cell) (pieces : List (List UInt8)) :
    (Scanner.ofTables tables).captured reaction window cells pieces =
      ((Scanner.ofTables tables).attempted reaction (tables.states + 1) window cells
        pieces).memory :=
  if_pos (congrArg Option.isSome carried)

theorem nextToken_delivers (steady : scanner.Steady observer reaction ready) (cells : Array Cell)
    (holds : window.Holds pieces source) (more : window.left source ≠ []) {action : ActionId}
    {length : Nat} (found : scanner.tables.verdict (window.left source) = .lexeme action length)
    (small : window.curr + length < wordLimit) :
    ∃ turn, scanner.nextToken { window, cells } pieces = .ok turn ∧
      turn.Delivers window source action length (scanner.captured reaction window cells pieces)
        (scanner.attempted reaction (scanner.tables.states + 1) window cells
          pieces).trail.ended := by
  have answers : scanner.Answers source window (scanner.tables.verdict (window.left source))
      (scanner.attempted reaction (scanner.tables.states + 1) window cells pieces)
      (scanner.nextToken { window, cells } pieces) :=
    nextToken_answers steady holds more (Nat.le_succ scanner.tables.states)
  rw [found] at answers
  simp only [Answers, if_pos small] at answers
  exact answers

section

variable {β : Type} {report : Window → Token → Except Fault β} {tokens : Nat} {reports : Array β}
  {session : Session} {turn : Turn}

theorem scanAfter_turn (answered : scanner.nextToken session pieces = .ok turn) :
    scanner.scanAfter report (tokens + 1) reports session pieces =
      match turn.delivery with
      | .nothing => { reports, ending := .complete }
      | .failed error => { reports, ending := .failed error turn.session.window.currAt }
      | .endless => { reports, ending := .endless }
      | .token token =>
        match report turn.session.window token with
        | .error fault => { reports, ending := .fault fault }
        | .ok line =>
          if token.len = 0 then { reports := reports.push line, ending := .complete }
          else scanner.scanAfter report tokens (reports.push line) turn.session turn.pieces := by
  rw [scanAfter]
  exact answered ▸ rfl

theorem scanAfter_fault {fault : Fault}
    (answered : scanner.nextToken session pieces = .error fault) :
    scanner.scanAfter report (tokens + 1) reports session pieces =
      { reports, ending := .fault fault } := by
  rw [scanAfter, answered]

end

/-- The captures of a token are those of a request where the token starts. -/
def Recorded (scanner : Scanner) (reaction : Reaction (Array Cell)) (source : List UInt8)
    (token : Token) : Prop :=
  ∃ (window : Window) (cells : Array Cell) (pieces : List (List UInt8)),
    window.Holds pieces source ∧ window.curr = token.start ∧ window.left source ≠ [] ∧
    token.captures = scanner.captured reaction window cells pieces

theorem Recorded.bare {token : Token} (recorded : scanner.Recorded reaction source token)
    (plain : scanner.capturing = false) : token.bare = token := by
  obtain ⟨_, _, _, _, _, _, captures⟩ := recorded
  rw [captured, plain, if_neg Bool.false_ne_true] at captures
  rw [Token.bare, ← captures]

theorem Recorded.captured_from {tables : Tables} {captures : CaptureTables}
    (carried : tables.captures = some captures) {token : Token}
    (recorded : (Scanner.ofTables tables).Recorded captures.reaction source token) :
    source.drop token.start ≠ [] ∧ ∃ signals rounds ended,
      Signal.symbols signals = Symbol.input (source.drop token.start) rounds ∧
      token.captures = (tables.proceed captures.reaction signals 0 (.start token.start ended)
        (Array.replicate captures.cells none)).memory := by
  obtain ⟨window, cells, pieces, holds, place, more, recorded⟩ := recorded
  have awaited := Window.await_holds holds
  have shape := awaited.holds.feed_symbols (tables.states + 1)
  rw [Window.left, awaited.curr, place] at shape
  rw [captured_capturing carried, attempted, freshCells_capturing carried, place] at recorded
  rw [Window.left, place] at more
  exact ⟨more, _, _, _, shape, recorded⟩

/-- Tokens as a scan finds them from a request on: those of the bytes that are left, each with the
captures of its own request. -/
structure Finds (scanner : Scanner) (reaction : Reaction (Array Cell)) (source : List UInt8)
    (window : Window) (cells : Array Cell) (pieces : List (List UInt8)) (found : List Token) :
    Prop where
  bare : found.map Token.bare =
    (scanner.tables.tokenize window.curr (window.left source)).1
  first : ∀ token, found.head? = some token →
    token.captures = scanner.captured reaction window cells pieces
  recorded : ∀ token ∈ found, scanner.Recorded reaction source token

theorem Finds.nothing
    (none : (scanner.tables.tokenize window.curr (window.left source)).1 = []) :
    scanner.Finds reaction source window cells pieces [] :=
  ⟨none.symm, nofun, nofun⟩

theorem Finds.token (holds : window.Holds pieces source) (more : window.left source ≠ [])
    {action : ActionId} {length : Nat} {later : List Token}
    (shape : (scanner.tables.tokenize window.curr (window.left source)).1 =
      { action, start := window.curr, len := length, captures := #[] } :: later.map Token.bare)
    (recorded : ∀ token ∈ later, scanner.Recorded reaction source token) :
    scanner.Finds reaction source window cells pieces
      ({ action, start := window.curr, len := length
         captures := scanner.captured reaction window cells pieces } :: later) where
  bare := shape.symm
  first := by
    rintro _ ⟨⟩
    rfl
  recorded := List.forall_mem_cons.mpr ⟨⟨window, cells, pieces, holds, rfl, more, rfl⟩, recorded⟩

def Reports {β : Type} (report : Window → Token → Except Fault β) (source : List UInt8)
    (line : Token → β) : Prop :=
  ∀ (window : Window) (pieces : List (List UInt8)) (token : Token), window.Holds pieces source →
    token.start + token.len = window.curr → report window token = .ok (line token)

/-- A scan finds the tokens of the bytes that are left, reports them in order and ends as they
do. -/
theorem scanAfter_tokenize {β : Type} {report : Window → Token → Except Fault β}
    {line : Token → β} (reporting : Reports report source line)
    (steady : scanner.Steady observer reaction ready) (cells : Array Cell)
    (holds : window.Holds pieces source) {file : String}
    (located : window.currAt = { Location.start file with offset := window.curr })
    {tokens : Nat} (enough : (window.left source).length < tokens) (reports : Array β) :
    ∃ found : List Token, scanner.Finds reaction source window cells pieces found ∧
      scanner.scanAfter report tokens reports { window, cells } pieces =
        { reports := reports ++ found.map line
          ending :=
            (scanner.tables.tokenize window.curr (window.left source)).2.inFile file } := by
  -- Every token but the last takes a byte, so a budget above the bytes that are left does
  -- not run out.
  induction tokens generalizing window cells pieces reports with
  | zero => exact absurd enough (Nat.not_lt_zero _)
  | succ tokens ih =>
    by_cases more : window.left source = []
    · obtain ⟨turn, answered, nothing⟩ :=
        scanner.nextToken_nothing cells holds more scanner.enoughRounds
      have none : scanner.tables.tokenize window.curr (window.left source) = ([], .complete) := by
        rw [more, Tables.tokenize]
      rw [scanAfter_turn answered, nothing]
      exact ⟨[], .nothing (congrArg Prod.fst none), by simp [none, Ending.inFile]⟩
    have answers : scanner.Answers source window (scanner.tables.verdict (window.left source))
        (scanner.attempted reaction (scanner.tables.states + 1) window cells pieces)
        (scanner.nextToken { window, cells } pieces) :=
      nextToken_answers steady holds more (Nat.le_succ scanner.tables.states)
    unfold Answers at answers
    cases verdict : scanner.tables.verdict (window.left source) with
    | endless =>
      simp only [verdict] at answers
      obtain ⟨turn, answered, endless⟩ := answers
      have none := Tables.tokenize_of_endless window.curr more verdict
      rw [scanAfter_turn answered, endless]
      exact ⟨[], .nothing (congrArg Prod.fst none), by simp [none, Ending.inFile]⟩
    | stuck =>
      simp only [verdict] at answers
      obtain ⟨turn, answered, failed, place⟩ := answers
      have none := Tables.tokenize_of_stuck window.curr more verdict
      rw [scanAfter_turn answered, failed]
      refine ⟨[], .nothing (congrArg Prod.fst none), ?_⟩
      simp [none, place, located, Ending.inFile, Location.start]
    | lexeme action length =>
      simp only [verdict] at answers
      have shape := Tables.tokenize_of_lexeme window.curr more verdict
      by_cases small : window.curr + length < wordLimit
      · rw [if_pos small] at answers shape
        obtain ⟨turn, answered, delivers⟩ := answers
        have delivery : turn.delivery = .token
            { action, start := window.curr, len := length
              captures := scanner.captured reaction window cells pieces } := delivers.delivery
        have reported := reporting turn.session.window turn.pieces
          { action, start := window.curr, len := length
            captures := scanner.captured reaction window cells pieces }
          delivers.holds delivers.curr.symm
        rw [scanAfter_turn answered, delivery]
        simp only [reported]
        by_cases final : length = 0
        · rw [if_pos final] at shape
          refine ⟨[_], .token holds more (congrArg Prod.fst shape) (List.forall_mem_nil _), ?_⟩
          simp only [if_pos final, shape, Ending.inFile]
          rfl
        · rw [if_neg final] at shape
          -- The next request starts where this token ends, on the bytes that it left.
          have onward : turn.session.window.left source =
              (window.left source).drop length := by
            rw [Window.left, Window.left, delivers.curr, List.drop_drop]
          have located' : turn.session.window.currAt =
              { Location.start file with offset := turn.session.window.curr } := by
            rw [delivers.currAt, located, delivers.curr]
          have fewer : (turn.session.window.left source).length < tokens := by
            have some := List.length_pos_iff.mpr more
            rw [onward, List.length_drop]
            omega
          obtain ⟨later, finds, scanned⟩ := ih turn.session.cells delivers.holds located' fewer
            (reports.push (line { action, start := window.curr, len := length
                                  captures := scanner.captured reaction window cells pieces }))
          have bare := finds.bare
          rw [onward, delivers.curr] at scanned bare
          rw [← bare] at shape
          refine ⟨_ :: later, .token holds more (congrArg Prod.fst shape) finds.recorded, ?_⟩
          rw [shape]
          simp only [if_neg final]
          exact scanned.trans (by simp)
      · rw [if_neg small] at answers shape
        rw [scanAfter_fault answers]
        exact ⟨[], .nothing (congrArg Prod.fst shape), by simp [shape, Ending.inFile]⟩

theorem left_of_turn (holds : window.Holds pieces source) {turn : Turn}
    (answered : scanner.nextToken { window, cells } pieces = .ok turn)
    (something : turn.delivery ≠ .nothing) : window.left source ≠ [] := by
  intro finished
  obtain ⟨turn', answered', nothing⟩ :=
    scanner.nextToken_nothing cells holds finished scanner.enoughRounds
  change scanner.nextToken _ _ = _ at answered'
  rw [answered] at answered'
  cases answered'
  exact something nothing

/-- A request that is endless stays so however many calls are made. -/
theorem nextToken_endless (steady : scanner.Steady observer reaction ready)
    (holds : window.Holds pieces source) (cells : Array Cell)
    (endless : ∃ turn, scanner.nextToken { window, cells } pieces = .ok turn ∧
      turn.delivery = .endless) (rounds : Nat) :
    ∃ turn, scanner.nextTokenWithin (rounds + 1) { window, cells } pieces = .ok turn ∧
      turn.delivery = .endless := by
  obtain ⟨turn, answered, never⟩ := endless
  have more : window.left source ≠ [] := left_of_turn holds answered (never ▸ nofun)
  have answers : scanner.Answers source window (scanner.tables.verdict (window.left source))
      (scanner.attempted reaction (scanner.tables.states + 1) window cells pieces)
      (scanner.nextToken { window, cells } pieces) :=
    nextToken_answers steady holds more (Nat.le_succ scanner.tables.states)
  -- An answer tells its verdict: of the three only an endless one is answered this way.
  have verdict : scanner.tables.verdict (window.left source) = .endless := by
    rw [answered] at answers
    unfold Answers at answers
    split at answers
    · assumption
    · obtain ⟨turn', same, failed, _⟩ := answers
      cases same
      rw [never] at failed
      cases failed
    · split at answers
      · obtain ⟨turn', same, delivers⟩ := answers
        cases same
        have delivery := delivers.delivery
        rw [never] at delivery
        cases delivery
      · cases answers
  have awaited := Window.await_holds holds
  have shape := awaited.holds.feed_symbols rounds
  rw [Window.left, awaited.curr] at shape
  obtain ⟨stopped, suspended⟩ := Tables.verdict_endless steady.valid reaction verdict shape
    window.curr window.ended (scanner.freshCells cells)
  have settles := nextToken_settles steady cells holds more rounds
  unfold Settles at settles
  simp only [attempted, suspended] at settles
  exact settles

end Scanner

end TableLexer
