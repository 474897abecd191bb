import TableLexer.Proofs.Scanning.Pieces

/-! Captures of an input that arrives in pieces. At every pause the tag of the state that asked for
input is run again, on cells that it has changed already. The cells of a token are independent of
how the input was cut exactly when this makes no difference at the end of any token, and it makes
none when no tag reads a cell that it writes. -/

set_option autoImplicit false

namespace TableLexer

namespace Window.Holds

variable {window : Window} {pieces : List (List UInt8)} {source : List UInt8}

theorem feed_ended (holds : window.Holds pieces source) (ended : window.ended = true)
    (rounds : Nat) :
    window.feed pieces rounds =
      (Symbol.input (window.left source) 1).map .symbol ++ Signal.endings rounds := by
  have none := holds.exhausted ended
  rw [feed, holds.unread_eq, holds.left_eq, ended, none]
  simp

theorem feed_open (holds : window.Holds pieces source) (ended : window.ended = false)
    (unread : window.curr < window.len) {first : UInt8} {rest : List UInt8}
    (left : window.left source = first :: rest) (rounds : Nat) :
    ∃ signals, Signal.symbols signals = rest.map .byte ∧
      window.feed pieces rounds =
        .symbol (.byte first) :: signals ++ Signal.endings rounds := by
  rw [holds.left_eq] at left
  rw [feed, holds.unread_eq, ended]
  cases here : window.bytes.toList.drop window.curr with
  | nil =>
    rw [List.drop_eq_nil_iff, Array.length_toList, ← holds.filled] at here
    omega
  | cons byte bytes =>
    rw [here, List.cons_append] at left
    cases left
    refine ⟨bytes.map (.symbol ∘ .byte) ++ pieces.flatMap Signal.ofPiece, ?_, ?_⟩
    · rw [Signal.symbols_append, Signal.symbols_pieces, ← List.map_map, Signal.symbols_map,
        List.map_append]
    · simp [Symbol.input]

end Window.Holds

theorem Signal.exists_pieces {signals : List Signal} {bytes : List UInt8}
    (shape : symbols signals = bytes.map .byte) :
    ∃ (piece : List UInt8) (pieces : List (List UInt8)), piece ++ pieces.flatten = bytes ∧
      signals = piece.map (fun byte => .symbol (.byte byte)) ++ pieces.flatMap ofPiece := by
  induction signals generalizing bytes with
  | nil =>
    cases bytes with
    | nil => exact ⟨[], [], rfl, rfl⟩
    | cons byte bytes => cases shape
  | cons signal rest ih =>
    cases signal with
    | pause =>
      obtain ⟨piece, pieces, whole, cut⟩ := ih shape
      exact ⟨[], piece :: pieces, whole, by rw [cut]; rfl⟩
    | symbol symbol =>
      cases bytes with
      | nil => cases shape
      | cons byte bytes =>
        rw [symbols_symbol, List.map_cons, List.cons.injEq] at shape
        obtain ⟨piece, pieces, whole, cut⟩ := ih shape.2
        refine ⟨byte :: piece, pieces, by rw [List.cons_append, whole], ?_⟩
        rw [shape.1, cut]
        rfl

namespace Tables

variable {tables : Tables}

theorem tokenize_complete_iff {start : Nat} {first : UInt8} {rest : List UInt8} :
    (tables.tokenize start (first :: rest)).2 = .complete ↔
      ∃ action length, tables.verdict (first :: rest) = .lexeme action length ∧
        start + length < wordLimit ∧
        (length ≠ 0 →
          (tables.tokenize (start + length) ((first :: rest).drop length)).2 = .complete) := by
  rw [tokenize]
  cases tables.verdict (first :: rest) with
  | endless => simp
  | stuck => simp
  | lexeme action length =>
    simp only [Verdict.lexeme.injEq]
    by_cases small : start + length < wordLimit
    · rw [if_pos small]
      by_cases final : length = 0
      · rw [if_pos final]
        exact ⟨fun _ => ⟨action, length, ⟨rfl, rfl⟩, small, fun onward => absurd final onward⟩,
          fun _ => rfl⟩
      · rw [if_neg final]
        constructor
        · intro complete
          exact ⟨action, length, ⟨rfl, rfl⟩, small, fun _ => complete⟩
        · rintro ⟨_, _, ⟨rfl, rfl⟩, _, complete⟩
          exact complete final
    · rw [if_neg small]
      constructor
      · intro complete
        cases complete
      · rintro ⟨_, _, ⟨rfl, rfl⟩, small', _⟩
        exact absurd small' small

theorem tokenize_ne_nil {start : Nat} {first : UInt8} {rest : List UInt8}
    (complete : (tables.tokenize start (first :: rest)).2 = .complete) :
    (tables.tokenize start (first :: rest)).1 ≠ [] := by
  obtain ⟨action, length, verdict, small, _⟩ := tokenize_complete_iff.mp complete
  rw [tokenize]
  simp only [verdict, if_pos small]
  split
  · exact List.cons_ne_nil _ _
  · exact List.cons_ne_nil _ _

theorem tokenize_earlier {start earlier : Nat} (before : earlier ≤ start) {bytes : List UInt8}
    (complete : (tables.tokenize start bytes).2 = .complete) :
    (tables.tokenize earlier bytes).2 = .complete := by
  -- Offsets matter to the ending only through overflow, and earlier ones overflow later.
  induction size : bytes.length using Nat.strongRecOn generalizing start earlier bytes with
  | ind size ih =>
    cases bytes with
    | nil =>
      rw [tokenize]
    | cons first rest =>
      rw [tokenize_complete_iff] at complete ⊢
      obtain ⟨action, length, verdict, small, later⟩ := complete
      refine ⟨action, length, verdict, by omega, ?_⟩
      intro onward
      refine ih _ ?_ (Nat.add_le_add_right before length) (later onward) rfl
      rw [← size, List.length_drop, List.length_cons]
      omega

end Tables

def CaptureTables.recorded (captures : CaptureTables) (tables : Tables) (signals : List Signal) :
    Array Cell :=
  (tables.proceed captures.reaction signals 0 (.start 0 false)
    (Array.replicate captures.cells none)).memory

/-- However often the tags on the way are run again, the first token of an input whose tokens use it
up ends with the same cells. Calls pause before the end of the input anyway, but not before the
first byte. -/
def Tables.TagsRepeatable (tables : Tables) (captures : CaptureTables) : Prop :=
  ∀ (first : UInt8) (rest : List UInt8), (tables.tokenize 0 (first :: rest)).2 = .complete →
    ∀ signals, Signal.symbols signals = rest.map .byte →
      captures.recorded tables
          (.symbol (.byte first) :: signals ++ Signal.endings (tables.states + 1)) =
        captures.recorded tables
          (.symbol (.byte first) :: (rest.map .byte).map .symbol ++
            Signal.endings (tables.states + 1))

theorem Tables.tagsRepeatable_of_settle {tables : Tables} {captures : CaptureTables}
    (settle : tables.TagsSettle captures.reaction) : tables.TagsRepeatable captures := by
  have unpaused : ∀ signals, captures.recorded tables signals =
      captures.recorded tables ((Signal.symbols signals).map .symbol) := by
    intro signals
    exact congrArg Progress.memory (proceed_symbols settle signals _ _ _)
  intro first rest _ signals shape
  refine (unpaused _).trans (Eq.trans ?_ (unpaused _).symm)
  simp only [List.cons_append, Signal.symbols_symbol, Signal.symbols_append, shape,
    Signal.symbols_map]

theorem Tables.tagsSettle_of_apart {tables : Tables} {captures : CaptureTables}
    (apart : ∀ state program, captures.tag? .backtrack state = some program → program.Apart) :
    tables.TagsSettle captures.reaction := by
  intro state cells
  unfold tagged
  split
  · change applyProgram (captures.tag? .backtrack state) none
      (applyProgram (captures.tag? .backtrack state) none cells) = _
    cases found : captures.tag? .backtrack state with
    | none =>
      simp only [CaptureTables.reaction, found]
      rfl
    | some program =>
      simp only [CaptureTables.reaction, found]
      exact Program.apply_apply (apart state program found) none cells
  · rfl

theorem shiftCells_none (distance count : Nat) :
    shiftCells distance (Array.replicate count none) = Array.replicate count none := by
  simp [shiftCells]

namespace Scanner

variable {tables : Tables} {captures : CaptureTables} {source : List UInt8}
  {window window' : Window} {cells cells' : Array Cell} {pieces pieces' : List (List UInt8)}
  {first : UInt8} {rest : List UInt8}

theorem Recorded.captures_eq (settle : tables.TagsSettle captures.reaction)
    (carried : tables.captures = some captures) {token : Token}
    (recorded : (Scanner.ofTables tables).Recorded captures.reaction source token) :
    ∃ rounds ended, token.captures = (tables.proceed captures.reaction
      ((Symbol.input (source.drop token.start) rounds).map .symbol) 0 (.start token.start ended)
      (Array.replicate captures.cells none)).memory := by
  obtain ⟨_, signals, rounds, ended, shape, captured⟩ := recorded.captured_from carried
  refine ⟨rounds, ended, ?_⟩
  rw [captured, tables.proceed_symbols settle, shape]

theorem attempted_open (carried : tables.captures = some captures)
    (holds : window.Holds pieces source) (ended : window.ended = false)
    (left : window.left source = first :: rest) (rounds : Nat) (cells : Array Cell) :
    ∃ signals, Signal.symbols signals = rest.map .byte ∧
      ((Scanner.ofTables tables).attempted captures.reaction rounds window cells pieces).memory =
        shiftCells window.curr (captures.recorded tables
          (.symbol (.byte first) :: signals ++ Signal.endings rounds)) := by
  have awaited := Window.await_holds holds
  have more : window.left source ≠ [] := left ▸ List.cons_ne_nil first rest
  obtain ⟨unread, flag⟩ := awaited.unread more
  have left' : (window.await pieces).1.left source = first :: rest := by
    rw [Window.left, awaited.curr]
    exact left
  obtain ⟨signals, shape, fed⟩ :=
    awaited.holds.feed_open (flag.trans ended) unread left' rounds
  refine ⟨signals, shape, ?_⟩
  have moved := tables.proceed_shift (captures.reaction_shifts window.curr)
    (.symbol (.byte first) :: signals ++ Signal.endings rounds) 0 (.start 0 false)
    (Array.replicate captures.cells none)
  rw [Trail.start_shift, Nat.zero_add, shiftCells_none] at moved
  rw [attempted, fed, freshCells_capturing carried, ended]
  exact congrArg Progress.memory moved

theorem attempted_ended (carried : tables.captures = some captures)
    (holds : window.Holds pieces source) (ended : window.ended = true)
    (left : window.left source = first :: rest) (rounds : Nat) (cells : Array Cell) :
    ((Scanner.ofTables tables).attempted captures.reaction rounds window cells pieces).memory =
      (tables.proceed captures.reaction
        ((Symbol.input (first :: rest) 1).map .symbol ++ Signal.endings rounds) 0
        (.start window.curr true) (Array.replicate captures.cells none)).memory := by
  have awaited := Window.await_holds holds
  have more : window.left source ≠ [] := left ▸ List.cons_ne_nil first rest
  have fed := awaited.holds.feed_ended ((awaited.unread more).2.trans ended) rounds
  rw [Window.left, awaited.curr] at fed
  rw [Window.left] at left
  rw [attempted, fed, left, freshCells_capturing carried, ended]
  rfl

/-- Two requests at the same place of a source, both before or both after the end of the input was
reported, record the same cells when tags can be repeated. -/
theorem attempted_agree (carried : tables.captures = some captures)
    (repeatable : tables.TagsRepeatable captures) (holds : window.Holds pieces source)
    (holds' : window'.Holds pieces' source) (curr : window'.curr = window.curr)
    (ended : window'.ended = window.ended) (left : window.left source = first :: rest)
    (complete : (tables.tokenize window.curr (first :: rest)).2 = .complete) :
    ((Scanner.ofTables tables).attempted captures.reaction (tables.states + 1) window' cells'
        pieces').memory =
      ((Scanner.ofTables tables).attempted captures.reaction (tables.states + 1) window cells
        pieces).memory := by
  have left' : window'.left source = first :: rest := by
    rw [Window.left, curr]
    exact left
  -- With the flag set the feed has no pauses among the bytes. Without it there are some, but
  -- repeatable tags make both attempts record what an attempt without any does.
  cases flag : window.ended with
  | true =>
    rw [attempted_ended carried holds flag left,
      attempted_ended carried holds' (ended.trans flag) left', curr]
  | false =>
    have complete' := Tables.tokenize_earlier (Nat.zero_le window.curr) complete
    obtain ⟨signals, shape, recorded⟩ := attempted_open carried holds flag left
      (tables.states + 1) cells
    obtain ⟨signals', shape', recorded'⟩ := attempted_open carried holds' (ended.trans flag) left'
      (tables.states + 1) cells'
    rw [recorded, recorded', curr, repeatable first rest complete' signals shape,
      repeatable first rest complete' signals' shape']

theorem attempted_trail (scanner : Scanner) (reaction : Reaction (Array Cell))
    (cells cells' : Array Cell) (holds : window.Holds pieces source)
    (holds' : window'.Holds pieces' source) (curr : window'.curr = window.curr)
    (ended : window'.ended = window.ended)
    (more : window.left source ≠ []) (rounds : Nat) :
    (scanner.attempted reaction rounds window' cells' pieces').trail =
      (scanner.attempted reaction rounds window cells pieces).trail := by
  have awaited := Window.await_holds holds
  have awaited' := Window.await_holds holds'
  have more' : window'.left source ≠ [] := by
    rw [Window.left, curr]
    exact more
  have shape := awaited.holds.feed_symbols rounds
  have shape' := awaited'.holds.feed_symbols rounds
  rw [Window.left, awaited.curr, (awaited.unread more).2] at shape
  rw [Window.left, awaited'.curr, (awaited'.unread more').2, curr, ended, ← shape] at shape'
  rw [attempted, attempted, (Tables.proceed_recognizes _ _ _ _ _).2,
    (Tables.proceed_recognizes _ _ _ _ _).2, shape', curr, ended]

theorem scanAfter_agree (valid : tables.Valid) (carried : tables.captures = some captures)
    (repeatable : tables.TagsRepeatable captures) (holds : window.Holds pieces source)
    (holds' : window'.Holds pieces' source) (curr : window'.curr = window.curr)
    (ended : window'.ended = window.ended)
    (complete : (tables.tokenize window.curr (window.left source)).2 = .complete)
    (tokens : Nat) (reports : Array Token) (cells cells' : Array Cell) :
    (Scanner.ofTables tables).scanAfter (fun _ token => .ok token) tokens reports
        { window := window', cells := cells' } pieces' =
      (Scanner.ofTables tables).scanAfter (fun _ token => .ok token) tokens reports
        { window, cells } pieces := by
  induction tokens generalizing window window' pieces pieces' cells cells' reports with
  | zero => rfl
  | succ tokens ih =>
    have steady := capturing_steady valid carried
    cases left : window.left source with
    | nil =>
      have left' : window'.left source = [] := by
        rw [Window.left, curr]
        exact left
      obtain ⟨turn, answered, nothing⟩ := (Scanner.ofTables tables).nextToken_nothing cells holds
        left (Scanner.ofTables tables).enoughRounds
      obtain ⟨turn', answered', nothing'⟩ := (Scanner.ofTables tables).nextToken_nothing cells'
        holds' left' (Scanner.ofTables tables).enoughRounds
      rw [scanAfter_turn answered, scanAfter_turn answered', nothing, nothing']
    | cons first rest =>
      have more : window.left source ≠ [] := left ▸ List.cons_ne_nil first rest
      have same : window'.left source = window.left source := by
        rw [Window.left, Window.left, curr]
      have more' : window'.left source ≠ [] := same ▸ more
      rw [left] at complete
      obtain ⟨action, length, verdict, small, later⟩ :=
        Tables.tokenize_complete_iff.mp complete
      rw [← left] at verdict
      obtain ⟨turn, answered, delivers⟩ :=
        nextToken_delivers steady cells holds more verdict small
      obtain ⟨turn', answered', delivers'⟩ := nextToken_delivers steady cells' holds' more'
        ((congrArg tables.verdict same).trans verdict) (curr ▸ small)
      have captured : (Scanner.ofTables tables).captured captures.reaction window' cells' pieces' =
          (Scanner.ofTables tables).captured captures.reaction window cells pieces := by
        rw [captured_capturing carried, captured_capturing carried]
        exact attempted_agree carried repeatable holds holds' curr ended left complete
      rw [scanAfter_turn answered, scanAfter_turn answered', delivers.delivery, delivers'.delivery,
        curr, captured]
      by_cases final : length = 0
      · simp only [if_pos final]
      · simp only [if_neg final]
        have curr' : turn'.session.window.curr = turn.session.window.curr := by
          rw [delivers.curr, delivers'.curr, curr]
        have ended' : turn'.session.window.ended = turn.session.window.ended := by
          rw [delivers.ended, delivers'.ended, attempted_trail _ _ cells cells' holds holds' curr
            ended more]
        have left' : turn.session.window.left source = (first :: rest).drop length := by
          rw [← left, Window.left, Window.left, delivers.curr, List.drop_drop]
        -- Both scans leave the same place and the same flag for the next token.
        refine ih delivers.holds delivers'.holds curr' ended' ?_ _ _ _
        rw [left', delivers.curr]
        exact later final

theorem attempted_start (carried : tables.captures = some captures) (piece : List UInt8)
    (pieces : List (List UInt8)) (rounds : Nat) :
    ((Scanner.ofTables tables).attempted captures.reaction rounds .empty #[]
        ((first :: piece) :: pieces)).memory =
      captures.recorded tables (.symbol (.byte first) ::
        (piece.map (fun byte => .symbol (.byte byte)) ++ pieces.flatMap Signal.ofPiece) ++
          Signal.endings rounds) := by
  have waits : Window.empty.await ((first :: piece) :: pieces) =
      (Window.empty.refill (first :: piece), pieces) := by
    have size : (Window.empty.refill (first :: piece)).len = piece.length + 1 := by
      simp [Window.refill, Window.empty, Window.emptyAt]
    change (Window.empty.refill (first :: piece)).await pieces = _
    exact Window.await_ready (.inl (size ▸ Nat.succ_pos piece.length))
  have fed := (Window.empty_holds ((first :: piece) :: pieces)).refill_feed rfl rounds
  rw [List.flatMap_cons, Signal.ofPiece, List.cons_append, List.cons_append] at fed
  rw [attempted, waits, List.tail_eq_of_cons_eq fed, freshCells_capturing carried]
  rfl

theorem scan_first (valid : tables.Valid) (carried : tables.captures = some captures)
    (piece : List UInt8) (pieces : List (List UInt8))
    (complete : (tables.tokenize 0 (first :: (piece ++ pieces.flatten))).2 = .complete) :
    ((Scanner.ofTables tables).scan ((first :: piece) :: pieces)).ending = .complete ∧
      ∃ token, ((Scanner.ofTables tables).scan ((first :: piece) :: pieces)).reports[0]? =
          some token ∧
        token.captures = captures.recorded tables (.symbol (.byte first) ::
          (piece.map (fun byte => .symbol (.byte byte)) ++ pieces.flatMap Signal.ofPiece) ++
            Signal.endings (tables.states + 1)) := by
  obtain ⟨found, scanned, bare, head, _⟩ := scanWith_tokenize (capturing_steady valid carried)
    .empty (Window.empty_holds ((first :: piece) :: pieces)) rfl rfl
  change (Scanner.ofTables tables).scan _ = _ at scanned
  rw [List.flatten_cons, List.cons_append] at scanned bare
  rw [scanned]
  refine ⟨complete, ?_⟩
  cases found with
  | nil => exact absurd bare.symm (Tables.tokenize_ne_nil complete)
  | cons token found =>
    refine ⟨token, rfl, ?_⟩
    rw [head token rfl, captured_capturing carried]
    exact attempted_start carried piece pieces (tables.states + 1)

/-- The cells of the tokens do not depend on how an input is cut, as long as it is scanned to its
end. -/
def CapturesAgree (scanner : Scanner) : Prop :=
  ∀ pieces pieces' : List (List UInt8), pieces.flatten = pieces'.flatten →
    (scanner.scan pieces).ending = .complete → (scanner.scan pieces').ending = .complete →
    ∀ (i : Nat) (token token' : Token),
      (scanner.scan pieces).reports[i]? = some token →
      (scanner.scan pieces').reports[i]? = some token' → token.captures = token'.captures

end Scanner

theorem Scan.eq_of_parts {scan : Scan Token} {reports : Array Token} {ending : Ending}
    (found : scan.reports = reports) (ended : scan.ending = ending) :
    scan = { reports, ending } := by
  cases found
  cases ended
  rfl

/-- In one piece the tag is run once and the position is kept; a pause at the backtrack point runs
it twice and the position is lost. -/
theorem rerunTables_scans :
    (Scanner.ofTables rerunTables).scan [[97, 98]] =
        { reports := #[{ action := 1, start := 0, len := 2, captures := #[none, some 1] }]
          ending := .complete } ∧
      (Scanner.ofTables rerunTables).scan [[97], [98]] =
        { reports := #[{ action := 1, start := 0, len := 2, captures := #[none, none] }]
          ending := .complete } := by
  have whole : ((Scanner.ofTables rerunTables).scan [[97, 98]]).reports =
      #[{ action := 1, start := 0, len := 2, captures := #[none, some 1] }] := by decide +kernel
  have whole' : ((Scanner.ofTables rerunTables).scan [[97, 98]]).ending = .complete := by
    decide +kernel
  have cut : ((Scanner.ofTables rerunTables).scan [[97], [98]]).reports =
      #[{ action := 1, start := 0, len := 2, captures := #[none, none] }] := by decide +kernel
  have cut' : ((Scanner.ofTables rerunTables).scan [[97], [98]]).ending = .complete := by
    decide +kernel
  exact ⟨Scan.eq_of_parts whole whole', Scan.eq_of_parts cut cut'⟩

theorem rerunTables_disagree : ¬ (Scanner.ofTables rerunTables).CapturesAgree := by
  intro agree
  obtain ⟨whole, cut⟩ := rerunTables_scans
  have same := agree [[97, 98]] [[97], [98]] rfl (by rw [whole]) (by rw [cut]) 0 _ _
    (by rw [whole]; rfl) (by rw [cut]; rfl)
  exact absurd same (by decide)

namespace Scanner

variable {tables : Tables} {captures : CaptureTables}

theorem captures_agree_of_repeatable (valid : tables.Valid)
    (carried : tables.captures = some captures) (repeatable : tables.TagsRepeatable captures) :
    (Scanner.ofTables tables).CapturesAgree := by
  intro pieces pieces' same complete _ i token token' found found'
  obtain ⟨tokens, scanned, _⟩ := scanWith_tokenize (capturing_steady valid carried) .empty
    (Window.empty_holds pieces) rfl rfl
  change (Scanner.ofTables tables).scan pieces = _ at scanned
  rw [scanned] at complete
  -- Both scans start on an empty window with the same source still to come.
  have holds' : Window.empty.Holds pieces' pieces.flatten := same ▸ Window.empty_holds pieces'
  have scans : (Scanner.ofTables tables).scan pieces' =
      (Scanner.ofTables tables).scan pieces := by
    rw [scan, scan, scanWith, scanWith, foldl_length, foldl_length, ← same]
    exact scanAfter_agree valid carried repeatable (Window.empty_holds pieces) holds' rfl rfl
      complete _ _ _ _
  rw [scans, found] at found'
  cases found'
  rfl

theorem captures_agree_of_apart {parts : PlainParts} {capture : Option CaptureParts}
    (accepted : Tables.ofParts parts capture = .ok tables)
    (carried : tables.captures = some captures)
    (apart : ∀ state program, captures.tag? .backtrack state = some program → program.Apart) :
    (Scanner.ofTables tables).CapturesAgree :=
  captures_agree_of_repeatable (Tables.valid_of_ofParts accepted) carried
    (Tables.tagsRepeatable_of_settle (Tables.tagsSettle_of_apart apart))

/-- The cells of tokens do not depend on how the input is cut exactly when tags can be repeated. -/
theorem captures_agree_iff {parts : PlainParts} {capture : Option CaptureParts}
    (accepted : Tables.ofParts parts capture = .ok tables)
    (carried : tables.captures = some captures) :
    (Scanner.ofTables tables).CapturesAgree ↔ tables.TagsRepeatable captures := by
  have valid := Tables.valid_of_ofParts accepted
  constructor
  · intro agree first rest complete signals shape
    -- Any signals after the first byte come from some pieces, and one piece has no pauses.
    obtain ⟨piece, pieces, whole, cut⟩ := Signal.exists_pieces shape
    rw [← whole] at complete
    obtain ⟨ended, token, found, recorded⟩ := scan_first valid carried piece pieces complete
    have complete' : (tables.tokenize 0
        (first :: (piece ++ pieces.flatten ++ ([] : List (List UInt8)).flatten))).2 =
          .complete := by
      rw [List.flatten_nil, List.append_nil]
      exact complete
    obtain ⟨ended', token', found', recorded'⟩ :=
      scan_first valid carried (piece ++ pieces.flatten) [] complete'
    have same : ((first :: piece) :: pieces).flatten =
        [first :: (piece ++ pieces.flatten)].flatten := by
      simp
    have agreed := agree _ _ same ended ended' 0 token token' found found'
    rw [recorded, recorded', List.flatMap_nil, List.append_nil, whole, ← cut] at agreed
    rw [agreed, List.map_map]
    rfl
  · exact captures_agree_of_repeatable valid carried

/-- The tag that moves a position on cannot be repeated. -/
theorem rerunTables_not_repeatable :
    Tables.ofParts rerunParts (some rerunCapture) = .ok rerunTables ∧
    rerunTables.captures = some rerunCaptures ∧ ¬ rerunTables.TagsRepeatable rerunCaptures :=
  ⟨rerunTables_accepted, rfl, fun repeatable =>
    rerunTables_disagree ((captures_agree_iff rerunTables_accepted rfl).mpr repeatable)⟩

theorem captures_depend_on_pieces :
    Tables.ofParts rerunParts (some rerunCapture) = .ok rerunTables ∧
    ((Scanner.ofTables rerunTables).scan [[97, 98]] =
        { reports := #[{ action := 1, start := 0, len := 2, captures := #[none, some 1] }]
          ending := .complete } ∧
      (Scanner.ofTables rerunTables).scan [[97], [98]] =
        { reports := #[{ action := 1, start := 0, len := 2, captures := #[none, none] }]
          ending := .complete }) ∧
    ¬ (Scanner.ofTables rerunTables).CapturesAgree :=
  ⟨rerunTables_accepted, rerunTables_scans, rerunTables_disagree⟩

end Scanner

end TableLexer
