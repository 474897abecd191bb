import TableLexer.Proofs.Scanning.Stages

/-! Inputs that arrive in pieces. A scan of them is a scan of the bytes they make up, and nothing in
its outcome tells how the input was cut. -/

set_option autoImplicit false

namespace TableLexer

namespace Scanner

variable {scanner : Scanner} {observer : Observer (Array Cell)}
  {reaction : Reaction (Array Cell)} {ready : Array Cell → Prop}

theorem scanWith_reports {β : Type} {report : Window → Token → Except Fault β} {line : Token → β}
    {source : List UInt8} (reporting : Reports report source line)
    (steady : scanner.Steady observer reaction ready) (session : Session)
    {pieces : List (List UInt8)} (holds : session.window.Holds pieces source)
    (fresh : session.window.curr = 0) {file : String}
    (located : session.window.currAt = Location.start file) :
    ∃ found : List Token,
      scanner.scanWith report session pieces =
        { reports := (found.map line).toArray
          ending := (scanner.tables.tokenize 0 source).2.inFile file } ∧
      found.map Token.bare = (scanner.tables.tokenize 0 source).1 ∧
      (∀ token, found.head? = some token →
        token.captures = scanner.captured reaction session.window session.cells pieces) ∧
      ∀ token ∈ found, scanner.Recorded reaction source token := by
  have all : session.window.left source = source := by
    rw [Window.left, fresh, List.drop_zero]
  have enough : (session.window.left source).length <
      pieces.foldl (fun total piece => total + piece.length) session.window.len + 2 :=
    Nat.lt_add_right 1 (Nat.lt_succ_of_le holds.left_length_le)
  have located' : session.window.currAt =
      { Location.start file with offset := session.window.curr } := by
    rw [located, fresh]
    rfl
  obtain ⟨found, finds, scanned⟩ :=
    scanAfter_tokenize reporting steady session.cells holds located' enough #[]
  have bare := finds.bare
  rw [fresh, all] at scanned bare
  refine ⟨found, ?_, bare, finds.first, finds.recorded⟩
  simpa [scanWith] using scanned

theorem scanWith_tokenize (steady : scanner.Steady observer reaction ready) (session : Session)
    {pieces : List (List UInt8)} {source : List UInt8}
    (holds : session.window.Holds pieces source) (fresh : session.window.curr = 0)
    (located : session.window.currAt = Location.start "") :
    ∃ found : List Token,
      scanner.scanWith (fun _ token => .ok token) session pieces =
        { reports := found.toArray, ending := (scanner.tables.tokenize 0 source).2 } ∧
      found.map Token.bare = (scanner.tables.tokenize 0 source).1 ∧
      (∀ token, found.head? = some token →
        token.captures = scanner.captured reaction session.window session.cells pieces) ∧
      ∀ token ∈ found, scanner.Recorded reaction source token := by
  have identity : Reports (fun _ token => .ok token) source id := fun _ _ _ _ _ => rfl
  obtain ⟨found, scanned, rest⟩ :=
    scanWith_reports identity steady session holds fresh located
  rw [List.map_id, Tables.tokenize_unnamed] at scanned
  exact ⟨found, scanned, rest⟩

theorem scan_tokenize {tables : Tables} (valid : tables.Valid)
    (chosen : scanner = .plain tables ∨ scanner = .ofTables tables)
    (pieces : List (List UInt8)) :
    (scanner.scan pieces).reports.toList.map Token.bare =
        (tables.tokenize 0 pieces.flatten).1 ∧
      (scanner.scan pieces).ending = (tables.tokenize 0 pieces.flatten).2 := by
  obtain ⟨observer, reaction, ready, steady⟩ := exists_steady valid chosen
  obtain ⟨found, scanned, bare, _⟩ := scanWith_tokenize steady .empty
    (Window.empty_holds pieces) rfl rfl
  have same : scanner.tables = tables := by rcases chosen with rfl | rfl <;> rfl
  rw [same] at scanned bare
  rw [scan, scanned]
  exact ⟨bare, rfl⟩

theorem plain_scanWith_eq {tables : Tables} (valid : tables.Valid) (session : Session)
    {pieces : List (List UInt8)} {source : List UInt8}
    (holds : session.window.Holds pieces source) (fresh : session.window.curr = 0)
    (located : session.window.currAt = Location.start "") :
    (Scanner.plain tables).scanWith (fun _ token => .ok token) session pieces =
      { reports := (tables.tokenize 0 source).1.toArray
        ending := (tables.tokenize 0 source).2 } := by
  obtain ⟨found, scanned, bare, _, recorded⟩ :=
    scanWith_tokenize (plain_steady valid) session holds fresh located
  rw [List.map_congr_left fun token member => (recorded token member).bare rfl,
    List.map_id'] at bare
  rw [scanned, bare]
  rfl

/-- A scan without captures tells nothing of how its input was cut, nor of whether the end of the
input was known from the start, be it by what it finds or by whether it halts. -/
theorem plain_scan_pieces {parts : PlainParts} {capture : Option CaptureParts} {tables : Tables}
    (accepted : Tables.ofParts parts capture = .ok tables) (pieces : List (List UInt8)) :
    ((Scanner.plain tables).scan pieces = (Scanner.plain tables).scan [pieces.flatten] ∧
      ((Scanner.plain tables).Halts pieces ↔ (Scanner.plain tables).Halts [pieces.flatten])) ∧
    (Scanner.plain tables).scan pieces =
      (Scanner.plain tables).scanWith (fun _ token => .ok token)
        (.ofBytes pieces.flatten) [] ∧
    ((Scanner.plain tables).Halts pieces ↔
      (Scanner.plain tables).HaltsFrom (.ofBytes pieces.flatten) []) := by
  have valid := Tables.valid_of_ofParts accepted
  have steady := plain_steady valid
  -- All three scan the same source from its start, which determines what they find.
  have started := Window.empty_holds pieces
  have joined := Window.empty_holds [pieces.flatten]
  have known := Window.ofBytes_holds pieces.flatten
  have cut := plain_scanWith_eq valid .empty started rfl rfl
  have whole := plain_scanWith_eq valid .empty joined rfl rfl
  have same := plain_scanWith_eq valid (.ofBytes pieces.flatten) known rfl rfl
  rw [List.flatten_singleton] at whole
  refine ⟨⟨cut.trans whole.symm, ?_⟩, cut.trans same.symm, ?_⟩
  · rw [Halts, Halts, (haltsFrom_iff steady .empty started).1,
      (haltsFrom_iff steady .empty joined).1, cut, whole]
  · rw [Halts, (haltsFrom_iff steady .empty started).1,
      (haltsFrom_iff steady (.ofBytes pieces.flatten) known).1, cut, same]

theorem plain_scan_abc :
    Tables.ofParts chainParts none = .ok chainTables ∧
    ((Scanner.plain chainTables).scan [[97], [], [98, 99]] =
        (Scanner.plain chainTables).scan [[97, 98, 99]] ∧
      ((Scanner.plain chainTables).Halts [[97], [], [98, 99]] ↔
        (Scanner.plain chainTables).Halts [[97, 98, 99]])) ∧
    (Scanner.plain chainTables).scan [[97], [], [98, 99]] =
      (Scanner.plain chainTables).scanWith (fun _ token => .ok token) (.ofBytes [97, 98, 99]) [] ∧
    ((Scanner.plain chainTables).Halts [[97], [], [98, 99]] ↔
      (Scanner.plain chainTables).HaltsFrom (.ofBytes [97, 98, 99]) []) :=
  ⟨chainTables_accepted, plain_scan_pieces chainTables_accepted [[97], [], [98, 99]]⟩

end Scanner

end TableLexer
