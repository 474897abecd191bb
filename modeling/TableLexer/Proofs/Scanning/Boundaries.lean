import TableLexer.Proofs.Scanning.Halting

/-! Token boundaries. Where a token ends a scan goes on as if the rest of the input were all there
is. Whatever the first attempt read beyond its token, the end of the input included, leaves no
trace but the offset. -/

set_option autoImplicit false

namespace TableLexer

def Token.shift (distance : Nat) (token : Token) : Token :=
  { token with start := token.start + distance }

def Ending.shift (distance : Nat) : Ending → Ending
  | .failed error location =>
    .failed (error.shift distance) { location with offset := location.offset + distance }
  | ending => ending

theorem Ending.shift_endless_iff {distance : Nat} {ending : Ending} :
    ending.shift distance = .endless ↔ ending = .endless := by
  cases ending <;> simp [shift]

namespace Tables

variable {tables : Tables}

theorem tokenize_shift (start distance : Nat) (bytes : List UInt8)
    (small : start + distance + bytes.length < wordLimit) :
    tables.tokenize (start + distance) bytes =
      ((tables.tokenize start bytes).1.map (Token.shift distance),
        (tables.tokenize start bytes).2.shift distance) := by
  fun_induction tables.tokenize start bytes with
  | case1 start =>
    rw [tokenize]
    rfl
  | case2 start first rest endless =>
    rw [tokenize_of_endless _ (List.cons_ne_nil first rest) endless]
    rfl
  | case3 start first rest stuck =>
    rw [tokenize_of_stuck _ (List.cons_ne_nil first rest) stuck]
    rfl
  | case4 start first rest action found small' token =>
    rw [tokenize_of_lexeme _ (List.cons_ne_nil first rest) found, if_pos, if_pos rfl]
    · rfl
    · omega
  | case5 start first rest action length found small' token more later ih =>
    have within := verdict_length_le found
    have shorter : ((first :: rest).drop length).length + length = (first :: rest).length := by
      rw [List.length_drop, Nat.sub_add_cancel within]
    have moved := ih (by omega)
    rw [Nat.add_right_comm] at moved
    rw [tokenize_of_lexeme _ (List.cons_ne_nil first rest) found, if_pos (by omega),
      if_neg more, moved]
    rfl
  | case6 start first rest action length found large =>
    have within := verdict_length_le found
    omega

end Tables

namespace Scanner

section

variable {scanner : Scanner} {observer : Observer (Array Cell)}
  {reaction : Reaction (Array Cell)} {ready : Array Cell → Prop} {source : List UInt8}
  {window : Window} {cells : Array Cell} {pieces : List (List UInt8)} {turn : Turn}
  {token : Token}

theorem verdict_of_token (steady : scanner.Steady observer reaction ready)
    (holds : window.Holds pieces source)
    (answered : scanner.nextToken { window, cells } pieces = .ok turn)
    (delivered : turn.delivery = .token token) :
    scanner.tables.verdict (window.left source) = .lexeme token.action token.len ∧
      token.start = window.curr ∧ (scanner.capturing = false → token.captures = #[]) := by
  have more := left_of_turn holds answered (delivered ▸ nofun)
  have answers : scanner.Answers source window (scanner.tables.verdict (window.left source))
      (scanner.attempted reaction (scanner.tables.states + 1) window cells pieces)
      (scanner.nextToken { window, cells } pieces) :=
    nextToken_answers steady holds more (Nat.le_succ scanner.tables.states)
  rw [answered] at answers
  cases verdict : scanner.tables.verdict (window.left source) with
  | endless =>
    rw [verdict] at answers
    obtain ⟨turn', same, endless⟩ := answers
    cases same
    rw [delivered] at endless
    cases endless
  | stuck =>
    rw [verdict] at answers
    obtain ⟨turn', same, failed, _⟩ := answers
    cases same
    rw [delivered] at failed
    cases failed
  | lexeme action length =>
    rw [verdict, Answers] at answers
    split at answers
    · obtain ⟨turn', same, delivers⟩ := answers
      cases same
      have delivery := delivers.delivery
      rw [delivered, Delivery.token.injEq] at delivery
      rw [delivery]
      exact ⟨rfl, rfl, fun plain => if_neg (plain ▸ Bool.false_ne_true)⟩
    · cases answers

end

variable {tables : Tables}

theorem plain_scan_eq (valid : tables.Valid) (source : List UInt8) :
    (Scanner.plain tables).scan [source] =
      { reports := (tables.tokenize 0 source).1.toArray
        ending := (tables.tokenize 0 source).2 } := by
  have scanned := plain_scanWith_eq valid .empty (Window.empty_holds [source]) rfl rfl
  rw [List.flatten_singleton] at scanned
  exact scanned

/-- After its first token a scan is the scan of the rest, with all offsets counted from there, and
it ends exactly when that scan ends. -/
theorem plain_scan_rest {parts : PlainParts} {capture : Option CaptureParts}
    (accepted : Tables.ofParts parts capture = .ok tables) {source : List UInt8}
    (small : source.length < wordLimit) {turn : Turn} {token : Token}
    (answered : (Scanner.plain tables).nextToken .empty [source] = .ok turn)
    (delivered : turn.delivery = .token token) (nonempty : 0 < token.len) :
    (Scanner.plain tables).scan [source] =
      { reports := #[token] ++
          ((Scanner.plain tables).scan [source.drop token.len]).reports.map (.shift token.len)
        ending := ((Scanner.plain tables).scan [source.drop token.len]).ending.shift token.len } ∧
    ((Scanner.plain tables).Halts [source] ↔
      (Scanner.plain tables).Halts [source.drop token.len]) := by
  have valid := Tables.valid_of_ofParts accepted
  have holds := Window.empty_holds [source]
  rw [List.flatten_singleton] at holds
  have all : Window.empty.left source = source := List.drop_zero
  have more : source ≠ [] := all ▸ left_of_turn holds answered (delivered ▸ nofun)
  obtain ⟨found, start, bare⟩ := verdict_of_token (plain_steady valid) holds answered delivered
  rw [all] at found
  change tables.verdict source = _ at found
  have within := Tables.verdict_length_le found
  -- Past the lexeme the bytes are those of the rest, and only their offsets differ.
  have moved := tables.tokenize_shift 0 token.len (source.drop token.len) (by
    rw [List.length_drop]
    omega)
  rw [Nat.zero_add] at moved
  have same : token = { action := token.action, start := 0, len := token.len, captures := #[] } := by
    rw [← bare rfl, ← show token.start = 0 from start]
  have tokenized := Tables.tokenize_of_lexeme 0 more found
  rw [Nat.zero_add, if_pos (by omega), if_neg (by omega), moved, ← same] at tokenized
  constructor
  · rw [plain_scan_eq valid, plain_scan_eq valid, tokenized]
    simp
  · rw [halts_iff_tokenize valid (.inl rfl), halts_iff_tokenize valid (.inl rfl),
      List.flatten_singleton, List.flatten_singleton, tokenized, Ne, Ne,
      Ending.shift_endless_iff]

/-- The first attempt reads on to the end of the input and finds its token behind, and the second
one takes a transition on the end of the input. -/
theorem plain_scan_rest_ab :
    Tables.ofParts chainParts none = .ok chainTables ∧
    ∃ turn token, (Scanner.plain chainTables).nextToken .empty [[97, 98]] = .ok turn ∧
      turn.delivery = .token token ∧ token.len = 1 ∧
      (Scanner.plain chainTables).scan [[97, 98]] =
        { reports := #[token] ++
            ((Scanner.plain chainTables).scan [[98]]).reports.map (.shift 1)
          ending := ((Scanner.plain chainTables).scan [[98]]).ending.shift 1 } := by
  have requested : ((Scanner.plain chainTables).nextToken .empty [[97, 98]]).toOption.map
      Turn.delivery =
        some (.token { action := 5, start := 0, len := 1, captures := #[] }) := by
    decide +kernel
  obtain ⟨turn, answered, delivered⟩ := Option.map_eq_some_iff.mp requested
  rw [toOption_eq_some_iff] at answered
  have rest := plain_scan_rest chainTables_accepted (by decide) answered delivered (by decide)
  exact ⟨chainTables_accepted, turn, _, answered, delivered, rfl, rest.1⟩

end Scanner

end TableLexer
