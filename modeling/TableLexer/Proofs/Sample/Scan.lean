import TableLexer.Proofs.Sample.Reference

/-! Scans of the sample grammar. In whatever pieces a source arrives, its scan is the one way to cut
it into longest words, with the cells that their places call for. -/

set_option autoImplicit false

namespace TableLexer.Sample

namespace Made

variable {tables : Tables} {captures : CaptureTables} (made : Made tables captures)
  {source : List UInt8} (small : source.length < wordLimit) {start : Nat}

include made small

theorem tokenize_cases (inside : start < source.length) :
    (∃ word kind, Longest IsWord (source.drop start) word kind ∧
      tables.tokenize start (source.drop start) =
        ({ action := kind.action, start, len := word.length, captures := #[] } ::
            (tables.tokenize (start + word.length) (source.drop (start + word.length))).1,
          (tables.tokenize (start + word.length) (source.drop (start + word.length))).2)) ∨
    (∀ word kind, word <+: source.drop start → ¬ IsWord word kind) ∧
      tables.tokenize start (source.drop start) =
        ([], .failed (.emptyToken start) { Location.start "" with offset := start }) := by
  have room : (source.drop start).length = source.length - start := List.length_drop
  have more : source.drop start ≠ [] := by
    rw [ne_eq, List.drop_eq_nil_iff]
    omega
  rcases made.verdict_cases (source.drop start) with
    ⟨word, kind, longest, verdict⟩ | ⟨none, verdict⟩
  · refine .inl ⟨word, kind, longest, ?_⟩
    have nonempty : word.length ≠ 0 := fun empty =>
      longest.labelled.ne_nil (List.eq_nil_of_length_eq_zero empty)
    have fits := longest.within.length_le
    have offset : start + word.length < wordLimit := by omega
    rw [Tables.tokenize_of_lexeme start more verdict, if_pos offset, if_neg nonempty,
      List.drop_drop]
  · exact .inr ⟨none, Tables.tokenize_of_stuck start more verdict⟩

theorem tokenization {found : List Token} (within : start ≤ source.length)
    (bare : found.map Token.bare = (tables.tokenize start (source.drop start)).1)
    (recorded : ∀ token ∈ found, (Scanner.ofTables tables).Recorded captures.reaction source
      token) :
    Tokenization source start found (tables.tokenize start (source.drop start)).2 := by
  induction found generalizing start with
  | nil =>
    rcases Nat.lt_or_eq_of_le within with inside | rfl
    · rcases made.tokenize_cases small inside with ⟨word, kind, _, same⟩ | ⟨none, same⟩
      · rw [same] at bare
        cases bare
      · rw [same]
        exact .stuck inside none
    · rw [List.drop_length, Tables.tokenize]
      exact .done
  | cons token later ih =>
    rw [List.forall_mem_cons] at recorded
    rcases Nat.lt_or_eq_of_le within with inside | rfl
    · rcases made.tokenize_cases small inside with ⟨word, kind, longest, same⟩ | ⟨_, same⟩
      · rw [same, List.map_cons, List.cons.injEq] at bare
        obtain ⟨head, onward⟩ := bare
        -- The first token is the longest word, and the others start where it ends.
        have fits := longest.within.length_le
        rw [List.length_drop] at fits
        have rest := ih (by omega) onward recorded.2
        obtain ⟨action, place, length, cells⟩ := token
        cases head
        have captured : cells = _ := made.captures_eq recorded.1 longest
        rw [same, captured]
        exact .token longest rest
      · rw [same] at bare
        cases bare
    · rw [List.drop_length, Tables.tokenize] at bare
      cases bare

theorem scan_tokenization {pieces : List (List UInt8)} (whole : pieces.flatten = source) :
    ∃ tokens ending, (Scanner.ofTables tables).scan pieces =
        { reports := tokens.toArray, ending } ∧ Tokenization source 0 tokens ending := by
  obtain ⟨found, scanned, bare, _, recorded⟩ := Scanner.scanWith_tokenize
    (Scanner.capturing_steady made.valid made.carried) .empty (Window.empty_holds pieces) rfl rfl
  rw [whole] at scanned bare recorded
  exact ⟨found, _, scanned, made.tokenization small (Nat.zero_le _) bare recorded⟩

end Made

/-- The tables of the sample grammar can be made. In any pieces, a scan with them cuts a source into
longest words, and ends at the first byte outside of line comments with which no word begins. Every
token has two cells, and a fraction that is marked lies within its token. -/
theorem scan_reference : ∃ tables, Sample.tables = .ok tables ∧
    ∀ pieces : List (List UInt8), pieces.flatten.length < wordLimit →
      (∀ tokens ending, (Scanner.ofTables tables).scan pieces =
          { reports := tokens.toArray, ending } ↔
        Tokenization pieces.flatten 0 tokens ending) ∧
      (((Scanner.ofTables tables).scan pieces).ending = .complete ↔
        ∀ place, ¬ Stray pieces.flatten place) ∧
      (∀ stop, (∃ location, ((Scanner.ofTables tables).scan pieces).ending =
          .failed (.emptyToken stop) location) ↔
        Stray pieces.flatten stop ∧ ∀ place < stop, ¬ Stray pieces.flatten place) ∧
      ∀ token ∈ ((Scanner.ofTables tables).scan pieces).reports, token.captures.size = 2 ∧
        ∀ place, token.captures[fractionCell.val]? = some (some place) →
          token.start < place ∧ place < token.start + token.len := by
  obtain ⟨tables, captures, made⟩ := exists_made
  refine ⟨tables, made.made, fun pieces small => ?_⟩
  obtain ⟨found, ended, scanned, tokenization⟩ := made.scan_tokenization small rfl
  rw [scanned]
  refine ⟨?_, tokenization.complete_iff, fun stop => tokenization.failed_iff, ?_⟩
  · intro tokens ending
    constructor
    · intro same
      cases same
      exact tokenization
    · intro tokenization'
      obtain ⟨rfl, rfl⟩ := tokenization.unique tokenization'
      rfl
  · intro token member
    exact tokenization.cells_sound token (List.mem_toArray.mp member)

/-- A number that is cut at its point is one token with its fraction marked, and no word begins with
an exclamation mark. -/
theorem scan_point_cut : ∃ tables, Sample.tables = .ok tables ∧
    [[49, 46], [53]].flatten.length < wordLimit ∧
    (Scanner.ofTables tables).scan [[49, 46], [53]] =
      { reports := #[{ action := 1, start := 0, len := 3, captures := #[some 2, some 2] }]
        ending := .complete } ∧
    ∃ location, ((Scanner.ofTables tables).scan [[55, 46], [33]]).ending =
      .failed (.emptyToken 2) location := by
  obtain ⟨tables, made, scans⟩ := scan_reference
  have number : IsWord [49, 46, 53] .number :=
    mem_number.mpr (.inr ⟨[49], [53], many_single rfl, many_single rfl, rfl⟩)
  have longest : Longest IsWord ([49, 46, 53].drop 0) [49, 46, 53] .number :=
    ⟨List.prefix_rfl, number, fun within _ => within.length_le⟩
  refine ⟨tables, made, by decide, ?_, ?_⟩
  · exact ((scans [[49, 46], [53]] (by decide)).1 _ _).mpr (.token longest .done)
  · obtain ⟨_, _, failed, _⟩ := scans [[55, 46], [33]] (by decide)
    exact (failed 2).mpr (by decide)

end TableLexer.Sample
