import TableLexer.Proofs.Scanning.Reruns
import TableLexer.Proofs.Tables.Loading

/-! What the cells of a token hold. Programs only move positions about, and a record program writes
the place after the byte it records. The attempt for a token begins with all cells unset, so the
token has no position from before its own first byte, and none past the input. -/

set_option autoImplicit false

namespace TableLexer

/-- So many cells, each of them unset or with a position after `low` and up to `high`. -/
structure CellsWithin (count low high : Nat) (cells : Array Cell) : Prop where
  size : cells.size = count
  bounds : ∀ position, some position ∈ cells → low < position ∧ position ≤ high

namespace CellsWithin

variable {count low high : Nat} {cells : Array Cell}

theorem unset (count low high : Nat) :
    CellsWithin count low high (Array.replicate count none) where
  size := Array.size_replicate
  bounds position set := by
    cases Array.eq_of_mem_replicate set

theorem applyProgram (holds : CellsWithin count low high cells) {mark : Cell}
    (marked : ∀ position, mark = some position → low < position ∧ position ≤ high)
    (program : Option Program) :
    CellsWithin count low high (applyProgram program mark cells) where
  size := (size_applyProgram program mark cells).trans holds.size
  bounds position set := by
    rcases mem_applyProgram set with earlier | written
    · exact holds.bounds position earlier
    · exact marked position written

end CellsWithin

theorem Tables.proceed_within (tables : Tables) (captures : CaptureTables)
    {count low high rounds : Nat} {signals : List Signal} {bytes : List UInt8} {cells : Array Cell}
    (shape : Signal.symbols signals = Symbol.input bytes rounds) (more : bytes ≠ [])
    (room : low + bytes.length ≤ high) (state : Nat) (ended : Bool)
    (holds : CellsWithin count low high cells) :
    CellsWithin count low high
      (tables.proceed captures.reaction signals state (.start low ended) cells).memory := by
  refine proceed_keeps low high ?_ ?_ signals state (.start low ended) cells ?_ ?_ holds
  · intro point state cells holds
    refine holds.applyProgram ?_ (captures.tag? point state)
    nofun
  · intro state symbol position cells after before holds
    refine holds.applyProgram ?_ (captures.record? state symbol)
    rintro _ ⟨⟩
    exact ⟨after, before⟩
  · obtain ⟨first, others, rfl⟩ := List.exists_cons_of_ne_nil more
    intro symbol rest ahead
    rw [shape] at ahead
    cases ahead
    exact Nat.lt_succ_self low
  · rw [shape, Symbol.room_input]
    exact room

namespace Scanner

variable {tables : Tables} {captures : CaptureTables}

theorem Recorded.within (carried : tables.captures = some captures) {source : List UInt8}
    {token : Token} (recorded : (Scanner.ofTables tables).Recorded captures.reaction source token) :
    CellsWithin captures.cells token.start source.length token.captures := by
  obtain ⟨more, signals, rounds, ended, shape, captured⟩ := recorded.captured_from carried
  have room : token.start + (source.drop token.start).length ≤ source.length := by
    have inside : token.start < source.length := by
      rw [Ne, List.drop_eq_nil_iff] at more
      exact Nat.lt_of_not_le more
    rw [List.length_drop]
    omega
  rw [captured]
  exact tables.proceed_within captures shape more room 0 ended (.unset _ _ _)

/-- Every token of a scan has as many cells as its tables demand, and in those that are set places
after its start, none of them past the input. The cells are those of an attempt of its own, on the
bytes from its start and with all cells unset at first. -/
theorem captures_own (loaded : tables.Loaded) (carried : tables.captures = some captures)
    (pieces : List (List UInt8)) :
    ∀ token ∈ ((Scanner.ofTables tables).scan pieces).reports,
      token.captures.size = captures.cells ∧
      (∀ position, some position ∈ token.captures →
        token.start < position ∧ position ≤ pieces.flatten.length) ∧
      ∃ signals rounds ended,
        Signal.symbols signals = Symbol.input (pieces.flatten.drop token.start) rounds ∧
        token.captures = (tables.proceed captures.reaction signals 0 (.start token.start ended)
          (Array.replicate captures.cells none)).memory := by
  have steady := capturing_steady loaded.valid carried
  obtain ⟨found, scanned, _, _, recorded⟩ :=
    scanWith_tokenize steady .empty (Window.empty_holds pieces) rfl rfl
  intro token reported
  rw [scan, scanned, List.mem_toArray] at reported
  have own := recorded token reported
  have within := own.within carried
  exact ⟨within.size, within.bounds, (own.captured_from carried).2⟩

theorem rerunTables_own :
    rerunTables.Loaded ∧ rerunTables.captures = some rerunCaptures ∧
      ∃ token ∈ ((Scanner.ofTables rerunTables).scan [[97, 98]]).reports,
        token.start = 0 ∧ token.captures = #[none, some 1] ∧
        token.captures.size = rerunCaptures.cells ∧
        ∀ position, some position ∈ token.captures → 0 < position ∧ position ≤ 2 := by
  have loaded : rerunTables.Loaded := .ofParts rerunTables_accepted
  have reported : { action := 1, start := 0, len := 2, captures := #[none, some 1] } ∈
      ((Scanner.ofTables rerunTables).scan [[97, 98]]).reports := by
    rw [rerunTables_scans.1]
    exact Array.mem_singleton.mpr rfl
  obtain ⟨size, bounds, _⟩ := captures_own loaded rfl [[97, 98]] _ reported
  exact ⟨loaded, rfl, _, reported, rfl, rfl, size, bounds⟩

end Scanner

end TableLexer
