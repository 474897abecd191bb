import TableLexer.Proofs.Automaton.Acceptance
import TableLexer.Proofs.Automaton.Reading

/-! When an automaton has no tables. Compiling and packing fail only by numbers that are no table
entries, and of what validation checks only the count of states and the targets can be wrong: the
packer gets the lengths, the rows and the programs right whatever it packs. -/

set_option autoImplicit false

namespace TableLexer

def TableError.OfAutomaton : TableError → Prop
  | .noStates => True
  | .tooManyStates _ => True
  | .overflow _ => True
  | .targetOutOfRange _ _ _ _ => True
  | _ => False

theorem tableEntry_failsOnly (field : Field) (value : Nat) :
    FailsOnly TableError.OfAutomaton (tableEntry field value) := by
  unfold tableEntry
  split
  · exact failsOnly_ok _
  · exact failsOnly_error trivial

theorem Interner.intern_failsOnly (interner : Interner) (program : Program) :
    FailsOnly TableError.OfAutomaton (interner.intern program) := by
  unfold intern
  split
  · exact failsOnly_ok _
  · split
    · exact failsOnly_ok _
    · exact (tableEntry_failsOnly _ _).bind fun _ _ => failsOnly_ok _

theorem Tagged.compile_failsOnly (tagged : Tagged) (field : Field) (interner : Interner) :
    FailsOnly TableError.OfAutomaton (tagged.compile field interner) :=
  (tableEntry_failsOnly _ _).bind fun _ _ =>
    (Interner.intern_failsOnly _ _).bind fun _ _ => failsOnly_ok _

theorem Move.compile_failsOnly (move : Move) (interner : Interner) :
    FailsOnly TableError.OfAutomaton (move.compile interner) :=
  (tableEntry_failsOnly _ _).bind fun _ _ =>
    (Interner.intern_failsOnly _ _).bind fun _ _ => failsOnly_ok _

theorem compileOptional_failsOnly {α : Type}
    {compile : α → Interner → Except TableError ((Int16 × Int16) × Interner)}
    (each : ∀ item interner, FailsOnly TableError.OfAutomaton (compile item interner))
    (item : Option α) (interner : Interner) :
    FailsOnly TableError.OfAutomaton (compileOptional item compile interner) := by
  cases item with
  | none => exact failsOnly_ok _
  | some found => exact (each found interner).bind fun _ _ => failsOnly_ok _

theorem compileMoves_failsOnly (moves : List (Option Move)) (interner : Interner) :
    FailsOnly TableError.OfAutomaton (compileMoves moves interner) := by
  induction moves generalizing interner with
  | nil => exact failsOnly_ok _
  | cons move rest ih =>
    refine (compileOptional_failsOnly Move.compile_failsOnly move interner).bind fun compiled _ => ?_
    exact (ih compiled.2).bind fun _ _ => failsOnly_ok _

theorem State.compile_failsOnly (state : State) (interner : Interner) :
    FailsOnly TableError.OfAutomaton (state.compile interner) := by
  unfold compile
  refine (compileOptional_failsOnly (fun tagged => tagged.compile_failsOnly _) _ _).bind
    fun marked _ => ?_
  refine (compileOptional_failsOnly (fun tagged => tagged.compile_failsOnly _) _ _).bind
    fun accepted _ => ?_
  dsimp only
  split
  · exact failsOnly_ok _
  · exact (compileMoves_failsOnly _ _).bind fun _ _ => failsOnly_ok _

theorem compileStates_failsOnly (states : List State) :
    FailsOnly TableError.OfAutomaton (compileStates states) :=
  failsOnly_foldlM (fun _ state _ =>
    (state.compile_failsOnly _).bind fun _ _ => failsOnly_ok _) _

theorem Packed.place_failsOnly (packed : Packed) (state : Nat) (row : Row) :
    FailsOnly TableError.OfAutomaton (packed.place state row) := by
  have entry := tableEntry_failsOnly .base (firstFit packed.check row)
  unfold place
  dsimp only
  cases made : tableEntry .base (firstFit packed.check row) with
  | ok base => exact failsOnly_ok _
  | error error => exact failsOnly_error (entry error made)

theorem pack_failsOnly (rows : List (Nat × Row)) :
    FailsOnly TableError.OfAutomaton (pack rows) :=
  failsOnly_foldlM (fun packed entry _ => packed.place_failsOnly entry.1 entry.2) _

theorem checkTarget_failsOnly (field : Field) (index : Nat) (target : Int16) (states : Nat) :
    FailsOnly TableError.OfAutomaton (checkTarget field index target states) := by
  unfold checkTarget
  split
  · exact failsOnly_error trivial
  · exact failsOnly_ok _

/-- Nothing is wrong with entries of the right shape but the count of states and the targets. -/
theorem PlainParts.Shaped.validate_failsOnly {parts : PlainParts} (shaped : parts.Shaped) :
    FailsOnly TableError.OfAutomaton parts.validate := by
  unfold validate
  dsimp only
  split
  · exact failsOnly_error trivial
  split
  · exact failsOnly_error trivial
  simp only [expectLength_eq_ok_iff.mpr shaped.backtrack_size,
    expectLength_eq_ok_iff.mpr shaped.fallback_size, expectLength_eq_ok_iff.mpr shaped.check_size,
    ok_bind]
  refine FailsOnly.bind (failsOnly_forM ?_) fun _ _ => failsOnly_forM ?_
  · intro state member
    rw [List.mem_range] at member
    unfold checkState
    by_cases row : 0 ≤ parts.base.getD state 0
    · have fits : checkRow .base state (parts.base.getD state 0) parts.trans.size = .ok () :=
        checkRow_eq_ok_iff.mpr ⟨row, shaped.row_fits state member row⟩
      rw [if_pos row, fits]
      exact checkTarget_failsOnly _ _ _ _
    · rw [if_neg row]
      exact checkTarget_failsOnly _ _ _ _
  · intro slot _
    unfold checkSlot
    split
    · exact checkTarget_failsOnly _ _ _ _
    · exact failsOnly_ok _

theorem Tables.ofParts_failsOnly {parts : PlainParts} (shaped : parts.Shaped)
    {capture : Option CaptureParts} (served : ∀ given, capture = some given →
      ∃ captures, CaptureTables.ofParts parts given = .ok captures) :
    FailsOnly TableError.OfAutomaton (Tables.ofParts parts capture) := by
  refine shaped.validate_failsOnly.bind fun _ _ => ?_
  cases capture with
  | none => exact failsOnly_ok _
  | some given =>
    obtain ⟨captures, made⟩ := served given rfl
    have mapped : (some given).mapM (CaptureTables.ofParts parts) = .ok (some captures) := by
      rw [Option.mapM_some, made]
      rfl
    rw [mapped]
    exact failsOnly_ok _

namespace Automaton

variable {automaton : Automaton} {tables : Tables}

theorem tables_failsOnly (automaton : Automaton) :
    FailsOnly TableError.OfAutomaton automaton.tables := by
  unfold Automaton.tables
  by_cases many : maxStates < automaton.size
  · rw [if_pos many]
    exact failsOnly_error trivial
  rw [if_neg many]
  refine (compileStates_failsOnly _).bind fun ⟨lines, interner⟩ compiled => ?_
  refine (pack_failsOnly _).bind fun packed placed => ?_
  have made := compilation_of_ok (Nat.not_lt.mp many) compiled
  have shaped : (PlainParts.ofLines lines packed).Shaped :=
    PlainParts.ofLines_shaped (made.laid (fun _ targets _ => targets) placed) made.final
  dsimp only
  split
  · exact Tables.ofParts_failsOnly shaped nofun
  · refine (pack_failsOnly _).bind fun packedCode placedCode => ?_
    refine Tables.ofParts_failsOnly shaped ?_
    rintro _ ⟨⟩
    exact made.captures_succeed placed placedCode

theorem numbered_of_tables (made : automaton.tables = .ok tables) :
    ∀ state ∈ automaton.states, state.Numbered := by
  obtain ⟨lines, interner, packed, built⟩ := built_of_tables made
  intro state member
  obtain ⟨place, listed⟩ := Array.mem_iff_getElem?.mp member
  have mirrors := built.mirrors listed
  constructor
  · intro tagged accepts
    obtain ⟨base, _, action⟩ := mirrors.base
    rw [accepts, Option.map_some, finalAction?_eq_some_iff] at action
    have low := base.le_toInt
    exact Int.ofNat_lt.mp (by omega)
  · intro tagged marks
    obtain ⟨entry, _, action⟩ := mirrors.backtrack
    rw [marks, Option.map_some, entryValue?_eq_some_iff] at action
    have high := entry.toInt_lt
    exact Int.ofNat_lt.mp (by omega)

/-- A target is looked up whether it became the fallback of its row or took a slot, and validation
has seen both. -/
theorem leads_of_tables (made : automaton.tables = .ok tables) :
    ∀ state ∈ automaton.states, state.Leads automaton.size := by
  obtain ⟨lines, interner, packed, built⟩ := built_of_tables made
  intro state member unfinished move moved
  obtain ⟨place, listed⟩ := Array.mem_iff_getElem?.mp member
  have inside := built.inside listed
  have mirrors := built.mirrors listed
  have row : 0 ≤ tables.parts.base.getD place 0 := by
    refine Tables.Valid.row_of_open inside ?_
    rw [mirrors.final?_eq, unfinished, Option.map_none]
  obtain ⟨column, within, listed'⟩ := List.mem_iff_getElem.mp moved
  rw [Vector.length_toList] at within
  rw [Vector.getElem_toList] at listed'
  obtain ⟨base, target, based, found, value⟩ := mirrors.next unfinished column within
  obtain ⟨target', found', known⟩ := built.valid.next_known inside row within
  rw [Tables.Valid.base_eq inside] at based
  cases based
  rw [found] at found'
  cases found'
  rw [listed', Option.map_some] at value
  exact built.states_eq ▸ known _ value

/-- When an automaton has tables. The only causes for which it has none are the count of its
states, a number that is no table entry, and a target that is no state. It has none unless there is
a state, there are no more than fit, and all actions and targets are in range; and it has tables
when besides there are few rows and the code of its programs fits. -/
theorem tables_outcome (automaton : Automaton) :
    (∀ error, automaton.tables = .error error → error.OfAutomaton) ∧
    (∀ tables, automaton.tables = .ok tables →
      0 < automaton.size ∧ automaton.size ≤ maxStates ∧
        (∀ state ∈ automaton.states, state.Numbered) ∧
        ∀ state ∈ automaton.states, state.Leads automaton.size) ∧
    (automaton.Fits → ∃ tables, automaton.tables = .ok tables) := by
  refine ⟨automaton.tables_failsOnly, ?_, Fits.tables_succeed⟩
  intro tables made
  obtain ⟨lines, interner, packed, built⟩ := built_of_tables made
  rw [← built.states_eq]
  refine ⟨built.valid.states_pos, built.valid.states_le, numbered_of_tables made, ?_⟩
  rw [built.states_eq]
  exact leads_of_tables made

def stray : Automaton where
  states := #[{ State.empty with
    moves := State.empty.moves.set 98 (some { target := 1, record := [] }) }]

theorem letterAutomaton_fits : letterAutomaton.Fits := by
  have listed : ∀ spec ∈ letterAutomaton.states,
      spec = letterAutomaton.states[0] ∨ spec = letterAutomaton.states[1] := by
    intro spec member
    simpa [letterAutomaton] using member
  refine ⟨by decide, by decide, by decide, ?_, ?_, by decide +kernel⟩
  · intro spec member
    rcases listed spec member with rfl | rfl
    · exact ⟨nofun, nofun⟩
    · refine ⟨?_, nofun⟩
      rintro _ ⟨⟩
      decide
  · intro spec member unfinished move moved
    rcases listed spec member with rfl | rfl
    · have moved : some move ∈ State.empty.moves.set 97
          (some { target := 1, record := [.mark firstCell] }) := Vector.mem_toList_iff.mp moved
      rcases Vector.mem_or_eq_of_mem_set moved with empty | set
      · cases Vector.eq_of_mem_replicate empty
      · cases set
        decide
    · cases unfinished

/-- The one automaton has no tables, for its target is no state; the other is small and has some. -/
theorem stray_outcome :
    (∃ error, stray.tables = .error error ∧ error.OfAutomaton) ∧
    letterAutomaton.Fits ∧ ∃ tables, letterAutomaton.tables = .ok tables ∧
      ∀ state ∈ letterAutomaton.states, state.Leads letterAutomaton.size := by
  constructor
  · obtain ⟨causes, sane, _⟩ := stray.tables_outcome
    cases made : stray.tables with
    | error error => exact ⟨error, rfl, causes error made⟩
    | ok tables =>
      obtain ⟨_, _, _, leads⟩ := sane tables made
      have moved : some { target := 1, record := [] } ∈
          (State.empty.moves.set 98 (some { target := 1, record := [] })).toList :=
        Vector.mem_toList_iff.mpr (Vector.mem_set (by decide))
      exact absurd (leads _ (Array.mem_singleton.mpr rfl) rfl _ moved) (by decide)
  · obtain ⟨_, sane, succeeds⟩ := letterAutomaton.tables_outcome
    obtain ⟨tables, made⟩ := succeeds letterAutomaton_fits
    exact ⟨letterAutomaton_fits, tables, made, (sane tables made).2.2.2⟩

end Automaton

end TableLexer
