import TableLexer.Proofs.Automaton.Acceptance
import TableLexer.Proofs.Automaton.Reading
import TableLexer.Proofs.Recognition.Lexeme
import TableLexer.Sample.Grammar

/-! The tables of the sample grammar. They can be made, and an attempt reads in them what the states
of the grammar say: their kinds, their moves and their programs. -/

set_option autoImplicit false

namespace TableLexer.Sample

theorem Kind.action_lt (kind : Kind) : kind.action < 32768 := by
  cases kind <;> decide

namespace StateName

theorem index_lt (state : StateName) : state.index < 16 := by
  cases state <;> decide

theorem listed (state : StateName) : automaton.states[state.index]? = some state.toState := by
  cases state <;> rfl

theorem exists_index {number : Nat} (small : number < 16) :
    ∃ state : StateName, state.index = number := by
  have named : all[number]?.isSome := by
    rw [List.getElem?_eq_getElem small]
    rfl
  obtain ⟨state, found⟩ := Option.isSome_iff_exists.mp named
  refine ⟨state, ?_⟩
  have indices : ∀ number < 16, ∀ state, all[number]? = some state → state.index = number := by
    decide
  exact indices number small state found

theorem toState_accept (state : StateName) :
    state.toState.accept = state.accepts.map fun kind => { action := kind.action, tag := [] } :=
  rfl

theorem toState_open {state : StateName} (unfinished : state.accepts = none) :
    state.toState.accept = none := by
  rw [toState_accept, unfinished]
  rfl

theorem toState_backtrack (state : StateName) :
    state.toState.backtrack =
      state.backtracks.map fun kind => { action := kind.action, tag := state.tag } :=
  rfl

theorem toState_move (state : StateName) {column : Nat} (within : column < columns) :
    state.toState.moves[column] = (state.next column).map fun target =>
      { target := target.index, record := target.record } := by
  rw [toState, Vector.getElem_ofFn]

theorem toState_move? (state : StateName) (symbol : Symbol) :
    state.toState.move? symbol = (state.next symbol.column).map fun target =>
      { target := target.index, record := target.record } :=
  state.toState_move symbol.column_lt

theorem tag_of_unmarked {state : StateName} (unmarked : state.backtracks = none) :
    state.tag = [] := by
  cases state with
  | int | frac => cases unmarked
  | _ => rfl

theorem next_end (state : StateName) : state.next endColumn = none := by
  cases state <;> rfl

end StateName

/-- The programs of the grammar: the empty one, and the three that number states have. -/
def palette : List Program :=
  [[], [.mark dotCell], [.mark fractionCell], [.copy fractionCell dotCell]]

namespace StateName

variable (state : StateName)

theorem record_mem : state.record ∈ palette := by
  cases state <;> decide

theorem tag_mem : state.tag ∈ palette := by
  cases state <;> decide

variable {state}

theorem move_cases {move : Move} (moved : some move ∈ state.toState.moves.toList) :
    ∃ target : StateName, move = { target := target.index, record := target.record } := by
  obtain ⟨column, _, made⟩ := List.mem_iff_getElem.mp moved
  rw [Vector.getElem_toList, toState_move] at made
  obtain ⟨target, _, rfl⟩ := Option.map_eq_some_iff.mp made
  exact ⟨target, rfl⟩

theorem programs_mem {program : Program} (used : program ∈ state.toState.programs) :
    program ∈ palette := by
  rcases List.mem_append.mp used with marks | others
  · obtain ⟨tagged, found, rfl⟩ := List.mem_map.mp marks
    rw [Option.mem_toList, toState_backtrack] at found
    obtain ⟨kind, _, rfl⟩ := Option.map_eq_some_iff.mp found
    exact state.tag_mem
  · rw [toState_accept] at others
    cases accepts : state.accepts with
    | some kind =>
      rw [accepts] at others
      exact List.mem_singleton.mp others ▸ List.mem_cons_self
    | none =>
      rw [accepts] at others
      obtain ⟨entry, moved, recorded⟩ := List.mem_flatMap.mp others
      obtain ⟨move, found, rfl⟩ := List.mem_map.mp recorded
      obtain ⟨target, rfl⟩ := move_cases (Option.mem_toList.mp found ▸ moved)
      exact target.record_mem

end StateName

theorem mem_states {spec : State} (member : spec ∈ automaton.states) :
    ∃ state : StateName, spec = state.toState := by
  rw [automaton, List.mem_toArray] at member
  obtain ⟨state, _, rfl⟩ := List.mem_map.mp member
  exact ⟨state, rfl⟩

theorem programs_mem_palette {program : Program} (used : program ∈ automaton.programs) :
    program ∈ palette := by
  obtain ⟨spec, member, used⟩ := List.mem_flatMap.mp used
  obtain ⟨state, rfl⟩ := mem_states (Array.mem_toList_iff.mp member)
  exact StateName.programs_mem used

theorem automaton_size : automaton.size = 16 := rfl

theorem automaton_fits : automaton.Fits where
  states_pos := automaton_size ▸ by decide
  states_le := automaton_size ▸ by decide
  rows_le := by
    refine Nat.le_trans List.countP_le_length ?_
    rw [Array.length_toList]
    exact Nat.le_trans (Nat.le_of_eq automaton_size) (by decide)
  numbered := by
    intro spec member
    obtain ⟨state, rfl⟩ := mem_states member
    constructor
    · intro tagged found
      rw [StateName.toState_accept] at found
      obtain ⟨kind, _, rfl⟩ := Option.map_eq_some_iff.mp found
      exact kind.action_lt
    · intro tagged found
      rw [StateName.toState_backtrack] at found
      obtain ⟨kind, _, rfl⟩ := Option.map_eq_some_iff.mp found
      exact kind.action_lt
  leads := by
    intro spec member _ move moved
    obtain ⟨state, rfl⟩ := mem_states member
    obtain ⟨target, rfl⟩ := StateName.move_cases moved
    rw [automaton_size]
    exact target.index_lt
  code_le := Nat.le_trans (codeSize_mono fun _ => programs_mem_palette) (by decide)

structure Made (tables : Tables) (captures : CaptureTables) : Prop where
  made : Sample.tables = .ok tables
  valid : tables.Valid
  represent : tables.Represent automaton
  carried : tables.captures = some captures

theorem exists_made : ∃ tables captures, Made tables captures := by
  obtain ⟨tables, made⟩ := automaton_fits.tables_succeed
  obtain ⟨lines, interner, packed, built⟩ := automaton.built_of_tables made
  have represent : tables.Represent automaton :=
    ⟨built.states_eq, fun _ _ listed => built.mirrors listed, built.captures_isSome_iff,
      fun _ carried _ _ listed => built.captures_mirror carried listed⟩
  have speaks : tables.captures.isSome := represent.carried_iff.mpr
    ⟨_, Array.mem_of_getElem? StateName.int.listed, [.mark fractionCell],
      List.mem_append_left _ List.mem_cons_self, by decide⟩
  obtain ⟨captures, carried⟩ := Option.isSome_iff_exists.mp speaks
  exact ⟨tables, captures, made, built.valid, represent, carried⟩

namespace Made

variable {tables : Tables} {captures : CaptureTables} (made : Made tables captures)

include made

theorem states_eq : tables.states = 16 :=
  made.represent.states_eq

theorem recognizes (state : StateName) : tables.Mirrors state.index state.toState :=
  made.represent.states _ _ state.listed

theorem remembers (state : StateName) : captures.Mirrors state.index state.toState :=
  made.represent.captures captures made.carried _ _ state.listed

theorem final?_eq (state : StateName) :
    tables.final? state.index = state.accepts.map Kind.action := by
  rw [(made.recognizes state).final?_eq, StateName.toState_accept, Option.map_map]
  rfl

theorem bookmark?_eq (state : StateName) :
    tables.bookmark? state.index = state.backtracks.map Kind.action := by
  rw [(made.recognizes state).bookmark?_eq, StateName.toState_backtrack, Option.map_map]
  rfl

theorem unfinished {state : StateName} (unfinished : state.accepts = none) :
    tables.final? state.index = none := by
  rw [made.final?_eq, unfinished]
  rfl

theorem successor?_eq {state : StateName} (unfinished : state.accepts = none) (symbol : Symbol) :
    tables.successor? state.index symbol =
      (state.next symbol.column).map StateName.index := by
  rw [(made.recognizes state).successor?_eq (StateName.toState_open unfinished) symbol,
    StateName.toState_move?, Option.map_map]
  rfl

theorem tagged_eq (state : StateName) (cells : Array Cell) :
    tables.tagged captures.reaction state.index cells = state.tag.apply none cells := by
  rw [(made.remembers state).tagged_eq (made.recognizes state), StateName.toState_backtrack]
  cases marks : state.backtracks with
  | none =>
    rw [StateName.tag_of_unmarked marks]
    rfl
  | some kind => rfl

theorem accept_eq {state : StateName} {kind : Kind} (accepts : state.accepts = some kind)
    (cells : Array Cell) : captures.reaction.tag .accept state.index cells = cells := by
  have accepts' : state.toState.accept = some { action := kind.action, tag := [] } := by
    rw [StateName.toState_accept, accepts]
    rfl
  rw [(made.remembers state).accept_eq accepts']
  rfl

theorem move_eq {state target : StateName} (unfinished : state.accepts = none) (symbol : Symbol)
    (leads : state.next symbol.column = some target) (position : Nat) (cells : Array Cell) :
    captures.reaction.move state.index symbol position cells =
      target.record.apply (some position) cells := by
  have moved : state.toState.move? symbol =
      some { target := target.index, record := target.record } := by
    rw [StateName.toState_move?, leads]
    rfl
  exact (made.remembers state).move_eq (StateName.toState_open unfinished) moved position cells

theorem closed : tables.Closed := by
  intro number unfinished
  by_cases inside : number < tables.states
  · obtain ⟨state, rfl⟩ := StateName.exists_index (made.states_eq ▸ inside)
    rw [made.final?_eq, Option.map_eq_none_iff] at unfinished
    rw [made.successor?_eq unfinished]
    exact congrArg (Option.map StateName.index) state.next_end
  · have missed : ¬ number < tables.parts.base.size := inside
    simp only [Tables.successor?, Tables.base, fetch, dif_neg missed]
    rfl

theorem tagsSettle : tables.TagsSettle captures.reaction := by
  refine made.represent.tagsSettle made.valid made.carried ?_
  intro spec member tagged marks
  obtain ⟨state, rfl⟩ := mem_states member
  rw [StateName.toState_backtrack] at marks
  obtain ⟨kind, _, rfl⟩ := Option.map_eq_some_iff.mp marks
  have apart : ∀ program ∈ palette, Program.Apart program := by decide
  exact apart _ state.tag_mem

theorem cells_eq : captures.cells = 2 := by
  refine Nat.le_antisymm ?_ ?_
  · refine automaton.cells_le made.made made.carried fun program used => ?_
    have enough : ∀ program ∈ palette, Program.cellsNeeded program ≤ 2 := by decide
    exact enough program (programs_mem_palette used)
  · -- The point of a number is remembered in the second cell.
    have record := (made.remembers .int).move rfl 46 (by decide)
      { target := StateName.intDot.index, record := [.mark dotCell] }
      (StateName.toState_move .int _)
    have found : captures.record? StateName.int.index (.byte 46) = some [.mark dotCell] := by
      rw [CaptureTables.record?, show (Symbol.byte 46).column = 46 from rfl, record]
      rfl
    exact (made.valid.captures captures made.carried).record?_enough found

end Made

end TableLexer.Sample
