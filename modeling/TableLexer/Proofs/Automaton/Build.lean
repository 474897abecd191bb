import Mathlib.Data.List.Sigma
import TableLexer.Proofs.Automaton.Compiling

/-! Packed tables mean what their automaton means. Every lookup that a scan can make is answered as
the automaton was drawn up: the action of a state, the target of a move, and the programs that run
at tags and on moves. -/

set_option autoImplicit false

namespace TableLexer

theorem mem_rowsOf {part : Row × Row → Row} {lines : Array Line} {entry : Nat × Row} :
    entry ∈ rowsOf part lines ↔
      ∃ line rows, lines[entry.1]? = some line ∧ line.rows = some rows ∧ part rows = entry.2 := by
  unfold rowsOf
  rw [List.mem_filterMap]
  constructor
  · rintro ⟨⟨line, state⟩, listed, made⟩
    obtain ⟨rows, found, rfl⟩ := Option.map_eq_some_iff.mp made
    rw [List.mk_mem_zipIdx_iff_getElem?, Array.getElem?_toList] at listed
    exact ⟨line, rows, listed, found, rfl⟩
  · rintro ⟨line, rows, listed, found, same⟩
    rw [← Array.getElem?_toList, ← List.mk_mem_zipIdx_iff_getElem?] at listed
    exact ⟨(line, entry.1), listed, Option.map_eq_some_iff.mpr ⟨rows, found, by rw [same]⟩⟩

theorem rowsOf_distinct (part : Row × Row → Row) (lines : Array Line) :
    ((rowsOf part lines).map Prod.fst).Nodup := by
  have distinct := List.nodup_zipIdx_map_snd lines.toList
  rw [List.Nodup, List.pairwise_map] at distinct
  rw [List.Nodup, List.pairwise_map, rowsOf, List.pairwise_filterMap]
  refine distinct.imp ?_
  intro first second apart entry made entry' made'
  obtain ⟨_, _, rfl⟩ := Option.map_eq_some_iff.mp made
  obtain ⟨_, _, rfl⟩ := Option.map_eq_some_iff.mp made'
  exact apart

def PlainParts.ofLines (lines : Array Line) (packed : Packed) : PlainParts where
  base := withBases (lines.map Line.base) packed.bases
  backtrack := lines.map Line.backtrack
  fallback := lines.map Line.fallback
  trans := packed.trans
  check := packed.check

def CaptureParts.ofLines (lines : Array Line) (packed : Packed) (code : List UInt8) :
    CaptureParts where
  baseCode := withBases (lines.map Line.baseCode) packed.bases
  backtrackCode := lines.map Line.backtrackCode
  fallbackCode := lines.map Line.fallbackCode
  transCode := packed.trans
  checkCode := packed.check
  code := code

theorem getD_map_lines {lines : Array Line} {state : Nat} {line : Line}
    (listed : lines[state]? = some line) (entry : Line → Int16) (other : Int16) :
    (lines.map entry).getD state other = entry line := by
  rw [Array.getD_eq_getD_getElem?, Array.getElem?_map, listed]
  rfl

namespace Packed.Lays

variable {part : Row × Row → Row} {lines : Array Line} {packed : Packed} {state : Nat}
  {line : Line}

theorem base_of_line (laid : packed.Lays (rowsOf part lines)) (listed : lines[state]? = some line)
    (none : line.rows = none) (entry : Line → Int16) :
    (withBases (lines.map entry) packed.bases).getD state 0 = entry line := by
  rw [laid.base_of_absent, getD_map_lines listed]
  rintro placed member rfl
  obtain ⟨line', rows, listed', found, _⟩ := mem_rowsOf.mp member
  rw [listed] at listed'
  cases listed'
  rw [none] at found
  cases found

theorem offset_of_line (laid : packed.Lays (rowsOf part lines))
    (listed : lines[state]? = some line) {rows : Row × Row} (found : line.rows = some rows)
    (entry : Line → Int16) :
    ∃ offset, packed.Holds (state, part rows) offset ∧
      (withBases (lines.map entry) packed.bases).getD state 0 = Int16.ofNat offset := by
  have inside := (Array.getElem?_eq_some_iff.mp listed).1
  have member : (state, part rows) ∈ rowsOf part lines :=
    mem_rowsOf.mpr ⟨line, rows, listed, found, rfl⟩
  obtain ⟨offset, holds⟩ := laid.placed _ member
  refine ⟨offset, holds, laid.base_of_holds (rowsOf_distinct part lines) holds ?_ 0⟩
  rwa [Array.size_map]

theorem row_of_line (laid : packed.Lays (rowsOf part lines)) (listed : lines[state]? = some line)
    {rows : Row × Row} (found : line.rows = some rows) (entry fallback : Line → Int16) :
    ∃ base, (withBases (lines.map entry) packed.bases).getD state 0 = base ∧ 0 ≤ base ∧
      ∀ column < columns, ∃ value,
        lookupSlot packed.check packed.trans (lines.map fallback) (base.toInt.toNat + column)
          state = .ok value ∧
        (part rows).Gives (fallback line) column value := by
  obtain ⟨offset, holds, based⟩ := laid.offset_of_line listed found entry
  have number := toInt_ofNat_small holds.small
  refine ⟨Int16.ofNat offset, based, ?_, ?_⟩
  · rw [entry_nonneg_iff, number]
    exact Int.natCast_nonneg offset
  · have inside : state < (lines.map fallback).size := by
      rw [Array.size_map]
      exact (Array.getElem?_eq_some_iff.mp listed).1
    intro column within
    obtain ⟨value, read, gives⟩ := holds.lookupSlot_gives laid.sized inside within
    rw [getD_map_lines listed] at gives
    rw [number, Int.toNat_natCast]
    exact ⟨value, read, gives⟩

end Packed.Lays

structure Built (automaton : Automaton) (tables : Tables) (lines : Array Line)
    (interner : Interner) (packed : Packed) : Prop where
  valid : tables.Valid
  used : Interner.empty.Extends interner (automaton.states.toList.flatMap State.programs)
  described : List.Forall₂ (fun state line => line.Describes interner state)
    automaton.states.toList lines.toList
  laid : packed.Lays (rowsOf Prod.fst lines)
  parts : tables.parts = .ofLines lines packed
  silent_iff : tables.captures = none ↔ interner.known = []
  carried : ∀ captures, tables.captures = some captures → ∃ packedCode : Packed,
    packedCode.Lays (rowsOf Prod.snd lines) ∧
      captures.parts = .ofLines lines packedCode interner.code.toList

theorem rowsOf_lays {interner : Interner} {states : List State} {lines : Array Line}
    {packed : Packed} {part : Row × Row → Row} (few : lines.size ≤ maxStates)
    (described : List.Forall₂ (fun state line => line.Describes interner state) states
      lines.toList)
    (choice : ∀ rows : Row × Row, rows.1.Sparse → rows.2.Sparse → (part rows).Sparse)
    (made : pack (rowsOf part lines) = .ok packed) : packed.Lays (rowsOf part lines) := by
  refine pack_lays (rowsOf_distinct part lines) ?_ ?_ made
  · intro entry member
    obtain ⟨line, rows, listed, found, same⟩ := mem_rowsOf.mp member
    rw [← Array.getElem?_toList] at listed
    obtain ⟨_, _, describes⟩ := forall₂_getElem? described.flip listed
    obtain ⟨targets, codes⟩ := describes.sparse found
    exact same ▸ choice rows targets codes
  · intro entry member
    obtain ⟨line, _, listed, _, _⟩ := mem_rowsOf.mp member
    exact Nat.lt_of_lt_of_le (Array.getElem?_eq_some_iff.mp listed).1 few

/-- How tables are made: states are compiled, rows are packed and the outcome is validated. -/
theorem Automaton.tables_eq_ok_iff {automaton : Automaton} {tables : Tables} :
    automaton.tables = .ok tables ↔ automaton.size ≤ maxStates ∧ ∃ lines interner packed,
      compileStates automaton.states.toList = .ok (lines, interner) ∧
      pack (rowsOf Prod.fst lines) = .ok packed ∧
      if interner.known = [] then Tables.ofParts (.ofLines lines packed) none = .ok tables
      else ∃ packedCode, pack (rowsOf Prod.snd lines) = .ok packedCode ∧
        Tables.ofParts (.ofLines lines packed)
          (some (.ofLines lines packedCode interner.code.toList)) = .ok tables := by
  unfold Automaton.tables
  by_cases many : maxStates < automaton.size
  · rw [if_pos many]
    simp only [throw_eq_error, error_bind, reduceCtorEq, false_iff]
    rintro ⟨few, _⟩
    exact absurd many (Nat.not_lt.mpr few)
  rw [if_neg many]
  simp only [bind_eq_ok_iff, Prod.exists, Nat.not_lt.mp many, true_and]
  refine exists_congr fun lines => exists_congr fun interner => ?_
  rw [← exists_and_left]
  refine exists_congr fun packed => and_congr_right fun _ => and_congr_right fun _ => ?_
  by_cases silent : interner.known = []
  · rw [if_pos silent, if_pos (List.isEmpty_iff.mpr silent)]
    rfl
  · rw [if_neg silent, if_neg (by rwa [List.isEmpty_iff])]
    simp only [bind_eq_ok_iff]
    rfl

theorem Automaton.built_of_tables {automaton : Automaton} {tables : Tables}
    (made : automaton.tables = .ok tables) :
    ∃ lines interner packed, Built automaton tables lines interner packed := by
  obtain ⟨small, lines, interner, packed, compiled, laid, made⟩ := tables_eq_ok_iff.mp made
  obtain ⟨used, described⟩ := compileStates_describes compiled
  have few : lines.size ≤ maxStates := by
    rw [← Array.length_toList, ← described.length_eq]
    exact small
  have laid := rowsOf_lays few described (fun _ targets _ => targets) laid
  refine ⟨lines, interner, packed, ?_⟩
  -- With no program interned there is no second packing and no captures to speak of.
  split at made
  · rename_i silent
    obtain ⟨parts, captures, valid⟩ := Tables.ofParts_eq_ok made
    rw [Option.map_eq_none_iff] at captures
    refine ⟨valid, used, described, laid, parts, ⟨fun _ => silent, fun _ => captures⟩, ?_⟩
    intro found carried
    rw [captures] at carried
    cases carried
  · rename_i speaking
    obtain ⟨packedCode, laidCode, made⟩ := made
    obtain ⟨parts, captures, valid⟩ := Tables.ofParts_eq_ok made
    obtain ⟨found, carried, same⟩ := Option.map_eq_some_iff.mp captures
    refine ⟨valid, used, described, laid, parts, ?_, ?_⟩
    · rw [carried]
      exact ⟨nofun, fun nothing => absurd nothing speaking⟩
    · rintro _ carried'
      rw [carried] at carried'
      cases carried'
      exact ⟨packedCode, rowsOf_lays few described (fun _ _ codes => codes) laidCode, same⟩

def Program.nonempty? (program : Program) : Option Program :=
  if program = [] then none else some program

namespace CaptureTables

variable {captures : CaptureTables} {parts : PlainParts} {state : Nat} {address : Int16}

theorem Valid.program?_of_names (valid : captures.Valid parts) {interner : Interner}
    {program : Program} (code : captures.parts.code = interner.code.toList)
    (demanded : .program address ∈ captures.parts.demands parts)
    (named : interner.Names address program) : captures.program? address = program.nonempty? := by
  unfold Interner.Names at named
  rw [Program.nonempty?, program?]
  by_cases empty : program = []
  · rw [if_pos empty] at named ⊢
    rw [named]
    rfl
  · rw [if_neg empty] at named ⊢
    obtain ⟨positive, decoded⟩ := named
    -- Checking decoded the address before; decoding again cannot give another program.
    obtain ⟨found, known⟩ := valid.met _ demanded positive
    have decoded' := valid.decoded.decode_eq _ found known
    rw [code, decoded] at decoded'
    cases decoded'
    rw [if_pos positive, known]
    rfl

theorem tagProgram_of_address {point : TagPoint}
    (found : captures.tagAddress point state = .ok address) :
    captures.tagProgram point state = .ok (captures.program? address) := by
  rw [tagProgram, found]
  rfl

theorem recordProgram_of_address {column : Nat}
    (found : captures.recordAddress state column = .ok address) :
    captures.recordProgram state column = .ok (captures.program? address) := by
  rw [recordProgram, found]
  rfl

end CaptureTables

/-- What tables answer about a state that was drawn up as `spec`. -/
structure Tables.Mirrors (tables : Tables) (state : Nat) (spec : State) : Prop where
  base : ∃ base, tables.base state = .ok base ∧
    finalAction? base = spec.accept.map Tagged.action
  backtrack : ∃ entry, tables.backtrack state = .ok entry ∧
    entryValue? entry = spec.backtrack.map Tagged.action
  next : spec.accept = none → ∀ column (within : column < columns), ∃ base target,
    tables.base state = .ok base ∧ tables.next state base column = .ok target ∧
      entryValue? target = spec.moves[column].map Move.target

structure CaptureTables.Mirrors (captures : CaptureTables) (state : Nat) (spec : State) :
    Prop where
  accept : ∀ tagged, spec.accept = some tagged →
    captures.tagProgram .accept state = .ok tagged.tag.nonempty?
  backtrack : ∀ tagged, spec.backtrack = some tagged →
    captures.tagProgram .backtrack state = .ok tagged.tag.nonempty?
  move : spec.accept = none → ∀ column (within : column < columns) move,
    spec.moves[column] = some move →
      captures.recordProgram state column = .ok move.record.nonempty?

namespace Built

variable {automaton : Automaton} {tables : Tables} {lines : Array Line} {interner : Interner}
  {packed : Packed} {state : Nat} {spec : State}

theorem line_at (built : Built automaton tables lines interner packed)
    (listed : automaton.states[state]? = some spec) :
    ∃ line, lines[state]? = some line ∧ line.Describes interner spec := by
  rw [← Array.getElem?_toList] at listed
  obtain ⟨line, listed, describes⟩ := forall₂_getElem? built.described listed
  rw [Array.getElem?_toList] at listed
  exact ⟨line, listed, describes⟩

theorem states_eq (built : Built automaton tables lines interner packed) :
    tables.states = automaton.size := by
  have lengths := built.described.length_eq
  rw [Array.length_toList, Array.length_toList] at lengths
  rw [Tables.states, built.parts, PlainParts.ofLines, withBases_eq, size_assign, Array.size_map,
    Automaton.size, lengths]

theorem inside (built : Built automaton tables lines interner packed)
    (listed : automaton.states[state]? = some spec) : state < tables.states := by
  rw [built.states_eq]
  exact (Array.getElem?_eq_some_iff.mp listed).1

theorem mirrors (built : Built automaton tables lines interner packed)
    (listed : automaton.states[state]? = some spec) : tables.Mirrors state spec := by
  have inside := built.inside listed
  obtain ⟨line, lined, describes⟩ := built.line_at listed
  refine ⟨⟨_, Tables.Valid.base_eq inside, ?_⟩, ⟨_, built.valid.backtrack_eq inside, ?_⟩, ?_⟩
  · rw [built.parts]
    change finalAction? ((withBases (lines.map Line.base) packed.bases).getD state 0) = _
    cases accepts : spec.accept with
    | some tagged =>
      obtain ⟨action, _, rows⟩ := describes.accepting tagged accepts
      rw [built.laid.base_of_line lined rows]
      exact action
    | none =>
      obtain ⟨_, _, moves⟩ := describes.moving accepts
      -- The base of a row is an offset, so it is not taken for an action.
      obtain ⟨_, rfl, nonneg, _⟩ := built.laid.row_of_line lined moves.rows Line.base Line.fallback
      exact finalAction?_eq_none_iff.mpr nonneg
  · rw [built.parts]
    change entryValue? ((lines.map Line.backtrack).getD state 0) = _
    rw [getD_map_lines lined]
    exact describes.backtrack
  · intro accepts column within
    obtain ⟨targets, codes, moves⟩ := describes.moving accepts
    obtain ⟨base, based, _, lookups⟩ :=
      built.laid.row_of_line lined moves.rows Line.base Line.fallback
    obtain ⟨target, read, gives⟩ := lookups column within
    refine ⟨base, target, ?_, ?_, moves.target column within target gives⟩
    · rw [Tables.Valid.base_eq inside, built.parts]
      exact congrArg Except.ok based
    · rw [Tables.next, built.parts]
      exact read

theorem base_neg_iff (built : Built automaton tables lines interner packed)
    (listed : automaton.states[state]? = some spec) :
    tables.parts.base.getD state 0 < 0 ↔ spec.accept.isSome := by
  obtain ⟨base, found, action⟩ := (built.mirrors listed).base
  rw [Tables.Valid.base_eq (built.inside listed)] at found
  cases found
  rw [← Int16.not_le, ← finalAction?_eq_none_iff, action, Option.map_eq_none_iff,
    Option.isSome_iff_ne_none]

theorem captures_mirror (built : Built automaton tables lines interner packed)
    {captures : CaptureTables} (carried : tables.captures = some captures)
    (listed : automaton.states[state]? = some spec) : captures.Mirrors state spec := by
  have inside := built.inside listed
  have valid := built.valid.captures captures carried
  obtain ⟨packedCode, laid, parts⟩ := built.carried captures carried
  obtain ⟨line, lined, describes⟩ := built.line_at listed
  have code : captures.parts.code = interner.code.toList := by rw [parts]; rfl
  refine ⟨?_, ?_, ?_⟩
  · intro tagged accepts
    obtain ⟨_, named, rows⟩ := describes.accepting tagged accepts
    -- A tag is asked for where the plain tables accept, and those addresses were checked.
    have final := (built.base_neg_iff listed).mpr (by rw [accepts]; rfl)
    have address : captures.parts.baseCode.getD state 0 = line.baseCode := by
      rw [parts]
      exact laid.base_of_line lined rows Line.baseCode
    rw [CaptureTables.tagProgram_of_address (valid.tagAddress_accept inside),
      valid.program?_of_names code (CaptureParts.accept_demanded inside final) (address ▸ named)]
  · intro tagged marks
    have marked : 0 ≤ tables.parts.backtrack.getD state 0 := by
      obtain ⟨entry, found, action⟩ := (built.mirrors listed).backtrack
      rw [built.valid.backtrack_eq inside] at found
      cases found
      rw [← entryValue?_isSome_iff, action, marks]
      rfl
    have address : captures.parts.backtrackCode.getD state 0 = line.backtrackCode := by
      rw [parts]
      exact getD_map_lines lined Line.backtrackCode 0
    rw [CaptureTables.tagProgram_of_address (valid.tagAddress_backtrack inside),
      valid.program?_of_names code (CaptureParts.backtrack_demanded inside marked)
        (address ▸ describes.backtrackCode tagged marks)]
  · intro accepts column within move moved
    obtain ⟨targets, codes, moves⟩ := describes.moving accepts
    have row : 0 ≤ tables.parts.base.getD state 0 := by
      rw [← Int16.not_lt, built.base_neg_iff listed, accepts]
      exact Bool.false_ne_true
    obtain ⟨base, based, nonneg, lookups⟩ :=
      laid.row_of_line lined moves.rows Line.baseCode Line.fallbackCode
    obtain ⟨value, read, gives⟩ := lookups column within
    have coded : captures.parts.baseCode.getD state 0 = base := by
      rw [parts]
      exact based
    have address : captures.recordAddress state column = .ok value := by
      rw [CaptureTables.recordAddress, fetch_getD (valid.baseCode_size ▸ inside) 0, ok_bind, coded,
        if_neg (Int16.not_lt.mpr nonneg), parts]
      exact read
    -- The lookup of a move demands the very address that it finds.
    obtain ⟨_, found, demanded⟩ :=
      valid.recordAddress_demanded built.valid.states_le inside row within
    rw [address] at found
    cases found
    rw [CaptureTables.recordProgram_of_address address, valid.program?_of_names code demanded
      (moves.record column within move value moved gives)]

theorem captures_isSome_iff (built : Built automaton tables lines interner packed) :
    tables.captures.isSome ↔
      ∃ spec ∈ automaton.states, ∃ program ∈ spec.programs, program ≠ [] := by
  rw [Option.isSome_iff_ne_none, Ne, built.silent_iff, built.used.nothing_iff]
  simp only [Interner.empty, true_and, List.mem_flatMap, Array.mem_toList_iff, not_forall]
  constructor
  · rintro ⟨program, ⟨spec, listed, member⟩, nonempty⟩
    exact ⟨spec, listed, program, member, nonempty⟩
  · rintro ⟨spec, listed, program, member, nonempty⟩
    exact ⟨program, ⟨spec, listed, member⟩, nonempty⟩

end Built

/-- Packed tables have the states of the automaton, answer every question about them as it does,
and carry captures when some program that can run is not empty. -/
structure Tables.Represent (tables : Tables) (automaton : Automaton) : Prop where
  states_eq : tables.states = automaton.size
  states : ∀ state spec, automaton.states[state]? = some spec → tables.Mirrors state spec
  carried_iff : tables.captures.isSome ↔
    ∃ spec ∈ automaton.states, ∃ program ∈ spec.programs, program ≠ []
  captures : ∀ captures, tables.captures = some captures →
    ∀ state spec, automaton.states[state]? = some spec → captures.Mirrors state spec

/-- A state that moves on the letter a, recording its place, to one that accepts. -/
def letterAutomaton : Automaton where
  states :=
    #[{ State.empty with
        moves := State.empty.moves.set 97 (some { target := 1, record := [.mark firstCell] }) },
      { State.empty with accept := some { action := 4, tag := [.copy secondCell firstCell] } }]

/-- Packing keeps the meaning of an automaton. -/
theorem Automaton.tables_represent {automaton : Automaton} {tables : Tables}
    (made : automaton.tables = .ok tables) : tables.Represent automaton := by
  obtain ⟨lines, interner, packed, built⟩ := automaton.built_of_tables made
  exact {
    states_eq := built.states_eq
    states := fun _ _ listed => built.mirrors listed
    carried_iff := built.captures_isSome_iff
    captures := fun _ carried _ _ listed => built.captures_mirror carried listed }

theorem letterAutomaton_represented :
    ∃ tables, letterAutomaton.tables = .ok tables ∧ tables.Represent letterAutomaton := by
  -- The packing of two states is small enough to be evaluated.
  have packed : letterAutomaton.tables.toOption.isSome := by decide +kernel
  obtain ⟨tables, made⟩ := Option.isSome_iff_exists.mp packed
  rw [toOption_eq_some_iff] at made
  exact ⟨tables, made, Automaton.tables_represent made⟩

end TableLexer
