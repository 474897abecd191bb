import TableLexer.Proofs.Automaton.Provenance

/-! Everything that the packer makes, validation accepts. So an automaton that is small enough to be
packed has tables, and these need no more cells than its programs do. -/

set_option autoImplicit false

namespace TableLexer

theorem size_withBases (lines : Array Line) (entry : Line → Int16) (bases : Array (Nat × Int16)) :
    (withBases (lines.map entry) bases).size = lines.size := by
  rw [withBases_eq, size_assign, Array.size_map]

namespace Packed.Lays

variable {part : Row × Row → Row} {lines : Array Line} {packed : Packed} {state : Nat}
  {line : Line}

theorem room_of_line (laid : packed.Lays (rowsOf part lines)) (listed : lines[state]? = some line)
    {rows : Row × Row} (found : line.rows = some rows) (entry : Line → Int16) :
    0 ≤ (withBases (lines.map entry) packed.bases).getD state 0 ∧
      ((withBases (lines.map entry) packed.bases).getD state 0).toInt.toNat + columns ≤
        packed.trans.size := by
  obtain ⟨offset, holds, based⟩ := laid.offset_of_line listed found entry
  have room := holds.room
  rw [based, entry_nonneg_iff, toInt_ofNat_small holds.small, Int.toNat_natCast, laid.sized]
  exact ⟨Int.natCast_nonneg offset, room⟩

theorem cell_of_owned (laid : packed.Lays (rowsOf part lines)) {slot states : Nat}
    (inside : slot < packed.check.size) (taken : owned (packed.check.getD slot 0) states) :
    ∃ line ∈ lines, ∃ rows, line.rows = some rows ∧
      ∃ cell ∈ part rows, packed.trans.getD slot 0 = cell.2 := by
  have inside' : slot < packed.trans.size := laid.sized ▸ inside
  rw [getD_inside inside 0 (-1), owned, decide_eq_true_eq] at taken
  rcases laid.owner slot with free | ⟨entry, member, owner⟩
  · exact absurd taken.1 (Int16.not_le.mpr free)
  · obtain ⟨offset, holds⟩ := laid.placed entry member
    obtain ⟨cell, member', place⟩ := holds.sole slot owner
    obtain ⟨line, rows, listed, found, same⟩ := mem_rowsOf.mp member
    refine ⟨line, Array.mem_of_getElem? listed, rows, found, cell, same ▸ member', ?_⟩
    rw [getD_inside inside' 0 (-1), ← place]
    exact holds.filled cell member'

end Packed.Lays

section

variable {lines : Array Line} {packed : Packed} (laid : packed.Lays (rowsOf Prod.fst lines))
  (final : ∀ line ∈ lines, line.rows = none → line.base < 0)

include laid final

theorem base_nonneg_iff {state : Nat} {line : Line} (listed : lines[state]? = some line) :
    0 ≤ (withBases (lines.map Line.base) packed.bases).getD state 0 ↔ line.rows ≠ none := by
  cases found : line.rows with
  | none =>
    rw [laid.base_of_line listed found]
    have negative := final line (Array.mem_of_getElem? listed) found
    exact ⟨fun nonneg => absurd nonneg (Int16.not_le.mpr negative), fun none => absurd rfl none⟩
  | some rows => exact ⟨fun _ => nofun, fun _ => (laid.room_of_line listed found Line.base).1⟩

theorem PlainParts.ofLines_shaped : (PlainParts.ofLines lines packed).Shaped := by
  have size : (PlainParts.ofLines lines packed).base.size = lines.size := size_withBases _ _ _
  refine ⟨?_, ?_, laid.sized.symm, ?_⟩
  · rw [size]
    exact Array.size_map
  · rw [size]
    exact Array.size_map
  · intro state inside nonneg
    rw [size] at inside
    have listed := Array.getElem?_eq_getElem inside
    obtain ⟨rows, found⟩ :=
      Option.ne_none_iff_exists'.mp ((base_nonneg_iff laid final listed).mp nonneg)
    exact (laid.room_of_line listed found Line.base).2

theorem PlainParts.ofLines_valid (some : 0 < lines.size) (few : lines.size ≤ maxStates)
    (directed : ∀ line ∈ lines, line.Directed lines.size) :
    (PlainParts.ofLines lines packed).Valid := by
  have size : (PlainParts.ofLines lines packed).base.size = lines.size := size_withBases _ _ _
  have shaped := ofLines_shaped laid final
  refine ⟨size ▸ some, size ▸ few, shaped.backtrack_size, shaped.fallback_size, shaped.check_size,
    shaped.row_fits, ?_, ?_⟩
  · intro state inside target read
    rw [size] at inside ⊢
    have listed := Array.getElem?_eq_getElem inside
    change entryValue? ((lines.map Line.fallback).getD state 0) = _ at read
    rw [getD_map_lines listed] at read
    exact (directed _ (Array.getElem_mem inside)).fallback target read
  · intro slot inside taken target read
    obtain ⟨line, member, rows, found, cell, member', value⟩ := laid.cell_of_owned inside taken
    change entryValue? (packed.trans.getD slot 0) = _ at read
    rw [value] at read
    rw [size]
    exact (directed line member).targets rows found cell member' target read

theorem CaptureParts.ofLines_demands {packedCode : Packed}
    (laidCode : packedCode.Lays (rowsOf Prod.snd lines)) {interner : Interner}
    {programs : List Program} (addressed : ∀ line ∈ lines, line.Addressed interner programs)
    (code : List UInt8) (demand : CaptureDemand)
    (demanded : demand ∈
      (CaptureParts.ofLines lines packedCode code).demands (.ofLines lines packed)) :
    (∃ state offset, demand = .row state offset ∧ 0 ≤ offset ∧
      offset.toInt.toNat + columns ≤ packedCode.trans.size) ∨
    ∃ address, demand = .program address ∧ interner.Addresses programs address := by
  rcases List.mem_append.mp demanded with ofState | ofSlot
  · obtain ⟨state, inside, member⟩ := List.mem_flatMap.mp ofState
    rw [List.mem_range] at inside
    change state < (withBases (lines.map Line.base) packed.bases).size at inside
    rw [size_withBases] at inside
    have listed := Array.getElem?_eq_getElem inside
    have addresses := addressed _ (Array.getElem_mem inside)
    have row := base_nonneg_iff laid final listed
    rcases stateDemands_cases member with ⟨negative, tag⟩ | ⟨nonneg, entry⟩ | ⟨_, tag⟩
    -- An accepting state has no row, so its base entry stays as it was compiled.
    · have found : lines[state].rows = none := by
        by_contra some
        exact absurd (row.mpr some) (Int16.not_le.mpr negative)
      refine .inr ⟨_, tag, ?_⟩
      change interner.Addresses programs
        ((withBases (lines.map Line.baseCode) packedCode.bases).getD state 0)
      rw [laidCode.base_of_line listed found]
      exact addresses.baseCode
    · obtain ⟨rows, found⟩ := Option.ne_none_iff_exists'.mp (row.mp nonneg)
      rcases entry with room | fallback
      · exact .inl ⟨_, _, room, laidCode.room_of_line listed found Line.baseCode⟩
      · refine .inr ⟨_, fallback, ?_⟩
        change interner.Addresses programs ((lines.map Line.fallbackCode).getD state 0)
        rw [getD_map_lines listed]
        exact addresses.fallbackCode
    · refine .inr ⟨_, tag, ?_⟩
      change interner.Addresses programs ((lines.map Line.backtrackCode).getD state 0)
      rw [getD_map_lines listed]
      exact addresses.backtrackCode
  · obtain ⟨slot, inside, member⟩ := List.mem_flatMap.mp ofSlot
    rw [List.mem_range] at inside
    obtain ⟨taken, record⟩ := slotDemands_cases member
    obtain ⟨line, member', rows, found, cell, member'', value⟩ :=
      laidCode.cell_of_owned inside taken
    refine .inr ⟨_, record, ?_⟩
    change interner.Addresses programs (packedCode.trans.getD slot 0)
    rw [value]
    exact (addressed line member').codes rows found cell member''

end

theorem forall₂_mem {α β : Type} {related : α → β → Prop} {first : List α} {second : List β}
    (lists : List.Forall₂ related first second) {other : β} (member : other ∈ second) :
    ∃ item ∈ first, related item other := by
  obtain ⟨i, listed⟩ := List.mem_iff_getElem?.mp member
  obtain ⟨item, listed', found⟩ := forall₂_getElem? lists.flip listed
  exact ⟨item, List.mem_of_getElem? listed', found⟩

structure Compilation (automaton : Automaton) (lines : Array Line) (interner : Interner) :
    Prop where
  few : automaton.size ≤ maxStates
  suits : List.Forall₂ (fun state line => Line.Suits line interner state)
    automaton.states.toList lines.toList

namespace Compilation

variable {automaton : Automaton} {lines : Array Line} {interner : Interner}

theorem size_eq (made : Compilation automaton lines interner) : lines.size = automaton.size := by
  rw [← Array.length_toList, ← made.suits.length_eq, Automaton.size, Array.length_toList]

theorem line_cases (made : Compilation automaton lines interner) {line : Line}
    (member : line ∈ lines) : ∃ state ∈ automaton.states, line.Suits interner state := by
  obtain ⟨state, member', suits⟩ := forall₂_mem made.suits (Array.mem_toList_iff.mpr member)
  exact ⟨state, Array.mem_toList_iff.mp member', suits⟩

theorem final (made : Compilation automaton lines interner) :
    ∀ line ∈ lines, line.rows = none → line.base < 0 := by
  intro line member none
  obtain ⟨state, _, suits⟩ := made.line_cases member
  cases accepts : state.accept with
  | none =>
    obtain ⟨_, _, moves⟩ := suits.describes.moving accepts
    rw [moves.rows] at none
    cases none
  | some tagged =>
    have action := (suits.describes.accepting tagged accepts).1
    rw [← Int16.not_le, ← finalAction?_eq_none_iff, action]
    nofun

theorem addressed (made : Compilation automaton lines interner) :
    ∀ line ∈ lines, line.Addressed interner automaton.programs := by
  intro line member
  obtain ⟨state, member', suits⟩ := made.line_cases member
  exact suits.addressed.mono fun program used =>
    List.mem_flatMap.mpr ⟨state, Array.mem_toList_iff.mpr member', used⟩

theorem laid (made : Compilation automaton lines interner) {part : Row × Row → Row}
    (choice : ∀ rows : Row × Row, rows.1.Sparse → rows.2.Sparse → (part rows).Sparse)
    {packed : Packed} (placed : pack (rowsOf part lines) = .ok packed) :
    packed.Lays (rowsOf part lines) :=
  rowsOf_lays (made.size_eq ▸ made.few) (made.suits.imp fun _ _ suits => suits.describes) choice
    placed

/-- Capture entries made of compiled states are always accepted. -/
theorem captures_succeed (made : Compilation automaton lines interner) {packed packedCode : Packed}
    (placed : pack (rowsOf Prod.fst lines) = .ok packed)
    (placedCode : pack (rowsOf Prod.snd lines) = .ok packedCode) :
    ∃ captures, CaptureTables.ofParts (.ofLines lines packed)
      (.ofLines lines packedCode interner.code.toList) = .ok captures := by
  have laidCode := made.laid (fun _ _ codes => codes) placedCode
  have demands := CaptureParts.ofLines_demands (made.laid (fun _ targets _ => targets) placed)
    made.final laidCode made.addressed interner.code.toList
  have size : (PlainParts.ofLines lines packed).base.size = lines.size := size_withBases _ _ _
  refine CaptureTables.ofParts_succeeds ((size_withBases _ _ _).trans size.symm)
    (Array.size_map.trans size.symm) (Array.size_map.trans size.symm) laidCode.sized.symm ?_ ?_
  · intro state offset demanded
    rcases demands _ demanded with ⟨_, _, same, room⟩ | ⟨_, same, _⟩
    · cases same
      exact room
    · cases same
  · intro address demanded positive
    rcases demands _ demanded with ⟨_, _, same, _⟩ | ⟨_, same, found⟩
    · cases same
    · cases same
      obtain ⟨program, _, decoded⟩ := found.decodes positive
      exact ⟨program, decoded⟩

theorem rows_length (made : Compilation automaton lines interner) (part : Row × Row → Row) :
    (rowsOf part lines).length =
      automaton.states.toList.countP fun state => state.accept.isNone := by
  have counted : (rowsOf part lines).length = lines.toList.countP fun line => line.rows.isSome := by
    rw [rowsOf, List.length_filterMap_eq_countP]
    conv_rhs => rw [← List.zipIdx_map_fst 0 lines.toList, List.countP_map]
    refine List.countP_congr fun entry _ => ?_
    simp
  rw [counted]
  have suits := made.suits
  generalize automaton.states.toList = states, lines.toList = compiled at suits ⊢
  induction suits with
  | nil => rfl
  | @cons state line states lines suits _ ih =>
    have same : line.rows.isSome = state.accept.isNone := by
      cases accepts : state.accept with
      | none =>
        obtain ⟨_, _, moves⟩ := suits.describes.moving accepts
        rw [moves.rows]
        rfl
      | some tagged =>
        rw [(suits.describes.accepting tagged accepts).2.2]
        rfl
    rw [List.countP_cons, List.countP_cons, ih, same]

end Compilation

/-- The automaton is small enough to be packed, and its moves lead to states. -/
structure Automaton.Fits (automaton : Automaton) : Prop where
  states_pos : 0 < automaton.size
  states_le : automaton.size ≤ maxStates
  rows_le : automaton.states.toList.countP (fun state => state.accept.isNone) ≤ 128
  numbered : ∀ state ∈ automaton.states, state.Numbered
  leads : ∀ state ∈ automaton.states, state.Leads automaton.size
  code_le : codeSize automaton.programs ≤ 32768

namespace Automaton

variable {automaton : Automaton} {tables : Tables}

theorem Fits.compiles (fits : automaton.Fits) : ∃ lines interner,
    compileStates automaton.states.toList = .ok (lines, interner) := by
  refine compileStates_succeeds fits.code_le
    (fun state member => fits.numbered state (Array.mem_toList_iff.mp member)) ?_
  intro state member unfinished move moved
  have leads := fits.leads state (Array.mem_toList_iff.mp member) unfinished move moved
  exact Nat.lt_of_lt_of_le leads fits.states_le

theorem Fits.packs (fits : automaton.Fits) {lines : Array Line} {interner : Interner}
    (made : Compilation automaton lines interner) (part : Row × Row → Row) :
    ∃ packed, pack (rowsOf part lines) = .ok packed := by
  obtain ⟨packed, placed, _⟩ := pack_succeeds (made.rows_length part ▸ fits.rows_le)
  exact ⟨packed, placed⟩

theorem compilation_of_ok {lines : Array Line} {interner : Interner}
    (few : automaton.size ≤ maxStates)
    (compiled : compileStates automaton.states.toList = .ok (lines, interner)) :
    Compilation automaton lines interner :=
  ⟨few, compileStates_suits compiled⟩

theorem Fits.tables_succeed (fits : automaton.Fits) : ∃ tables, automaton.tables = .ok tables := by
  obtain ⟨lines, interner, compiled⟩ := fits.compiles
  have made := compilation_of_ok fits.states_le compiled
  obtain ⟨packed, placed⟩ := fits.packs made Prod.fst
  have laid := made.laid (fun _ targets _ => targets) placed
  have directed : ∀ line ∈ lines, line.Directed lines.size := by
    intro line member
    obtain ⟨state, member', suits⟩ := made.line_cases member
    exact suits.directed _ (made.size_eq ▸ fits.leads state member')
  have valid : (PlainParts.ofLines lines packed).Valid :=
    PlainParts.ofLines_valid laid made.final (made.size_eq ▸ fits.states_pos)
      (made.size_eq ▸ fits.states_le) directed
  by_cases silent : interner.known = []
  · exact ⟨_, tables_eq_ok_iff.mpr ⟨fits.states_le, lines, interner, packed, compiled, placed,
      (if_pos silent).mpr (Tables.ofParts_plain valid)⟩⟩
  · obtain ⟨packedCode, placedCode⟩ := fits.packs made Prod.snd
    obtain ⟨captures, accepted⟩ := made.captures_succeed placed placedCode
    exact ⟨_, tables_eq_ok_iff.mpr ⟨fits.states_le, lines, interner, packed, compiled, placed,
      (if_neg silent).mpr ⟨packedCode, placedCode, Tables.ofParts_captured valid accepted⟩⟩⟩

theorem cells_le (made : automaton.tables = .ok tables) {captures : CaptureTables}
    (carried : tables.captures = some captures) {bound : Nat}
    (enough : ∀ program ∈ automaton.programs, program.cellsNeeded ≤ bound) :
    captures.cells ≤ bound := by
  obtain ⟨few, lines, interner, packed, compiled, placed, made⟩ := tables_eq_ok_iff.mp made
  have compilation := compilation_of_ok few compiled
  have laid := compilation.laid (fun _ targets _ => targets) placed
  split at made
  · obtain ⟨_, captures', _⟩ := Tables.ofParts_eq_ok made
    rw [carried] at captures'
    cases captures'
  · obtain ⟨packedCode, placedCode, made⟩ := made
    have laidCode := compilation.laid (fun _ _ codes => codes) placedCode
    obtain ⟨valid, parts, demanded⟩ := Tables.captures_of_ofParts made carried
    rw [valid.cells_eq, cellsNeeded_le_iff]
    intro entry member
    cases entry with
    | none => exact Nat.zero_le bound
    | some program =>
      obtain ⟨offset, listed⟩ := List.mem_iff_getElem?.mp member
      rw [Array.getElem?_toList] at listed
      -- What was decoded was demanded, and what is demanded is a program of the automaton.
      obtain ⟨address, demand, positive, rfl⟩ := demanded offset program listed
      have decoded := valid.decoded.decode_eq _ program listed
      rcases CaptureParts.ofLines_demands laid compilation.final laidCode compilation.addressed
        interner.code.toList _ demand with ⟨_, _, same, _⟩ | ⟨_, same, found⟩
      · cases same
      · cases same
        obtain ⟨program', used, decoded'⟩ := found.decodes positive
        rw [parts] at decoded
        change Program.decode interner.code.toList _ = _ at decoded
        rw [decoded'] at decoded
        cases decoded
        exact enough program used

end Automaton

end TableLexer
