import TableLexer.Proofs.Program.Effect
import TableLexer.Proofs.Tables.Validity

/-! What validation guarantees of the capture entries. Every state that does not accept has a row
of addresses, every program that a reachable entry names is decoded from its place in the code,
and the cells that the tables ask for are enough for each of them. -/

set_option autoImplicit false

namespace TableLexer

structure Decoded (code : List UInt8) (known : Array (Option Program)) : Prop where
  size_eq : known.size = code.length
  decode_eq : ∀ (offset : Nat) program, known[offset]? = some (some program) →
    Program.decode code offset = .ok program

theorem Program.lt_of_decode {code : List UInt8} {offset : Nat} {program : Program}
    (decoded : Program.decode code offset = .ok program) : offset < code.length := by
  rcases Nat.lt_or_ge offset code.length with inside | outside
  · exact inside
  · rw [decode_eq_read, List.drop_eq_nil_of_le outside] at decoded
    cases decoded

/-- What learning one program leaves behind: nothing is forgotten, and the program at the address
is known. -/
structure Learned (code : List UInt8) (address : Int16) (before after : Array (Option Program)) :
    Prop where
  decoded : Decoded code after
  kept : ∀ (offset : Nat) program, before[offset]? = some (some program) →
    after[offset]? = some (some program)
  found : 0 < address → ∃ program, after[address.toInt.toNat]? = some (some program)

theorem learnProgram_learned {code : List UInt8} {known after : Array (Option Program)}
    {address : Int16} (decoded : Decoded code known)
    (learned : learnProgram code known address = .ok after) : Learned code address known after := by
  unfold learnProgram at learned
  split at learned
  · dsimp only at learned
    split at learned
    · rename_i positive program present
      cases learned
      exact ⟨decoded, fun _ _ held => held, fun _ => ⟨program, present⟩⟩
    · rename_i positive absent
      split at learned
      · rename_i program read
        cases learned
        have inside := Program.lt_of_decode read
        rw [← decoded.size_eq] at inside
        refine ⟨⟨by simpa using decoded.size_eq, ?_⟩, ?_, ?_⟩
        · intro offset other held
          rw [Array.getElem?_setIfInBounds] at held
          split at held
          · rename_i same
            subst same
            simp only [Option.some.injEq] at held
            exact held ▸ read
          · exact decoded.decode_eq offset other held
        -- The place was free, so no program that was known is overwritten.
        · intro offset other held
          rw [Array.getElem?_setIfInBounds]
          split
          · rename_i same
            subst same
            exact absurd held (absent other)
          · exact held
        · intro _
          exact ⟨program, Array.getElem?_setIfInBounds_self_of_lt inside⟩
      · cases learned
  · rename_i nonpositive
    cases learned
    exact ⟨decoded, fun _ _ held => held, fun positive => absurd positive nonpositive⟩

theorem learnProgram_known {code : List UInt8} {known after : Array (Option Program)}
    {address : Int16} (learned : learnProgram code known address = .ok after) {offset : Nat}
    {program : Program} (held : after[offset]? = some (some program)) :
    known[offset]? = some (some program) ∨ 0 < address ∧ address.toInt.toNat = offset := by
  unfold learnProgram at learned
  split at learned
  · rename_i positive
    by_cases same : address.toInt.toNat = offset
    · exact .inr ⟨positive, same⟩
    · refine .inl ?_
      dsimp only at learned
      split at learned
      · cases learned
        exact held
      · split at learned
        · cases learned
          rwa [Array.getElem?_setIfInBounds_ne same] at held
        · cases learned
  · cases learned
    exact .inl held

theorem learnProgram_succeeds {code : List UInt8} {address : Int16}
    (decodes : 0 < address → ∃ program, Program.decode code address.toInt.toNat = .ok program)
    (known : Array (Option Program)) : ∃ after, learnProgram code known address = .ok after := by
  unfold learnProgram
  split
  · rename_i positive
    obtain ⟨program, decoded⟩ := decodes positive
    dsimp only
    split
    · exact ⟨known, rfl⟩
    · rw [decoded]
      exact ⟨_, rfl⟩
  · exact ⟨known, rfl⟩

def CaptureDemand.Met (captures : CaptureParts) (known : Array (Option Program)) :
    CaptureDemand → Prop
  | .row _ offset => 0 ≤ offset ∧ offset.toInt.toNat + columns ≤ captures.transCode.size
  | .program address =>
    0 < address → ∃ program, known[address.toInt.toNat]? = some (some program)

theorem CaptureParts.meet_learned {captures : CaptureParts}
    {known after : Array (Option Program)} {demand : CaptureDemand}
    (decoded : Decoded captures.code known) (met : captures.meet known demand = .ok after) :
    Decoded captures.code after ∧ demand.Met captures after ∧
      ∀ other : CaptureDemand, other.Met captures known → other.Met captures after := by
  cases demand with
  | row state offset =>
    simp only [meet, check_bind_eq_ok_iff, checkRow_eq_ok_iff, pure_eq_ok,
      Except.ok.injEq] at met
    obtain ⟨fits, rfl⟩ := met
    exact ⟨decoded, fits, fun _ held => held⟩
  | program address =>
    have learned := learnProgram_learned decoded met
    refine ⟨learned.decoded, learned.found, ?_⟩
    intro other held
    cases other with
    | row state offset => exact held
    | program other =>
      intro positive
      obtain ⟨program, present⟩ := held positive
      exact ⟨program, learned.kept _ program present⟩

theorem CaptureParts.meet_all {captures : CaptureParts} {demands : List CaptureDemand}
    {programs : Array (Option Program)}
    (met : demands.foldlM captures.meet (Array.replicate captures.code.length none) =
      .ok programs) :
    Decoded captures.code programs ∧ ∀ demand ∈ demands, demand.Met captures programs := by
  refine foldlM_induction
    (fun done known => Decoded captures.code known ∧ ∀ demand ∈ done, demand.Met captures known)
    ⟨⟨by simp, ?_⟩, by simp⟩ ?_ met
  · intro offset program held
    rw [Array.getElem?_replicate] at held
    split at held <;> cases held
  · rintro done demand known after ⟨decoded, earlier⟩ _ step
    obtain ⟨decoded', now, kept⟩ := meet_learned decoded step
    refine ⟨decoded', ?_⟩
    intro other member
    rcases List.mem_append.mp member with old | new
    · exact kept other (earlier other old)
    · rw [List.mem_singleton] at new
      exact new ▸ now

theorem CaptureParts.meet_known {captures : CaptureParts} {demands : List CaptureDemand}
    {programs : Array (Option Program)}
    (met : demands.foldlM captures.meet (Array.replicate captures.code.length none) =
      .ok programs) {offset : Nat} {program : Program}
    (held : programs[offset]? = some (some program)) :
    ∃ address, .program address ∈ demands ∧ 0 < address ∧ address.toInt.toNat = offset := by
  refine foldlM_induction
    (fun done known => ∀ program, known[offset]? = some (some program) →
      ∃ address, .program address ∈ done ∧ 0 < address ∧ address.toInt.toNat = offset)
    ?_ ?_ met program held
  · intro program held
    rw [Array.getElem?_replicate] at held
    split at held <;> cases held
  · intro done demand known after earlier _ step program held
    -- What was known before was demanded before, and only a program adds to it.
    have cases : known[offset]? = some (some program) ∨
        ∃ address, demand = .program address ∧ 0 < address ∧ address.toInt.toNat = offset := by
      cases demand with
      | row state place =>
        simp only [meet, check_bind_eq_ok_iff, pure_eq_ok, Except.ok.injEq] at step
        obtain ⟨_, rfl⟩ := step
        exact .inl held
      | program address =>
        exact (learnProgram_known step held).imp id fun new => ⟨address, rfl, new⟩
    rcases cases with old | ⟨address, rfl, new⟩
    · obtain ⟨address, member, place⟩ := earlier program old
      exact ⟨address, List.mem_append_left _ member, place⟩
    · exact ⟨address, List.mem_append_right _ List.mem_cons_self, new⟩

/-- The capture entries and their decoded programs serve every lookup of a scan. -/
structure CaptureTables.Valid (captures : CaptureTables) (parts : PlainParts) : Prop where
  baseCode_size : captures.parts.baseCode.size = parts.base.size
  backtrackCode_size : captures.parts.backtrackCode.size = parts.base.size
  fallbackCode_size : captures.parts.fallbackCode.size = parts.base.size
  checkCode_size : captures.parts.checkCode.size = captures.parts.transCode.size
  met : ∀ demand ∈ captures.parts.demands parts,
    demand.Met captures.parts captures.programs
  decoded : Decoded captures.parts.code captures.programs
  cells_eq : captures.cells = cellsNeeded captures.programs

namespace CaptureParts

variable {captures : CaptureParts} {parts : PlainParts} {state slot : Nat}

theorem mem_demands_of_state (inside : state < parts.base.size) {demand : CaptureDemand}
    (member : demand ∈ captures.stateDemands parts state) : demand ∈ captures.demands parts :=
  List.mem_append_left _ (List.mem_flatMap.mpr ⟨state, List.mem_range.mpr inside, member⟩)

theorem accept_demanded (inside : state < parts.base.size) (final : parts.base.getD state 0 < 0) :
    .program (captures.baseCode.getD state 0) ∈ captures.demands parts := by
  refine mem_demands_of_state inside ?_
  simp only [stateDemands, if_pos final]
  split <;> simp

theorem row_demanded (inside : state < parts.base.size) (row : 0 ≤ parts.base.getD state 0) :
    .row state (captures.baseCode.getD state 0) ∈ captures.demands parts ∧
      .program (captures.fallbackCode.getD state 0) ∈ captures.demands parts := by
  have unfinished : ¬ parts.base.getD state 0 < 0 := Int16.not_lt.mpr row
  constructor
  · refine mem_demands_of_state inside ?_
    simp only [stateDemands, if_neg unfinished]
    split <;> simp
  · refine mem_demands_of_state inside ?_
    simp only [stateDemands, if_neg unfinished]
    split <;> simp

theorem backtrack_demanded (inside : state < parts.base.size)
    (marked : 0 ≤ parts.backtrack.getD state 0) :
    .program (captures.backtrackCode.getD state 0) ∈ captures.demands parts := by
  refine mem_demands_of_state inside ?_
  simp only [stateDemands, if_pos marked]
  simp

theorem slot_demanded (inside : slot < captures.checkCode.size)
    (taken : owned (captures.checkCode.getD slot 0) parts.base.size) :
    .program (captures.transCode.getD slot 0) ∈ captures.demands parts := by
  refine List.mem_append_right _ (List.mem_flatMap.mpr ⟨slot, List.mem_range.mpr inside, ?_⟩)
  rw [slotDemands, if_pos taken]
  exact List.mem_cons_self

/-- All that a state demands: its tag program or its row and the program of its fallback, and the
program of its backtrack point. -/
theorem stateDemands_cases {demand : CaptureDemand}
    (member : demand ∈ captures.stateDemands parts state) :
    (parts.base.getD state 0 < 0 ∧ demand = .program (captures.baseCode.getD state 0)) ∨
    (0 ≤ parts.base.getD state 0 ∧ (demand = .row state (captures.baseCode.getD state 0) ∨
      demand = .program (captures.fallbackCode.getD state 0))) ∨
    (0 ≤ parts.backtrack.getD state 0 ∧
      demand = .program (captures.backtrackCode.getD state 0)) := by
  rw [stateDemands] at member
  by_cases final : parts.base.getD state 0 < 0 <;>
    by_cases marked : 0 ≤ parts.backtrack.getD state 0 <;>
    simp only [final, marked, if_true, if_false, List.mem_append, List.mem_cons,
      List.not_mem_nil, or_false] at member
  · exact member.imp (⟨final, ·⟩) fun tag => .inr ⟨marked, tag⟩
  · exact .inl ⟨final, member⟩
  · exact .inr (member.imp (⟨Int16.not_lt.mp final, ·⟩) (⟨marked, ·⟩))
  · exact .inr (.inl ⟨Int16.not_lt.mp final, member⟩)

theorem slotDemands_cases {states : Nat} {demand : CaptureDemand}
    (member : demand ∈ captures.slotDemands states slot) :
    owned (captures.checkCode.getD slot 0) states ∧
      demand = .program (captures.transCode.getD slot 0) := by
  rw [slotDemands] at member
  by_cases taken : owned (captures.checkCode.getD slot 0) states
  · rw [if_pos taken, List.mem_singleton] at member
    exact ⟨taken, member⟩
  · rw [if_neg taken] at member
    cases member

end CaptureParts

theorem CaptureTables.ofParts_eq_ok {parts : PlainParts} {capture : CaptureParts}
    {captures : CaptureTables} (made : CaptureTables.ofParts parts capture = .ok captures) :
    captures.parts = capture ∧ captures.Valid parts := by
  unfold ofParts at made
  simp only [check_bind_eq_ok_iff, expectLength_eq_ok_iff] at made
  obtain ⟨bases, backtracks, fallbacks, checks, made⟩ := made
  simp only [bind_eq_ok_iff, pure_eq_ok, Except.ok.injEq] at made
  obtain ⟨programs, met, rfl⟩ := made
  obtain ⟨decoded, all⟩ := CaptureParts.meet_all met
  exact ⟨rfl, bases, backtracks, fallbacks, checks, all, decoded, rfl⟩

theorem cellsNeeded_le_iff {programs : Array (Option Program)} {bound : Nat} :
    cellsNeeded programs ≤ bound ↔
      ∀ entry ∈ programs.toList, entry.elim 0 Program.cellsNeeded ≤ bound := by
  rw [cellsNeeded, ← Array.foldl_toList, foldl_max_le_iff]
  simp

theorem le_cellsNeeded {programs : Array (Option Program)} {offset : Nat} {program : Program}
    (known : programs[offset]? = some (some program)) :
    program.cellsNeeded ≤ cellsNeeded programs := by
  rw [← Array.getElem?_toList] at known
  exact cellsNeeded_le_iff.mp (Nat.le_refl _) (some program) (List.mem_of_getElem? known)

theorem cellsNeeded_le (programs : Array (Option Program)) : cellsNeeded programs ≤ 255 := by
  rw [cellsNeeded_le_iff]
  intro entry _
  cases entry with
  | none => exact Nat.zero_le 255
  | some program => exact program.cellsNeeded_le

theorem CaptureTables.Valid.cells_le {captures : CaptureTables} {parts : PlainParts}
    (valid : captures.Valid parts) : captures.cells ≤ 255 := by
  rw [valid.cells_eq]
  exact cellsNeeded_le captures.programs

structure Tables.Valid (tables : Tables) : Prop where
  plain : tables.parts.Valid
  captures : ∀ captures, tables.captures = some captures → captures.Valid tables.parts

theorem Tables.ofParts_eq_ok {parts : PlainParts} {capture : Option CaptureParts}
    {tables : Tables} (made : Tables.ofParts parts capture = .ok tables) :
    tables.parts = parts ∧ tables.captures.map CaptureTables.parts = capture ∧ tables.Valid := by
  unfold ofParts at made
  rw [check_bind_eq_ok_iff, PlainParts.validate_eq_ok_iff] at made
  obtain ⟨valid, made⟩ := made
  cases capture with
  | none =>
    simp only [Option.mapM_none, pure_eq_ok, ok_bind, Except.ok.injEq] at made
    subst made
    exact ⟨rfl, rfl, valid, by simp⟩
  | some capture =>
    simp only [Option.mapM_some, bind_eq_ok_iff, map_eq_pure_bind, pure_eq_ok,
      Except.ok.injEq] at made
    obtain ⟨_, ⟨captures, compiled, rfl⟩, rfl⟩ := made
    obtain ⟨same, served⟩ := CaptureTables.ofParts_eq_ok compiled
    refine ⟨rfl, congrArg some same, valid, ?_⟩
    intro other carried
    cases carried
    exact served

theorem Tables.captures_of_ofParts {parts : PlainParts} {capture : CaptureParts} {tables : Tables}
    (made : Tables.ofParts parts (some capture) = .ok tables) {captures : CaptureTables}
    (carried : tables.captures = some captures) :
    captures.Valid parts ∧ captures.parts = capture ∧
      ∀ (offset : Nat) program, captures.programs[offset]? = some (some program) →
        ∃ address, .program address ∈ capture.demands parts ∧ 0 < address ∧
          address.toInt.toNat = offset := by
  unfold ofParts at made
  rw [check_bind_eq_ok_iff] at made
  simp only [Option.mapM_some, bind_eq_ok_iff, map_eq_pure_bind, pure_eq_ok,
    Except.ok.injEq] at made
  obtain ⟨_, _, ⟨captures', compiled, rfl⟩, rfl⟩ := made
  cases carried
  obtain ⟨same, valid⟩ := CaptureTables.ofParts_eq_ok compiled
  refine ⟨valid, same, ?_⟩
  unfold CaptureTables.ofParts at compiled
  simp only [check_bind_eq_ok_iff] at compiled
  obtain ⟨_, _, _, _, compiled⟩ := compiled
  simp only [bind_eq_ok_iff, pure_eq_ok, Except.ok.injEq] at compiled
  obtain ⟨programs, met, rfl⟩ := compiled
  exact fun _ _ held => CaptureParts.meet_known met held

theorem Tables.valid_of_ofParts {parts : PlainParts} {capture : Option CaptureParts}
    {tables : Tables} (made : Tables.ofParts parts capture = .ok tables) : tables.Valid :=
  (ofParts_eq_ok made).2.2

end TableLexer
