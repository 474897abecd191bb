import TableLexer.Proofs.Tables.CaptureValidity

/-! Tables without slots of their own: every state treats all symbols alike, by its fallback. They
are valid when their rows are empty and their fallbacks are states, and they serve as the smallest
tables on which an attempt can back up or be suspended. -/

set_option autoImplicit false

namespace TableLexer

def freeSlots : Array Int16 :=
  Array.replicate columns (-1)

theorem freeSlots_free (states : Nat) {slot : Nat} (inside : slot < freeSlots.size) :
    owned (freeSlots.getD slot 0) states = false := by
  have free : freeSlots.getD slot 0 = -1 := by
    rw [freeSlots, Array.size_replicate] at inside
    simp [freeSlots, inside]
  rw [free]
  exact decide_eq_false fun taken => absurd taken.1 (by decide)

def PlainParts.uniform (base backtrack fallback : Array Int16) : PlainParts :=
  { base, backtrack, fallback, trans := freeSlots, check := freeSlots }

theorem PlainParts.uniform_valid {base backtrack fallback : Array Int16}
    (states_pos : 0 < base.size) (states_le : base.size ≤ maxStates)
    (backtrack_size : backtrack.size = base.size) (fallback_size : fallback.size = base.size)
    (rows : ∀ state < base.size, base.getD state 0 ≤ 0)
    (known : ∀ state < base.size, (fallback.getD state 0).toInt < base.size) :
    (PlainParts.uniform base backtrack fallback).Valid where
  states_pos := states_pos
  states_le := states_le
  backtrack_size := backtrack_size
  fallback_size := fallback_size
  check_size := rfl
  row_fits state inside row := by
    have zero : (base.getD state 0).toInt ≤ 0 := by
      simpa [Int16.le_iff_toInt_le] using rows state inside
    have room : (PlainParts.uniform base backtrack fallback).trans.size = columns :=
      Array.size_replicate
    change (base.getD state 0).toInt.toNat + columns ≤ _
    omega
  fallback_known state inside target read := by
    rw [entryValue?_eq_some_iff] at read
    have bound := known state inside
    change (fallback.getD state 0).toInt = target at read
    change target < base.size
    omega
  slot_known slot inside taken := by
    change owned (freeSlots.getD slot 0) base.size = true at taken
    rw [freeSlots_free base.size inside] at taken
    cases taken

theorem Tables.ofParts_plain {parts : PlainParts} (valid : parts.Valid) :
    Tables.ofParts parts none = .ok { parts, captures := none } := by
  rw [ofParts, PlainParts.validate_eq_ok_iff.mpr valid]
  rfl

def CaptureParts.uniform (baseCode backtrackCode fallbackCode : Array Int16)
    (code : List UInt8) : CaptureParts :=
  { baseCode, backtrackCode, fallbackCode, transCode := freeSlots, checkCode := freeSlots, code }

theorem CaptureParts.uniform_demands (parts : PlainParts)
    (baseCode backtrackCode fallbackCode : Array Int16) (code : List UInt8) :
    (CaptureParts.uniform baseCode backtrackCode fallbackCode code).demands parts =
      (List.range parts.base.size).flatMap
        ((CaptureParts.uniform baseCode backtrackCode fallbackCode code).stateDemands parts) := by
  have nothing : (List.range freeSlots.size).flatMap
      ((CaptureParts.uniform baseCode backtrackCode fallbackCode code).slotDemands
        parts.base.size) = [] := by
    rw [List.flatMap_eq_nil_iff]
    intro slot inside
    rw [List.mem_range] at inside
    change (if owned (freeSlots.getD slot 0) parts.base.size then _ else _) = _
    rw [freeSlots_free parts.base.size inside]
    rfl
  change _ ++ (List.range freeSlots.size).flatMap _ = _
  rw [nothing, List.append_nil]

theorem Tables.ofParts_captured {parts : PlainParts} (valid : parts.Valid) {capture : CaptureParts}
    {captures : CaptureTables} (made : CaptureTables.ofParts parts capture = .ok captures) :
    Tables.ofParts parts (some capture) = .ok { parts, captures := some captures } := by
  have mapped : (some capture).mapM (CaptureTables.ofParts parts) = .ok (some captures) := by
    change CaptureTables.ofParts parts capture >>= _ = _
    rw [made]
    rfl
  rw [ofParts, PlainParts.validate_eq_ok_iff.mpr valid, ok_bind, mapped]
  rfl

theorem CaptureTables.ofParts_learned {parts : PlainParts} {capture : CaptureParts}
    {programs : Array (Option Program)}
    (baseCode_size : capture.baseCode.size = parts.base.size)
    (backtrackCode_size : capture.backtrackCode.size = parts.base.size)
    (fallbackCode_size : capture.fallbackCode.size = parts.base.size)
    (checkCode_size : capture.checkCode.size = capture.transCode.size)
    (learned : (capture.demands parts).foldlM capture.meet
      (Array.replicate capture.code.length none) = .ok programs) :
    CaptureTables.ofParts parts capture =
      .ok { parts := capture, programs, cells := cellsNeeded programs } := by
  simp only [ofParts, expectLength_eq_ok_iff.mpr baseCode_size,
    expectLength_eq_ok_iff.mpr backtrackCode_size, expectLength_eq_ok_iff.mpr fallbackCode_size,
    expectLength_eq_ok_iff.mpr checkCode_size, ok_bind, learned, pure_eq_ok]

theorem CaptureTables.ofParts_succeeds {parts : PlainParts} {capture : CaptureParts}
    (baseCode_size : capture.baseCode.size = parts.base.size)
    (backtrackCode_size : capture.backtrackCode.size = parts.base.size)
    (fallbackCode_size : capture.fallbackCode.size = parts.base.size)
    (checkCode_size : capture.checkCode.size = capture.transCode.size)
    (rows : ∀ state offset, .row state offset ∈ capture.demands parts →
      0 ≤ offset ∧ offset.toInt.toNat + columns ≤ capture.transCode.size)
    (programs : ∀ address, .program address ∈ capture.demands parts → 0 < address →
      ∃ program, Program.decode capture.code address.toInt.toNat = .ok program) :
    ∃ captures, CaptureTables.ofParts parts capture = .ok captures := by
  have learns : ∃ known, (capture.demands parts).foldlM capture.meet
      (Array.replicate capture.code.length none) = .ok known ∧ True := by
    refine foldlM_succeeds (fun _ _ => True) trivial ?_
    intro done demand rest known shape _
    have member : demand ∈ capture.demands parts := by simp [shape]
    cases demand with
    | row state offset =>
      refine ⟨known, ?_, trivial⟩
      rw [CaptureParts.meet, checkRow_eq_ok_iff.mpr (rows state offset member)]
      rfl
    | program address =>
      obtain ⟨after, learned⟩ := learnProgram_succeeds (programs address member) known
      exact ⟨after, learned, trivial⟩
  obtain ⟨known, learned, _⟩ := learns
  exact ⟨_, ofParts_learned baseCode_size backtrackCode_size fallbackCode_size checkCode_size
    learned⟩

/-- Three states in a row, along which any symbol moves. The second one is a backtrack point and
the last one has no successor. -/
def chainParts : PlainParts :=
  .uniform #[0, 0, 0] #[-1, 5, -1] #[1, 2, -1]

def chainTables : Tables :=
  { parts := chainParts, captures := none }

theorem chainTables_accepted : Tables.ofParts chainParts none = .ok chainTables :=
  Tables.ofParts_plain (PlainParts.uniform_valid (by decide) (by decide) rfl rfl (by decide)
    (by decide))

def firstCell : CellId := 0

def secondCell : CellId := 1

/-- Parts of three states in a row. The move to the second state records its position in the first
cell, and the tag there moves it on to the second. -/
def rerunParts : PlainParts :=
  .uniform #[0, 0, -2] #[-1, 0, -1] #[1, 2, -1]

def rerunCapture : CaptureParts :=
  .uniform #[0, 0, 0] #[0, 4, 0] #[1, 0, 0] [255, 0, 255, 255, 1, 0, 0, 255, 255]

def rerunCaptures : CaptureTables where
  parts := rerunCapture
  programs :=
    #[none, some [.mark firstCell], none, none,
      some [.copy secondCell firstCell, .mark firstCell], none, none, none, none]
  cells := 2

def rerunTables : Tables :=
  { parts := rerunParts, captures := some rerunCaptures }

theorem rerunTables_accepted :
    Tables.ofParts rerunParts (some rerunCapture) = .ok rerunTables := by
  have valid : rerunParts.Valid :=
    PlainParts.uniform_valid (by decide) (by decide) rfl rfl (by decide) (by decide)
  have learned : (rerunCapture.demands rerunParts).foldlM rerunCapture.meet
      (Array.replicate rerunCapture.code.length none) = .ok rerunCaptures.programs := by
    rw [rerunCapture, CaptureParts.uniform_demands]
    exact toOption_eq_some_iff.mp (by decide +kernel)
  have made := CaptureTables.ofParts_learned rfl rfl rfl (by rfl) learned
  exact Tables.ofParts_captured valid made

end TableLexer
