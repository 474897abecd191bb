import TableLexer.Proofs.Fallible
import TableLexer.Proofs.Tables.Entries
import TableLexer.Tables.Lookup

/-! What validation guarantees of the recognition entries: a row for every state that does not
accept, and no target that is not a state. Validation accepts exactly such entries. -/

set_option autoImplicit false

namespace TableLexer

/-- The recognition entries are laid out so that no lookup misses and no target is unknown. -/
structure PlainParts.Valid (parts : PlainParts) : Prop where
  states_pos : 0 < parts.base.size
  states_le : parts.base.size ≤ maxStates
  backtrack_size : parts.backtrack.size = parts.base.size
  fallback_size : parts.fallback.size = parts.base.size
  check_size : parts.check.size = parts.trans.size
  row_fits : ∀ state < parts.base.size, 0 ≤ parts.base.getD state 0 →
    (parts.base.getD state 0).toInt.toNat + columns ≤ parts.trans.size
  fallback_known : ∀ state < parts.base.size, ∀ target,
    entryValue? (parts.fallback.getD state 0) = some target → target < parts.base.size
  slot_known : ∀ slot < parts.check.size, owned (parts.check.getD slot 0) parts.base.size →
    ∀ target, entryValue? (parts.trans.getD slot 0) = some target → target < parts.base.size

structure PlainParts.Shaped (parts : PlainParts) : Prop where
  backtrack_size : parts.backtrack.size = parts.base.size
  fallback_size : parts.fallback.size = parts.base.size
  check_size : parts.check.size = parts.trans.size
  row_fits : ∀ state < parts.base.size, 0 ≤ parts.base.getD state 0 →
    (parts.base.getD state 0).toInt.toNat + columns ≤ parts.trans.size

theorem expectLength_eq_ok_iff {field : Field} {found expected : Nat} :
    expectLength field found expected = .ok () ↔ found = expected := by
  simp [expectLength]

theorem checkRow_eq_ok_iff {field : Field} {state : Nat} {offset : Int16} {room : Nat} :
    checkRow field state offset room = .ok () ↔
      0 ≤ offset ∧ offset.toInt.toNat + columns ≤ room := by
  simp [checkRow]

theorem checkTarget_eq_ok_iff {field : Field} {index : Nat} {target : Int16} {states : Nat} :
    checkTarget field index target states = .ok () ↔
      ∀ value, entryValue? target = some value → value < states := by
  unfold checkTarget
  split
  · rename_i bad
    simp only [reduceCtorEq, false_iff]
    intro known
    have inside := known target.toInt.toNat (entryValue?_of_nonneg bad.1)
    omega
  · rename_i good
    simp only [true_iff]
    intro value read
    rw [entryValue?_eq_some_iff] at read
    rw [entry_nonneg_iff] at good
    omega

theorem PlainParts.checkState_eq_ok_iff {parts : PlainParts} {state : Nat} :
    parts.checkState state = .ok () ↔
      (0 ≤ parts.base.getD state 0 →
        (parts.base.getD state 0).toInt.toNat + columns ≤ parts.trans.size) ∧
      ∀ target, entryValue? (parts.fallback.getD state 0) = some target →
        target < parts.base.size := by
  unfold checkState
  by_cases row : 0 ≤ parts.base.getD state 0
  · rw [if_pos row, check_bind_eq_ok_iff, checkRow_eq_ok_iff, checkTarget_eq_ok_iff]
    simp only [row, true_and, true_implies]
  · rw [if_neg row, checkTarget_eq_ok_iff]
    simp only [row, false_implies, true_and]

theorem PlainParts.checkSlot_eq_ok_iff {parts : PlainParts} {slot : Nat} :
    parts.checkSlot slot = .ok () ↔ (owned (parts.check.getD slot 0) parts.base.size →
      ∀ target, entryValue? (parts.trans.getD slot 0) = some target →
        target < parts.base.size) := by
  unfold checkSlot
  split
  · rename_i taken
    simp only [checkTarget_eq_ok_iff, taken, true_implies]
  · rename_i free
    simp only [free, Bool.false_eq_true, false_implies]

theorem owned_ofNat {state states : Nat} (inside : state < states) (few : states ≤ maxStates) :
    owned (Int16.ofNat state) states := by
  rw [owned, decide_eq_true_eq, entry_nonneg_iff,
    toInt_ofNat_small (Nat.lt_of_lt_of_le inside few)]
  exact ⟨Int.natCast_nonneg state, (Int.toNat_natCast state).symm ▸ inside⟩

theorem PlainParts.validate_eq_ok_iff {parts : PlainParts} :
    parts.validate = .ok () ↔ parts.Valid := by
  unfold validate
  by_cases none : parts.base.size = 0
  · simp only [none, if_true, throw_eq_error, error_bind, reduceCtorEq, false_iff]
    intro valid
    exact absurd valid.states_pos (by omega)
  by_cases many : maxStates < parts.base.size
  · simp only [none, many, if_true, if_false, throw_eq_error, error_bind, reduceCtorEq, false_iff]
    intro valid
    exact absurd valid.states_le (by omega)
  simp only [none, many, if_false, check_bind_eq_ok_iff, expectLength_eq_ok_iff,
    forM_eq_ok_iff, List.mem_range, checkState_eq_ok_iff, checkSlot_eq_ok_iff]
  constructor
  · rintro ⟨backtracks, fallbacks, checks, states, slots⟩
    exact {
      states_pos := by omega
      states_le := by omega
      backtrack_size := backtracks
      fallback_size := fallbacks
      check_size := checks
      row_fits := fun state inside => (states state inside).1
      fallback_known := fun state inside => (states state inside).2
      slot_known := slots }
  · intro valid
    exact ⟨valid.backtrack_size, valid.fallback_size, valid.check_size,
      fun state inside => ⟨valid.row_fits state inside, valid.fallback_known state inside⟩,
      valid.slot_known⟩

end TableLexer
