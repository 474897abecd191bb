import Mathlib.Algebra.Group.Int.Defs
import Mathlib.Algebra.Group.Nat.Defs
import TableLexer.Proofs.Tables.Views

/-! Arithmetic on machine integers, as a build carries it out that checks for overflow. A signed
result that leaves 32 bits is a fault, and so is an offset that leaves the machine word. A
conversion is never a fault: it cuts bits off or repeats the sign. -/

set_option autoImplicit false

namespace TableLexer.Machine

def signed (value : Int) : Except Fault Int32 :=
  if -2 ^ 31 ≤ value ∧ value < 2 ^ 31 then .ok (.ofInt value) else .error .overflow

def addSigned (a b : Int32) : Except Fault Int32 :=
  signed (a.toInt + b.toInt)

def subSigned (a b : Int32) : Except Fault Int32 :=
  signed (a.toInt - b.toInt)

def negSigned (a : Int32) : Except Fault Int32 :=
  signed (-a.toInt)

theorem signed_fits (value : Int) (low : -2 ^ 31 ≤ value) (high : value < 2 ^ 31) :
    ∃ word, signed value = .ok word ∧ word.toInt = value :=
  ⟨.ofInt value, if_pos ⟨low, high⟩, Int32.toInt_ofInt_of_le low high⟩

theorem toNat_of_nonneg {width : Nat} {bits : BitVec width} (nonneg : 0 ≤ bits.toInt) :
    bits.toNat = bits.toInt.toNat := by
  rw [BitVec.toInt_eq_toNat_of_lt (BitVec.toInt_pos_iff.mp nonneg), Int.toNat_natCast]

/-- The number that a code is meant to give; negative codes count down from minus one. -/
def decode (code : Int32) : Except Fault Int32 := do
  if 0 ≤ code then return code
  else negSigned (← addSigned code 1)

/-- No code leaves the signed word, the least one included. -/
theorem decode_eq (code : Int32) :
    ∃ number, decode code = .ok number ∧ number.toInt = (Entry.ofCode code.toInt).state := by
  have zero : (0 : Int32).toInt = 0 := rfl
  have one : (1 : Int32).toInt = 1 := rfl
  have low := code.le_toInt
  have high := code.toInt_lt
  unfold decode
  by_cases fresh : 0 ≤ code
  · rw [if_pos fresh]
    rw [Int32.le_iff_toInt_le, zero] at fresh
    obtain ⟨state, count⟩ := Int.eq_ofNat_of_zero_le fresh
    exact ⟨code, rfl, by rw [count]; rfl⟩
  · rw [if_neg fresh]
    rw [Int32.le_iff_toInt_le, zero, Int.not_le] at fresh
    obtain ⟨next, added, sum⟩ := signed_fits (code.toInt + 1) (by omega) (by omega)
    obtain ⟨number, negated, value⟩ := signed_fits (-next.toInt) (by omega) (by omega)
    refine ⟨number, ?_, ?_⟩
    · rw [addSigned, one, added, ok_bind]
      exact negated
    · obtain ⟨state, count⟩ := Int.eq_negSucc_of_lt_zero fresh
      rw [value, sum, count]
      simp only [Entry.ofCode, Entry.state]
      omega

def suspend (state : Nat) : Except Fault Int32 := do
  subSigned (← negSigned (.ofNat state)) 1

theorem suspend_eq {state : Nat} (small : state < maxStates) :
    ∃ code, suspend state = .ok code ∧ code.toInt = (Entry.resume state).code := by
  have one : (1 : Int32).toInt = 1 := rfl
  have exact_state : (Int32.ofNat state).toInt = state :=
    Int32.toInt_ofNat_of_lt (Nat.lt_trans small (by decide))
  simp only [maxStates] at small
  obtain ⟨negative, negated, value⟩ :=
    signed_fits (-(Int32.ofNat state).toInt) (by omega) (by omega)
  obtain ⟨code, less, value'⟩ := signed_fits (negative.toInt - 1) (by omega) (by omega)
  refine ⟨code, ?_, ?_⟩
  · rw [suspend, negSigned, negated, ok_bind, subSigned, one]
    exact less
  · rw [value', value, exact_state]
    rfl

def finalAction (base : Int16) : Except Fault UInt16 := do
  return (← subSigned (← negSigned base.toInt32) 1).toUInt32.toUInt16

theorem finalAction_eq {base : Int16} (negative : base < 0) :
    ∃ action, finalAction base = .ok action ∧ action.toNat = actionOfBase base := by
  have one : (1 : Int32).toInt = 1 := rfl
  have low := base.le_toInt
  rw [entry_neg_iff] at negative
  obtain ⟨positive, negated, value⟩ :=
    signed_fits (-base.toInt32.toInt) (by rw [Int16.toInt_toInt32]; omega)
      (by rw [Int16.toInt_toInt32]; omega)
  rw [Int16.toInt_toInt32] at value
  obtain ⟨number, less, value'⟩ := signed_fits (positive.toInt - 1) (by omega) (by omega)
  refine ⟨number.toUInt32.toUInt16, ?_, ?_⟩
  · simp only [finalAction, negSigned, negated, ok_bind, subSigned, one, less, pure_eq_ok]
  · have nonneg : 0 ≤ number.toBitVec.toInt := by
      change 0 ≤ number.toInt
      omega
    have cut : number.toUInt32.toUInt16.toNat = number.toBitVec.toNat % 2 ^ 16 := rfl
    have whole : number.toBitVec.toInt.toNat = (-base.toInt - 1).toNat :=
      congrArg Int.toNat (value'.trans (by rw [value]))
    rw [cut, toNat_of_nonneg nonneg, whole, actionOfBase]
    omega

theorem toUInt16_of_nonneg {entry : Int16} (nonneg : 0 ≤ entry) :
    entry.toUInt16.toNat = entry.toInt.toNat :=
  toNat_of_nonneg (entry_nonneg_iff.mp nonneg)

/-- An entry as an offset. The sign of a negative entry fills the word. -/
def offset (entry : Int16) : Nat :=
  entry.toInt64.toUInt64.toNat

theorem offset_of_nonneg {entry : Int16} (nonneg : 0 ≤ entry) :
    offset entry = entry.toInt.toNat := by
  have wide : entry.toInt64.toBitVec.toInt = entry.toInt := Int16.toInt_toInt64 entry
  have nonneg' : 0 ≤ entry.toInt64.toBitVec.toInt := wide ▸ entry_nonneg_iff.mp nonneg
  exact (toNat_of_nonneg nonneg').trans (congrArg Int.toNat wide)

def slot (base : Int16) (column : Nat) : Except Fault Nat :=
  addWord (offset base) column

theorem slot_eq {base : Int16} (row : 0 ≤ base) {column : Nat} (within : column < columns) :
    slot base column = .ok (base.toInt.toNat + column) := by
  have high := base.toInt_lt
  simp only [columns] at within
  rw [slot, offset_of_nonneg row, addWord_of_lt]
  exact Nat.lt_trans (m := 2 ^ 16) (by omega) (by decide)

end TableLexer.Machine
