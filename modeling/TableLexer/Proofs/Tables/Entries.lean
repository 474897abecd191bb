import TableLexer.Automaton.Interning
import TableLexer.Recognition.Run

/-! Signed 16-bit entries as the numbers they stand for. A non-negative entry is a number below
32768 and a negative one stands for none; a negative base holds an action instead. -/

set_option autoImplicit false

namespace TableLexer

theorem entry_neg_iff {entry : Int16} : entry < 0 ↔ entry.toInt < 0 := by
  simp [Int16.lt_iff_toInt_lt]

theorem entry_nonneg_iff {entry : Int16} : 0 ≤ entry ↔ 0 ≤ entry.toInt := by
  simp [Int16.le_iff_toInt_le]

theorem entry_pos_iff {entry : Int16} : 0 < entry ↔ 0 < entry.toInt := by
  simp [Int16.lt_iff_toInt_lt]

theorem toInt_ofNat_small {value : Nat} (small : value < 32768) :
    (Int16.ofNat value).toInt = value :=
  Int16.toInt_ofNat_of_lt small

theorem ofNat_entry_inj {first second : Nat} (small : first < 32768) (small' : second < 32768) :
    Int16.ofNat first = Int16.ofNat second ↔ first = second := by
  constructor
  · intro same
    have numbers := congrArg Int16.toInt same
    rw [toInt_ofNat_small small, toInt_ofNat_small small'] at numbers
    exact Int.ofNat.inj numbers
  · rintro rfl
    rfl

def entryValue? (entry : Int16) : Option Nat :=
  if entry < 0 then none else some entry.toInt.toNat

theorem entryValue?_eq_none_iff {entry : Int16} : entryValue? entry = none ↔ entry < 0 := by
  simp [entryValue?]

theorem entryValue?_eq_some_iff {entry : Int16} {value : Nat} :
    entryValue? entry = some value ↔ entry.toInt = value := by
  unfold entryValue?
  split
  · rename_i negative
    rw [entry_neg_iff] at negative
    simp only [reduceCtorEq, false_iff]
    omega
  · rename_i nonneg
    rw [entry_neg_iff] at nonneg
    simp only [Option.some.injEq]
    omega

theorem entryValue?_isSome_iff {entry : Int16} : (entryValue? entry).isSome ↔ 0 ≤ entry := by
  simp [entryValue?, entry_neg_iff, entry_nonneg_iff]

theorem entryValue?_of_nonneg {entry : Int16} (nonneg : 0 ≤ entry) :
    entryValue? entry = some entry.toInt.toNat :=
  entryValue?_eq_some_iff.mpr (by rw [entry_nonneg_iff] at nonneg; omega)

theorem entryValue?_ofNat {value : Nat} (small : value < 32768) :
    entryValue? (Int16.ofNat value) = some value :=
  entryValue?_eq_some_iff.mpr (toInt_ofNat_small small)

theorem tableEntry_eq_ok_iff {field : Field} {value : Nat} {entry : Int16} :
    tableEntry field value = .ok entry ↔ value < 32768 ∧ entry = Int16.ofNat value := by
  unfold tableEntry
  split
  · rename_i small
    simp [small, eq_comm]
  · rename_i large
    simp [large]

theorem entryValue?_of_tableEntry {field : Field} {value : Nat} {entry : Int16}
    (made : tableEntry field value = .ok entry) : entryValue? entry = some value := by
  obtain ⟨small, rfl⟩ := tableEntry_eq_ok_iff.mp made
  exact entryValue?_ofNat small

/-- The action that a base holds, when it is negative. -/
def finalAction? (base : Int16) : Option ActionId :=
  if base < 0 then some (actionOfBase base) else none

theorem finalAction?_eq_none_iff {base : Int16} : finalAction? base = none ↔ 0 ≤ base := by
  simp [finalAction?, entry_neg_iff, entry_nonneg_iff]

theorem finalAction?_eq_some_iff {base : Int16} {action : ActionId} :
    finalAction? base = some action ↔ -base.toInt - 1 = action := by
  unfold finalAction?
  split
  · rename_i negative
    rw [entry_neg_iff] at negative
    rw [Option.some.injEq]
    change (-base.toInt - 1).toNat = (action : Nat) ↔ _
    omega
  · rename_i nonneg
    rw [entry_neg_iff] at nonneg
    simp only [reduceCtorEq, false_iff]
    omega

/-- The negated entry of an action, less one, holds the action. -/
theorem finalAction?_of_entryValue? {entry : Int16} {action : Nat}
    (read : entryValue? entry = some action) : finalAction? (-entry - 1) = some action := by
  rw [entryValue?_eq_some_iff] at read
  rw [finalAction?_eq_some_iff]
  have small := entry.toInt_lt
  have exact_negative : (-(action : Int)).bmod (2 ^ 16) = -action :=
    Int.bmod_eq_of_le (by omega) (by omega)
  have exact_base : (-(action : Int) - 1).bmod (2 ^ 16) = -action - 1 :=
    Int.bmod_eq_of_le (by omega) (by omega)
  have one : (1 : Int16).toInt = 1 := by decide
  rw [Int16.toInt_sub, Int16.toInt_neg, read, exact_negative, one, exact_base]
  omega

end TableLexer
