/-! Operations on arrays and machine words that may have no result. An index or a slice can
miss its array, a number can leave the machine word, and an array can be too large to hold. -/

set_option autoImplicit false

namespace TableLexer

inductive Fault where
  | outOfRange
  | overflow
  | capacity
  deriving DecidableEq, Repr

/-- Offsets and sizes are below this bound. -/
def wordLimit : Nat := UInt64.size

def fetch {α : Type} (items : Array α) (i : Nat) : Except Fault α :=
  if h : i < items.size then .ok items[i] else .error .outOfRange

theorem fetch_eq_ok_iff {α : Type} {items : Array α} {i : Nat} {item : α} :
    fetch items i = .ok item ↔ ∃ h : i < items.size, items[i] = item := by
  unfold fetch
  split
  · rename_i inside
    simp [inside]
  · rename_i outside
    simp [outside]

def store {α : Type} (items : Array α) (i : Nat) (item : α) : Except Fault (Array α) :=
  if h : i < items.size then .ok (items.set i item) else .error .outOfRange

def addWord (a b : Nat) : Except Fault Nat :=
  if a + b < wordLimit then .ok (a + b) else .error .overflow

theorem addWord_of_lt {a b : Nat} (small : a + b < wordLimit) : addWord a b = .ok (a + b) :=
  if_pos small

def subWord (a b : Nat) : Except Fault Nat :=
  if b ≤ a then .ok (a - b) else .error .overflow

theorem subWord_of_le {a b : Nat} (le : b ≤ a) : subWord a b = .ok (a - b) :=
  if_pos le

end TableLexer
