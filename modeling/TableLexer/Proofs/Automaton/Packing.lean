import Mathlib.Data.List.Nodup
import TableLexer.Automaton.Build
import TableLexer.Proofs.Tables.Views

/-! Packed rows are read back whole. A row takes only free slots and writes its owner into every one
of them, so no slot is shared, and a lookup of any column finds the value of the row or its
fallback. -/

set_option autoImplicit false

namespace TableLexer

def assign (slots : Array Int16) (entries : List (Nat × Int16)) : Array Int16 :=
  entries.foldl (fun slots entry => slots.setIfInBounds entry.1 entry.2) slots

@[simp] theorem size_assign (slots : Array Int16) (entries : List (Nat × Int16)) :
    (assign slots entries).size = slots.size := by
  induction entries generalizing slots with
  | nil => rfl
  | cons entry rest ih => exact (ih _).trans Array.size_setIfInBounds

theorem getD_assign_of_absent {slots : Array Int16} {entries : List (Nat × Int16)} {slot : Nat}
    (absent : ∀ entry ∈ entries, entry.1 ≠ slot) (other : Int16) :
    (assign slots entries).getD slot other = slots.getD slot other := by
  induction entries generalizing slots with
  | nil => rfl
  | cons entry rest ih =>
    have later : (assign (slots.setIfInBounds entry.1 entry.2) rest).getD slot other =
        (slots.setIfInBounds entry.1 entry.2).getD slot other :=
      ih fun entry' member => absent entry' (List.mem_cons_of_mem entry member)
    refine later.trans ?_
    rw [Array.getD_eq_getD_getElem?, Array.getD_eq_getD_getElem?,
      Array.getElem?_setIfInBounds_ne (absent entry List.mem_cons_self)]

theorem getD_assign_of_mem {slots : Array Int16} {entries : List (Nat × Int16)} {slot : Nat}
    {value : Int16} (inside : slot < slots.size) (member : (slot, value) ∈ entries)
    (single : ∀ entry ∈ entries, entry.1 = slot → entry.2 = value) (other : Int16) :
    (assign slots entries).getD slot other = value := by
  induction entries generalizing slots with
  | nil => cases member
  | cons entry rest ih =>
    change (assign (slots.setIfInBounds entry.1 entry.2) rest).getD slot other = value
    -- A slot that is written twice keeps the last value, so a later entry decides.
    by_cases again : ∃ entry' ∈ rest, entry'.1 = slot
    · obtain ⟨entry', member', same⟩ := again
      have value' := single entry' (List.mem_cons_of_mem entry member') same
      have found : (slot, value) ∈ rest := by
        rw [← same, ← value']
        exact member'
      exact ih (by rwa [Array.size_setIfInBounds]) found fun entry'' member'' =>
        single entry'' (List.mem_cons_of_mem entry member'')
    · have absent : ∀ entry' ∈ rest, entry'.1 ≠ slot := fun entry' member' same =>
        again ⟨entry', member', same⟩
      have first : entry = (slot, value) := by
        rcases List.mem_cons.mp member with first | later
        · exact first.symm
        · exact absurd rfl (absent (slot, value) later)
      rw [getD_assign_of_absent absent, first, Array.getD_eq_getD_getElem?,
        Array.getElem?_setIfInBounds_self_of_lt inside]
      rfl

theorem withBases_eq (entries : Array Int16) (bases : Array (Nat × Int16)) :
    withBases entries bases = assign entries bases.toList := by
  rw [withBases, ← Array.foldl_toList]
  rfl

theorem size_extendSlots (slots : Array Int16) (size : Nat) :
    (extendSlots slots size).size = max slots.size size := by
  simp only [extendSlots, Array.size_append, Array.size_replicate]
  omega

theorem getD_extendSlots (slots : Array Int16) (size slot : Nat) :
    (extendSlots slots size).getD slot (-1) = slots.getD slot (-1) := by
  simp only [extendSlots, Array.getD_eq_getD_getElem?, Array.getElem?_append,
    Array.getElem?_replicate]
  split
  · rfl
  · rename_i outside
    rw [Array.getElem?_eq_none (Nat.not_lt.mp outside)]
    split <;> rfl

namespace Row

structure Sparse (row : Row) : Prop where
  within : ∀ cell ∈ row, cell.1 < columns
  single : ∀ cell ∈ row, ∀ other ∈ row, other.1 = cell.1 → other.2 = cell.2

/-- The value of a column: its own cell, or the fallback when it has none. -/
def Gives (row : Row) (fallback : Int16) (column : Nat) (value : Int16) : Prop :=
  (column, value) ∈ row ∨ (∀ cell ∈ row, cell.1 ≠ column) ∧ value = fallback

def owners (row : Row) (offset state : Nat) : List (Nat × Int16) :=
  row.map fun cell => (offset + cell.1, Int16.ofNat state)

def values (row : Row) (offset : Nat) : List (Nat × Int16) :=
  row.map fun cell => (offset + cell.1, cell.2)

end Row

theorem fits_iff {check : Array Int16} {row : Row} {offset : Nat} :
    fits check row offset ↔ ∀ cell ∈ row, check.getD (offset + cell.1) (-1) < 0 := by
  unfold fits
  rw [List.all_eq_true]
  refine forall₂_congr ?_
  rintro ⟨column, value⟩ _
  rw [Array.getD_eq_getD_getElem?]
  dsimp only
  cases check[offset + column]? with
  | none => exact ⟨fun _ => by decide, fun _ => rfl⟩
  | some owner => exact decide_eq_true_iff

theorem firstFitFrom_fits {check : Array Int16} {row : Row} {bound offset : Nat}
    (enough : check.size ≤ offset + bound) :
    fits check row (firstFitFrom check row bound offset) := by
  induction bound generalizing offset with
  | zero =>
    -- Past the last slot everything is free, which is why the search cannot fail.
    rw [firstFitFrom, fits_iff]
    intro cell _
    rw [Array.getD_eq_getD_getElem?, Array.getElem?_eq_none (by omega)]
    decide
  | succ bound ih =>
    rw [firstFitFrom]
    split
    · rename_i fitting
      exact fitting
    · exact ih (by omega)

theorem firstFit_fits (check : Array Int16) (row : Row) : fits check row (firstFit check row) :=
  firstFitFrom_fits (Nat.le_of_eq (Nat.zero_add _).symm)

structure Placement (before after : Packed) (state : Nat) (row : Row) (offset : Nat) : Prop where
  small : offset < 32768
  bases : after.bases = before.bases.push (state, Int16.ofNat offset)
  sized : before.trans.size = before.check.size → after.trans.size = after.check.size
  room : offset + columns ≤ after.check.size
  grown : before.check.size ≤ after.check.size
  free : ∀ cell ∈ row, before.check.getD (offset + cell.1) (-1) < 0
  owned : ∀ cell ∈ row, after.check.getD (offset + cell.1) (-1) = Int16.ofNat state
  filled : ∀ cell ∈ row, after.trans.getD (offset + cell.1) (-1) = cell.2
  others : ∀ slot, (∀ cell ∈ row, offset + cell.1 ≠ slot) →
    after.check.getD slot (-1) = before.check.getD slot (-1) ∧
    after.trans.getD slot (-1) = before.trans.getD slot (-1)

theorem Packed.place_eq {packed : Packed} {state : Nat} {row : Row} {after : Packed}
    (placed : packed.place state row = .ok after) :
    firstFit packed.check row < 32768 ∧
      after =
        { bases := packed.bases.push (state, Int16.ofNat (firstFit packed.check row))
          trans := assign (extendSlots packed.trans (firstFit packed.check row + columns))
            (row.values (firstFit packed.check row))
          check := assign (extendSlots packed.check (firstFit packed.check row + columns))
            (row.owners (firstFit packed.check row) state) } := by
  unfold place at placed
  dsimp only at placed
  split at placed
  · rename_i base made
    obtain ⟨small, rfl⟩ := tableEntry_eq_ok_iff.mp made
    cases placed
    rw [Row.values, Row.owners, assign, assign, List.foldl_map, List.foldl_map]
    exact ⟨small, rfl⟩
  · cases placed

theorem Packed.place_placement {packed : Packed} {state : Nat} {row : Row} {after : Packed}
    (sparse : row.Sparse) (placed : packed.place state row = .ok after) :
    Placement packed after state row (firstFit packed.check row) := by
  obtain ⟨small, rfl⟩ := place_eq placed
  have free := fits_iff.mp (firstFit_fits packed.check row)
  -- From here on only the freedom of the slots matters, not how the offset was found.
  generalize firstFit packed.check row = offset at small free
  have inside : ∀ (slots : Array Int16), ∀ cell ∈ row,
      offset + cell.1 < (extendSlots slots (offset + columns)).size := by
    intro slots cell member
    have within := sparse.within cell member
    rw [size_extendSlots]
    omega
  refine ⟨small, rfl, ?_, ?_, ?_, free, ?_, ?_, ?_⟩
  · intro sized
    simp only [size_assign, size_extendSlots, sized]
  · rw [size_assign, size_extendSlots]
    omega
  · rw [size_assign, size_extendSlots]
    omega
  · intro cell member
    refine getD_assign_of_mem (inside _ cell member) (List.mem_map.mpr ⟨cell, member, rfl⟩) ?_ (-1)
    intro entry owner _
    obtain ⟨_, _, rfl⟩ := List.mem_map.mp owner
    rfl
  · intro cell member
    refine getD_assign_of_mem (inside _ cell member) (List.mem_map.mpr ⟨cell, member, rfl⟩) ?_ (-1)
    intro entry value same
    obtain ⟨other, member', rfl⟩ := List.mem_map.mp value
    exact sparse.single cell member other member' (Nat.add_left_cancel same)
  · intro slot apart
    constructor
    · refine (getD_assign_of_absent ?_ (-1)).trans (getD_extendSlots _ _ slot)
      intro entry owner
      obtain ⟨cell, member, rfl⟩ := List.mem_map.mp owner
      exact apart cell member
    · refine (getD_assign_of_absent ?_ (-1)).trans (getD_extendSlots _ _ slot)
      intro entry value
      obtain ⟨cell, member, rfl⟩ := List.mem_map.mp value
      exact apart cell member

namespace Packed

variable {packed after : Packed} {rows : List (Nat × Row)} {entry : Nat × Row} {offset : Nat}

/-- A row lies at an offset: its cells are there, and the state owns no other slot. -/
structure Holds (packed : Packed) (entry : Nat × Row) (offset : Nat) : Prop where
  small : offset < 32768
  based : (entry.1, Int16.ofNat offset) ∈ packed.bases.toList
  room : offset + columns ≤ packed.check.size
  owned : ∀ cell ∈ entry.2, packed.check.getD (offset + cell.1) (-1) = Int16.ofNat entry.1
  filled : ∀ cell ∈ entry.2, packed.trans.getD (offset + cell.1) (-1) = cell.2
  sole : ∀ slot, packed.check.getD slot (-1) = Int16.ofNat entry.1 →
    ∃ cell ∈ entry.2, offset + cell.1 = slot

/-- All rows lie somewhere, and every slot is free or has the state of a row for its owner. -/
structure Lays (packed : Packed) (rows : List (Nat × Row)) : Prop where
  sized : packed.trans.size = packed.check.size
  states : packed.bases.toList.map Prod.fst = rows.map Prod.fst
  placed : ∀ entry ∈ rows, ∃ offset, packed.Holds entry offset
  owner : ∀ slot, packed.check.getD slot (-1) < 0 ∨
    ∃ entry ∈ rows, packed.check.getD slot (-1) = Int16.ofNat entry.1

theorem empty_lays : empty.Lays [] where
  sized := rfl
  states := rfl
  placed := by
    intro entry member
    cases member
  owner := by
    intro slot
    refine .inl ?_
    simp only [empty, Array.getD_eq_getD_getElem?, Array.getElem?_replicate]
    split <;> decide

theorem ofNat_not_neg {state : Nat} (small : state < 32768) : ¬ Int16.ofNat state < 0 := by
  rw [entry_neg_iff, toInt_ofNat_small small]
  omega

/-- Placing a row leaves the rows of other states where they are. -/
theorem Holds.of_placement {state : Nat} {row : Row} {place : Nat}
    (holds : packed.Holds entry offset) (placement : Placement packed after state row place)
    (small : entry.1 < 32768) (state_small : state < 32768) (apart : entry.1 ≠ state) :
    after.Holds entry offset := by
  -- The new row takes free slots and an owned slot is not free, so it misses this row.
  have kept : ∀ slot, packed.check.getD slot (-1) = Int16.ofNat entry.1 →
      ∀ cell ∈ row, place + cell.1 ≠ slot := by
    intro slot owner cell member same
    have free := placement.free cell member
    rw [same, owner] at free
    exact ofNat_not_neg small free
  refine ⟨holds.small, ?_, Nat.le_trans holds.room placement.grown, ?_, ?_, ?_⟩
  · rw [placement.bases, Array.toList_push]
    exact List.mem_append_left _ holds.based
  · intro cell member
    have owner := holds.owned cell member
    exact (placement.others _ (kept _ owner)).1.trans owner
  · intro cell member
    have owner := holds.owned cell member
    exact (placement.others _ (kept _ owner)).2.trans (holds.filled cell member)
  · intro slot owner
    -- A slot that the new row took has the new owner, who is another state.
    by_cases hit : ∃ cell ∈ row, place + cell.1 = slot
    · obtain ⟨cell, member, rfl⟩ := hit
      rw [placement.owned cell member, ofNat_entry_inj state_small small] at owner
      exact absurd owner.symm apart
    · have missed : ∀ cell ∈ row, place + cell.1 ≠ slot := fun cell member same =>
        hit ⟨cell, member, same⟩
      exact holds.sole slot ((placement.others slot missed).1 ▸ owner)

theorem holds_of_placement {state : Nat} {row : Row} {place : Nat} (lays : packed.Lays rows)
    (placement : Placement packed after state row place) (state_small : state < 32768)
    (small : ∀ entry ∈ rows, entry.1 < 32768) (fresh : ∀ entry ∈ rows, entry.1 ≠ state) :
    after.Holds (state, row) place := by
  refine ⟨placement.small, ?_, placement.room, placement.owned, placement.filled, ?_⟩
  · rw [placement.bases, Array.toList_push]
    exact List.mem_append_right _ List.mem_cons_self
  · intro slot owner
    by_cases hit : ∃ cell ∈ row, place + cell.1 = slot
    · exact hit
    · have missed : ∀ cell ∈ row, place + cell.1 ≠ slot := fun cell member same =>
        hit ⟨cell, member, same⟩
      rw [(placement.others slot missed).1] at owner
      -- Before, the state owned nothing: every owner was one of the rows placed so far.
      rcases lays.owner slot with free | ⟨entry, member, other⟩
      · rw [owner] at free
        exact absurd free (ofNat_not_neg state_small)
      · rw [owner, ofNat_entry_inj state_small (small entry member)] at other
        exact absurd other.symm (fresh entry member)

theorem place_lays {state : Nat} {row : Row} (lays : packed.Lays rows) (sparse : row.Sparse)
    (state_small : state < 32768) (small : ∀ entry ∈ rows, entry.1 < 32768)
    (fresh : ∀ entry ∈ rows, entry.1 ≠ state) (placed : packed.place state row = .ok after) :
    after.Lays (rows ++ [(state, row)]) := by
  have placement := place_placement sparse placed
  refine ⟨placement.sized lays.sized, ?_, ?_, ?_⟩
  · rw [placement.bases, Array.toList_push, List.map_append, List.map_append, lays.states]
    rfl
  · intro entry member
    rcases List.mem_append.mp member with old | new
    · obtain ⟨offset, holds⟩ := lays.placed entry old
      exact ⟨offset, holds.of_placement placement (small entry old) state_small (fresh entry old)⟩
    · rw [List.mem_singleton] at new
      exact ⟨_, new ▸ holds_of_placement lays placement state_small small fresh⟩
  · intro slot
    by_cases hit : ∃ cell ∈ row, firstFit packed.check row + cell.1 = slot
    · obtain ⟨cell, member, rfl⟩ := hit
      exact .inr ⟨(state, row), by simp, placement.owned cell member⟩
    · have missed : ∀ cell ∈ row, firstFit packed.check row + cell.1 ≠ slot :=
        fun cell member same => hit ⟨cell, member, same⟩
      rw [(placement.others slot missed).1]
      refine (lays.owner slot).imp id ?_
      rintro ⟨entry, member, owner⟩
      exact ⟨entry, List.mem_append_left _ member, owner⟩

end Packed

theorem pack_lays {rows : List (Nat × Row)} {packed : Packed}
    (distinct : (rows.map Prod.fst).Nodup) (sparse : ∀ entry ∈ rows, entry.2.Sparse)
    (small : ∀ entry ∈ rows, entry.1 < 32768) (made : pack rows = .ok packed) :
    packed.Lays rows := by
  -- The invariant is about the rows placed so far. That they are distinct goes with it,
  -- since only a state that has no row yet may be placed.
  refine foldlM_induction
    (fun done packed => (∀ entry ∈ done, entry ∈ rows) → (done.map Prod.fst).Nodup →
      packed.Lays done)
    (fun _ _ => Packed.empty_lays) ?_ made (fun _ member => member) distinct
  rintro done ⟨state, row⟩ packed after laid member placed within distinct
  rw [List.map_append, List.nodup_append] at distinct
  obtain ⟨earlier, _, apart⟩ := distinct
  have within' : ∀ entry ∈ done, entry ∈ rows := fun entry old =>
    within entry (List.mem_append_left _ old)
  refine Packed.place_lays (laid within' earlier) (sparse _ member) (small _ member)
    (fun entry old => small entry (within' entry old)) ?_ placed
  intro entry old
  exact apart entry.1 (List.mem_map_of_mem old) state List.mem_cons_self

theorem getD_inside {slots : Array Int16} {slot : Nat} (inside : slot < slots.size)
    (first second : Int16) : slots.getD slot first = slots.getD slot second := by
  simp [Array.getD_eq_getD_getElem?, Array.getElem?_eq_getElem inside]

namespace Packed

variable {packed : Packed} {rows : List (Nat × Row)} {state offset : Nat} {row : Row}

theorem Holds.lookupSlot_gives (holds : packed.Holds (state, row) offset)
    (sized : packed.trans.size = packed.check.size) {fallbacks : Array Int16}
    (inside : state < fallbacks.size) {column : Nat} (within : column < columns) :
    ∃ value, lookupSlot packed.check packed.trans fallbacks (offset + column) state = .ok value ∧
      row.Gives (fallbacks.getD state 0) column value := by
  have room := holds.room
  have slot : offset + column < packed.check.size := by omega
  have slot' : offset + column < packed.trans.size := by omega
  refine ⟨_, lookupSlot_eq slot sized.symm inside, ?_⟩
  rw [getD_inside slot 0 (-1), getD_inside slot' 0 (-1)]
  by_cases owner : packed.check.getD (offset + column) (-1) = Int16.ofNat state
  · rw [if_pos owner]
    obtain ⟨cell, member, same⟩ := holds.sole _ owner
    have found := holds.filled cell member
    rw [same] at found
    rw [found, ← Nat.add_left_cancel same]
    exact .inl member
  · rw [if_neg owner]
    refine .inr ⟨?_, rfl⟩
    rintro cell member rfl
    exact owner (holds.owned cell member)

theorem Lays.base_of_holds (lays : packed.Lays rows) (distinct : (rows.map Prod.fst).Nodup)
    (holds : packed.Holds (state, row) offset) {entries : Array Int16}
    (inside : state < entries.size) (other : Int16) :
    (withBases entries packed.bases).getD state other = Int16.ofNat offset := by
  rw [withBases_eq]
  refine getD_assign_of_mem inside holds.based ?_ other
  rw [← lays.states] at distinct
  intro entry member same
  rw [List.inj_on_of_nodup_map distinct member holds.based same]

theorem Lays.base_of_absent (lays : packed.Lays rows) (absent : ∀ entry ∈ rows, entry.1 ≠ state)
    (entries : Array Int16) (other : Int16) :
    (withBases entries packed.bases).getD state other = entries.getD state other := by
  rw [withBases_eq]
  refine getD_assign_of_absent ?_ other
  intro base member same
  have listed : state ∈ rows.map Prod.fst := by
    rw [← lays.states, ← same]
    exact List.mem_map_of_mem member
  obtain ⟨entry, member', same'⟩ := List.mem_map.mp listed
  exact absent entry member' same'

end Packed

end TableLexer
