import Mathlib.Data.Nat.Find
import Mathlib.Order.Bounds.Basic
import TableLexer.Proofs.Automaton.Capacity

/-! Where packing puts its rows. A layout says at which offset every row lies, and it is a first fit
when each row lies at the least offset that keeps it clear of the rows before it. Rows have a first
fit whether or not its offsets are table entries; packing fails exactly when some of them is not,
and otherwise the arrays show this layout and nothing else. -/

set_option autoImplicit false

namespace TableLexer

/-- A search that tries one offset after another, however many it takes, and stops at the first that
fits. -/
inductive FitSearch (check : Array Int16) (row : Row) : Nat → Nat → Prop where
  | found {offset : Nat} : fits check row offset → FitSearch check row offset offset
  | next {offset result : Nat} : ¬ fits check row offset →
      FitSearch check row (offset + 1) result → FitSearch check row offset result

namespace FitSearch

variable {check : Array Int16} {row : Row} {offset result : Nat}

theorem fits_result (search : FitSearch check row offset result) : fits check row result := by
  induction search with
  | found fitting => exact fitting
  | next _ _ ih => exact ih

theorem le_of_fits (search : FitSearch check row offset result) {other : Nat}
    (later : offset ≤ other) (fitting : fits check row other) : result ≤ other := by
  induction search with
  | found _ => exact later
  | @next offset result missed _ ih =>
    have apart : offset ≠ other := by
      rintro rfl
      exact missed fitting
    exact ih (by omega)

end FitSearch

theorem firstFitFrom_search {check : Array Int16} {row : Row} {bound offset : Nat}
    (enough : check.size ≤ offset + bound) :
    FitSearch check row offset (firstFitFrom check row bound offset) := by
  induction bound generalizing offset with
  | zero => exact .found (firstFitFrom_fits enough)
  | succ bound ih =>
    rw [firstFitFrom]
    split
    · rename_i fitting
      exact .found fitting
    · rename_i missed
      exact .next missed (ih (by omega))

theorem firstFit_search (check : Array Int16) (row : Row) :
    FitSearch check row 0 (firstFit check row) :=
  firstFitFrom_search (Nat.le_of_eq (Nat.zero_add _).symm)

theorem firstFit_isLeast (check : Array Int16) (row : Row) :
    IsLeast {offset | fits check row offset} (firstFit check row) :=
  have search := firstFit_search check row
  ⟨search.fits_result, fun _ fitting => search.le_of_fits (Nat.zero_le _) fitting⟩

structure PlacedRow where
  state : Nat
  row : Row
  offset : Nat

def PlacedRow.entry (placed : PlacedRow) : Nat × Row :=
  (placed.state, placed.row)

def PlacedRow.Takes (placed : PlacedRow) (slot : Nat) (value : Int16) : Prop :=
  ∃ cell ∈ placed.row, placed.offset + cell.1 = slot ∧ cell.2 = value

/-- At this offset the row takes no slot that one of the rows in `layout` takes. -/
def Row.Clear (row : Row) (layout : List PlacedRow) (offset : Nat) : Prop :=
  ∀ cell ∈ row, ∀ placed ∈ layout, ∀ value, ¬ placed.Takes (offset + cell.1) value

theorem Row.clear_past {layout : List PlacedRow} {offset : Nat}
    (low : ∀ placed ∈ layout, ∀ slot value, placed.Takes slot value → slot < offset) (row : Row) :
    row.Clear layout offset := by
  intro cell _ placed member value taken
  have inside := low placed member _ value taken
  omega

/-- Each row lies at the least offset that keeps it clear of the rows before it. -/
def FirstFit (layout : List PlacedRow) : Prop :=
  ∀ before placed after, layout = before ++ placed :: after →
    IsLeast {offset | placed.row.Clear before offset} placed.offset

namespace FirstFit

variable {layout : List PlacedRow} {placed : PlacedRow}

theorem nil : FirstFit [] := by
  intro before placed after split
  simp at split

theorem snoc (fit : FirstFit layout)
    (least : IsLeast {offset | placed.row.Clear layout offset} placed.offset) :
    FirstFit (layout ++ [placed]) := by
  intro before placed' after split
  rcases List.eq_nil_or_concat after with rfl | ⟨between, last, rfl⟩
  · obtain ⟨rfl, same⟩ := List.append_inj' split rfl
    cases same
    exact least
  · rw [List.concat_eq_append, ← List.cons_append, ← List.append_assoc] at split
    exact fit before placed' between (List.append_inj' split rfl).1

theorem of_append {more : List PlacedRow} (fit : FirstFit (layout ++ more)) : FirstFit layout := by
  intro before placed after split
  exact fit before placed (after ++ more) (by rw [split]; simp)

theorem takes_lt (fit : FirstFit layout)
    (within : ∀ placed ∈ layout, ∀ cell ∈ placed.row, cell.1 < columns) :
    ∀ placed ∈ layout, ∀ slot value, placed.Takes slot value → slot < columns * layout.length := by
  induction layout using List.reverseRecOn with
  | nil => simp
  | append_singleton done last ih =>
    have earlier := ih fit.of_append fun placed member =>
      within placed (List.mem_append_left [last] member)
    have low : last.offset ≤ columns * done.length :=
      (fit done last [] rfl).2 (Row.clear_past earlier last.row)
    rw [List.length_append, List.length_singleton, Nat.mul_succ]
    intro placed member slot value taken
    rcases List.mem_append.mp member with old | new
    · have inside := earlier placed old slot value taken
      omega
    · rw [List.mem_singleton] at new
      obtain ⟨cell, member', rfl, _⟩ := taken
      subst new
      have column := within _ member cell member'
      omega

theorem offset_le {rest : List PlacedRow} (fit : FirstFit (layout ++ placed :: rest))
    (within : ∀ other ∈ layout, ∀ cell ∈ other.row, cell.1 < columns) :
    placed.offset ≤ columns * layout.length :=
  (fit layout placed rest rfl).2 (Row.clear_past (fit.of_append.takes_lt within) placed.row)

end FirstFit

theorem exists_firstFit {rows : List (Nat × Row)}
    (within : ∀ entry ∈ rows, ∀ cell ∈ entry.2, cell.1 < columns) :
    ∃ layout : List PlacedRow, layout.map PlacedRow.entry = rows ∧ FirstFit layout := by
  induction rows using List.reverseRecOn with
  | nil => exact ⟨[], rfl, .nil⟩
  | append_singleton done last ih =>
    obtain ⟨layout, rfl, fit⟩ := ih fun entry member =>
      within entry (List.mem_append_left [last] member)
    have low := fit.takes_lt fun placed member =>
      within placed.entry (List.mem_append_left [last] (List.mem_map_of_mem member))
    have reachable : ∃ offset, last.2.Clear layout offset := ⟨_, Row.clear_past low last.2⟩
    classical
    let placed : PlacedRow := ⟨last.1, last.2, Nat.find reachable⟩
    exact ⟨layout ++ [placed], by simp [placed, PlacedRow.entry],
      fit.snoc (Nat.isLeast_find reachable)⟩

structure Proper (layout : List PlacedRow) : Prop where
  distinct : (layout.map PlacedRow.state).Nodup
  small : ∀ placed ∈ layout, placed.state < 32768
  sparse : ∀ placed ∈ layout, placed.row.Sparse

theorem Proper.of_append {layout more : List PlacedRow} (proper : Proper (layout ++ more)) :
    Proper layout where
  distinct := by
    have distinct := proper.distinct
    rw [List.map_append, List.nodup_append] at distinct
    exact distinct.1
  small := fun placed member => proper.small placed (List.mem_append_left more member)
  sparse := fun placed member => proper.sparse placed (List.mem_append_left more member)

theorem Proper.fresh {layout rest : List PlacedRow} {placed : PlacedRow}
    (proper : Proper (layout ++ placed :: rest)) :
    ∀ other ∈ layout, other.state ≠ placed.state := by
  have distinct := proper.distinct
  rw [List.map_append, List.nodup_append] at distinct
  intro other member
  exact distinct.2.2 _ (List.mem_map_of_mem member) _ (List.mem_map_of_mem List.mem_cons_self)

namespace Packed

variable {packed after : Packed} {layout rest : List PlacedRow} {placed : PlacedRow}

/-- The arrays show a layout: every row lies at its offset, and what no row takes is free. -/
structure Shows (packed : Packed) (layout : List PlacedRow) : Prop where
  sized : packed.trans.size = packed.check.size
  bases : packed.bases.toList =
    layout.map fun placed => (placed.state, Int16.ofNat placed.offset)
  holds : ∀ placed ∈ layout, packed.Holds placed.entry placed.offset
  free : ∀ slot, (∀ placed ∈ layout, ∀ value, ¬ placed.Takes slot value) →
    packed.check.getD slot (-1) = -1
  bounded : packed.check.size ≤ columns * max 1 layout.length

theorem empty_shows : empty.Shows [] where
  sized := rfl
  bases := rfl
  holds := by simp
  free := by
    intro slot _
    simp only [empty, Array.getD_eq_getD_getElem?, Array.getElem?_replicate]
    split <;> rfl
  bounded := Nat.le_of_eq Array.size_replicate

namespace Shows

theorem owned (shows : packed.Shows layout) (member : placed ∈ layout) {slot : Nat}
    {value : Int16} (taken : placed.Takes slot value) :
    packed.check.getD slot (-1) = Int16.ofNat placed.state := by
  obtain ⟨cell, member', rfl, _⟩ := taken
  exact (shows.holds placed member).owned cell member'

theorem lays (shows : packed.Shows layout) : packed.Lays (layout.map PlacedRow.entry) where
  sized := shows.sized
  states := by
    rw [shows.bases, List.map_map, List.map_map]
    rfl
  placed := by
    intro entry member
    obtain ⟨placed, member', rfl⟩ := List.mem_map.mp member
    exact ⟨placed.offset, shows.holds placed member'⟩
  owner := by
    intro slot
    by_cases taken : ∃ placed ∈ layout, ∃ value, placed.Takes slot value
    · obtain ⟨placed, member, value, taken⟩ := taken
      exact .inr ⟨placed.entry, List.mem_map_of_mem member, shows.owned member taken⟩
    · rw [shows.free slot fun placed member value taken' =>
        taken ⟨placed, member, value, taken'⟩]
      exact .inl (by decide)

theorem fits_iff_clear (shows : packed.Shows layout) (proper : Proper layout) {row : Row}
    {offset : Nat} : fits packed.check row offset ↔ row.Clear layout offset := by
  rw [fits_iff]
  constructor
  · intro free cell member placed member' value taken
    have negative := free cell member
    rw [shows.owned member' taken] at negative
    exact ofNat_not_neg (proper.small placed member') negative
  · intro clear cell member
    rw [shows.free _ (clear cell member)]
    decide

theorem firstFit_eq (shows : packed.Shows layout) (proper : Proper layout)
    (least : IsLeast {offset | placed.row.Clear layout offset} placed.offset) :
    firstFit packed.check placed.row = placed.offset := by
  refine (firstFit_isLeast packed.check placed.row).unique ?_
  simpa only [shows.fits_iff_clear proper] using least

end Shows

theorem place_fails {state : Nat} {row : Row} (large : 32768 ≤ firstFit packed.check row) :
    packed.place state row = .error (.overflow .base) := by
  have entry : tableEntry .base (firstFit packed.check row) = .error (.overflow .base) :=
    if_neg (Nat.not_lt.mpr large)
  unfold place
  dsimp only
  rw [entry]

theorem Shows.snoc (shows : packed.Shows layout) (proper : Proper (layout ++ placed :: rest))
    (placement : Placement packed after placed.state placed.row placed.offset)
    (bounded : after.check.size ≤ columns * (layout.length + 1)) :
    after.Shows (layout ++ [placed]) where
  sized := placement.sized shows.sized
  bases := by
    rw [placement.bases, Array.toList_push, shows.bases, List.map_append]
    rfl
  holds := by
    have small := proper.of_append.small
    have small' : placed.state < 32768 := proper.small placed (by simp)
    intro other member
    -- The rows placed before keep their slots, for the new row only took free ones.
    rcases List.mem_append.mp member with old | new
    · exact (shows.holds other old).of_placement placement (small other old) small'
        (proper.fresh other old)
    · rw [List.mem_singleton] at new
      subst new
      refine holds_of_placement shows.lays placement small' ?_ ?_
      · simpa [PlacedRow.entry] using small
      · simpa [PlacedRow.entry] using proper.fresh
  free := by
    intro slot untaken
    have missed : ∀ cell ∈ placed.row, placed.offset + cell.1 ≠ slot := fun cell member same =>
      untaken placed (by simp) cell.2 ⟨cell, member, same, rfl⟩
    rw [(placement.others slot missed).1]
    exact shows.free slot fun other member => untaken other (List.mem_append_left _ member)
  bounded := by
    rw [List.length_append, List.length_singleton]
    exact bounded.trans (Nat.mul_le_mul_left columns (Nat.le_max_right 1 _))

/-- The next row of a first fit finds its place, or lies too far out to be entered. -/
theorem Shows.place_next (shows : packed.Shows layout) (fit : FirstFit (layout ++ placed :: rest))
    (proper : Proper (layout ++ placed :: rest)) :
    32767 < placed.offset ∧ packed.place placed.state placed.row = .error (.overflow .base) ∨
      placed.offset ≤ 32767 ∧
        ∃ after, packed.place placed.state placed.row = .ok after ∧
          after.Shows (layout ++ [placed]) := by
  have offset := shows.firstFit_eq proper.of_append (fit layout placed rest rfl)
  by_cases near : placed.offset < 32768
  · obtain ⟨after, stored, grown⟩ := packed.place_succeeds placed.state placed.row (by omega)
    have placement := place_placement (proper.sparse placed (by simp)) stored
    rw [offset] at placement grown
    have low := fit.offset_le fun other member => (proper.of_append.sparse other member).within
    have bounded := shows.bounded
    refine .inr ⟨by omega, after, stored, shows.snoc proper placement ?_⟩
    -- Without rows before it there are as many slots as columns, and the row lies at the start.
    rw [grown]
    simp only [columns] at low bounded ⊢
    omega
  · exact .inl ⟨by omega, place_fails (by omega)⟩

theorem Shows.places (shows : packed.Shows layout) (fit : FirstFit (layout ++ rest))
    (proper : Proper (layout ++ rest)) :
    let outcome := (rest.map PlacedRow.entry).foldlM
      (fun packed entry => packed.place entry.1 entry.2) packed
    (∃ placed ∈ rest, 32767 < placed.offset) ∧ outcome = .error (.overflow .base) ∨
      (∀ placed ∈ rest, placed.offset ≤ 32767) ∧
        ∃ after : Packed, outcome = .ok after ∧ after.Shows (layout ++ rest) := by
  induction rest generalizing layout packed with
  | nil => exact .inr ⟨by simp, packed, rfl, by rwa [List.append_nil]⟩
  | cons placed rest ih =>
    rw [List.map_cons, List.foldlM_cons]
    change (_ ∧ (packed.place placed.state placed.row >>= _) = _) ∨
      _ ∧ ∃ after, (packed.place placed.state placed.row >>= _) = _ ∧ _
    rcases shows.place_next fit proper with ⟨far, failed⟩ | ⟨near, next, stored, shows'⟩
    · rw [failed, error_bind]
      exact .inl ⟨⟨placed, List.mem_cons_self, far⟩, rfl⟩
    · have regroup : layout ++ placed :: rest = layout ++ [placed] ++ rest := by simp
      rw [regroup] at fit proper ⊢
      rw [stored, ok_bind, List.forall_mem_cons]
      refine (ih shows' fit proper).imp ?_ ?_
      · rintro ⟨⟨other, member, far⟩, failed⟩
        exact ⟨⟨other, List.mem_cons_of_mem placed member, far⟩, failed⟩
      · rintro ⟨others, finished⟩
        exact ⟨⟨near, others⟩, finished⟩

/-- The arrays hold the rows of a layout and nothing else. -/
structure Displays (packed : Packed) (layout : List PlacedRow) : Prop where
  sized : packed.trans.size = packed.check.size
  near : ∀ placed ∈ layout, placed.offset ≤ 32767
  bases : packed.bases.toList =
    layout.map fun placed => (placed.state, Int16.ofNat placed.offset)
  owned_iff : ∀ placed ∈ layout, ∀ slot,
    packed.check[slot]? = some (Int16.ofNat placed.state) ↔ ∃ value, placed.Takes slot value
  filled : ∀ placed ∈ layout, ∀ slot value, placed.Takes slot value →
    packed.trans[slot]? = some value
  free : ∀ slot < packed.check.size, (∀ placed ∈ layout, ∀ value, ¬ placed.Takes slot value) →
    packed.check[slot]? = some (-1)
  room : ∀ placed ∈ layout, placed.offset + columns ≤ packed.check.size
  bounded : packed.check.size ≤ columns * max 1 layout.length

theorem getElem?_of_inside {slots : Array Int16} {slot : Nat} (inside : slot < slots.size) :
    slots[slot]? = some (slots.getD slot (-1)) := by
  simp [Array.getD_eq_getD_getElem?, Array.getElem?_eq_getElem inside]

theorem Shows.displays (shows : packed.Shows layout) (proper : Proper layout)
    (near : ∀ placed ∈ layout, placed.offset ≤ 32767) : packed.Displays layout := by
  have inside : ∀ placed ∈ layout, ∀ slot value, placed.Takes slot value →
      slot < packed.check.size := by
    rintro placed member _ _ ⟨cell, member', rfl, _⟩
    have room := (shows.holds placed member).room
    have column := (proper.sparse placed member).within cell member'
    omega
  refine ⟨shows.sized, near, shows.bases, ?_, ?_, ?_, ?_, shows.bounded⟩
  · intro placed member slot
    constructor
    · intro owner
      have owner' : packed.check.getD slot (-1) = Int16.ofNat placed.state := by
        rw [Array.getD_eq_getD_getElem?, owner]
        rfl
      obtain ⟨cell, member', same⟩ := (shows.holds placed member).sole slot owner'
      exact ⟨cell.2, cell, member', same, rfl⟩
    · rintro ⟨value, taken⟩
      rw [getElem?_of_inside (inside placed member slot value taken), shows.owned member taken]
  · intro placed member slot value taken
    rw [getElem?_of_inside (shows.sized ▸ inside placed member slot value taken)]
    obtain ⟨cell, member', rfl, rfl⟩ := taken
    rw [(shows.holds placed member).filled cell member']
  · intro slot within untaken
    rw [getElem?_of_inside within, shows.free slot untaken]
  · exact fun placed member => (shows.holds placed member).room

end Packed

/-- Packing is a first fit that loses nothing. The search for an offset ends, and rows of different
states, with their cells in different columns, have a first fit: packing fails when one of its
offsets is no table entry, and only then, and otherwise it makes arrays that show it. -/
theorem pack_firstFit {rows : List (Nat × Row)} (distinct : (rows.map Prod.fst).Nodup)
    (small : ∀ entry ∈ rows, entry.1 < 32768)
    (single : ∀ entry ∈ rows, (entry.2.map Prod.fst).Nodup)
    (within : ∀ entry ∈ rows, ∀ cell ∈ entry.2, cell.1 < columns) :
    (∀ check row, FitSearch check row 0 (firstFit check row)) ∧
      ∃ layout : List PlacedRow, layout.map PlacedRow.entry = rows ∧ FirstFit layout ∧
        (pack rows = .error (.overflow .base) ↔ ∃ placed ∈ layout, 32767 < placed.offset) ∧
        (pack rows ≠ .error (.overflow .base) →
          ∃ packed, pack rows = .ok packed ∧ packed.Displays layout) := by
  refine ⟨firstFit_search, ?_⟩
  obtain ⟨layout, rfl, fit⟩ := exists_firstFit within
  have proper : Proper layout := by
    refine ⟨?_, fun placed member => small _ (List.mem_map_of_mem member), ?_⟩
    · rwa [List.map_map] at distinct
    · intro placed member
      have entry := List.mem_map_of_mem (f := PlacedRow.entry) member
      refine ⟨within _ entry, ?_⟩
      intro cell member' other member'' same
      rw [List.inj_on_of_nodup_map (single _ entry) member'' member' same]
  refine ⟨layout, rfl, fit, ?_⟩
  rcases Packed.empty_shows.places fit proper with ⟨far, failed⟩ | ⟨near, packed, made, shows⟩
  · exact ⟨⟨fun _ => far, fun _ => failed⟩, fun succeeds => absurd failed succeeds⟩
  · have made' : pack (layout.map PlacedRow.entry) = .ok packed := made
    rw [made']
    refine ⟨⟨nofun, ?_⟩, fun _ => ⟨packed, rfl, shows.displays proper near⟩⟩
    rintro ⟨placed, member, far⟩
    exact absurd (near placed member) (by omega)

/-- Two states that move on the letters a and b: the second row starts past the first. -/
def letterRows : List (Nat × Row) :=
  [(0, [(97, 1), (98, 1)]), (1, [(97, 2), (98, 2)])]

theorem letterRows_packed :
    ((letterRows.map Prod.fst).Nodup ∧ (∀ entry ∈ letterRows, entry.1 < 32768) ∧
      (∀ entry ∈ letterRows, (entry.2.map Prod.fst).Nodup) ∧
      ∀ entry ∈ letterRows, ∀ cell ∈ entry.2, cell.1 < columns) ∧
    ∃ layout : List PlacedRow, layout.map PlacedRow.entry = letterRows ∧ FirstFit layout ∧
      ∃ packed, pack letterRows = .ok packed ∧ packed.Displays layout ∧
        packed.bases = #[(0, 0), (1, 2)] := by
  have rows : (letterRows.map Prod.fst).Nodup ∧ (∀ entry ∈ letterRows, entry.1 < 32768) ∧
      (∀ entry ∈ letterRows, (entry.2.map Prod.fst).Nodup) ∧
      ∀ entry ∈ letterRows, ∀ cell ∈ entry.2, cell.1 < columns := by
    decide
  have bases : (pack letterRows).toOption.map Packed.bases = some #[(0, 0), (1, 2)] := by
    decide +kernel
  obtain ⟨distinct, small, single, within⟩ := rows
  obtain ⟨_, layout, same, fit, _, succeeds⟩ := pack_firstFit distinct small single within
  have made : pack letterRows ≠ .error (.overflow .base) := by
    intro failed
    rw [failed] at bases
    cases bases
  obtain ⟨packed, made, displays⟩ := succeeds made
  rw [made] at bases
  exact ⟨⟨distinct, small, single, within⟩, layout, same, fit, packed, made, displays,
    Option.some.inj bases⟩

end TableLexer
