import Mathlib.Algebra.GroupWithZero.Nat
import Mathlib.Algebra.Order.BigOperators.Group.Finset
import TableLexer.Proofs.Automaton.Compiling

/-! When an automaton is small enough to be packed. Interning runs out of addresses only when the
distinct programs fill the blob, and packing runs out of offsets only when there are too many
rows: a row is never placed beyond the slots that the rows before it take. -/

set_option autoImplicit false

namespace TableLexer

/-- The bytes of a blob that holds each of these programs once. The empty program takes none, for
the byte that every blob starts with stands for it. -/
def codeSize (programs : List Program) : Nat :=
  1 + ∑ program ∈ programs.toFinset.erase [], program.encode.length

theorem codeSize_mono {programs more : List Program}
    (all : ∀ program ∈ programs, program ∈ more) : codeSize programs ≤ codeSize more := by
  refine Nat.add_le_add_left (Finset.sum_le_sum_of_subset (Finset.erase_subset_erase [] ?_)) 1
  intro program member
  rw [List.mem_toFinset] at member ⊢
  exact all program member

theorem size_appendList {α : Type} (items : Array α) (more : List α) :
    (items ++ more).size = items.size + more.length := by
  rw [← Array.length_toList, Array.toList_appendList, List.length_append, Array.length_toList]

namespace Interner

variable {interner : Interner} {programs : List Program} {program : Program}

/-- The blob is made up of some of these programs, each of them once. -/
structure Stores (interner : Interner) (programs : List Program) : Prop where
  distinct : (interner.known.map Prod.fst).Nodup
  among : ∀ entry ∈ interner.known, entry.1 ∈ programs ∧ entry.1 ≠ []
  size_eq : interner.code.size =
    1 + ((interner.known.map Prod.fst).map fun program => program.encode.length).sum

theorem empty_stores (programs : List Program) : empty.Stores programs where
  distinct := List.nodup_nil
  among := nofun
  size_eq := rfl

theorem Stores.size_le (stores : interner.Stores programs) :
    interner.code.size ≤ codeSize programs := by
  rw [stores.size_eq, codeSize, ← List.sum_toFinset _ stores.distinct]
  refine Nat.add_le_add_left (Finset.sum_le_sum_of_subset ?_) 1
  intro program member
  obtain ⟨entry, known, rfl⟩ := List.mem_map.mp (List.mem_toFinset.mp member)
  obtain ⟨used, nonempty⟩ := stores.among entry known
  exact Finset.mem_erase.mpr ⟨nonempty, List.mem_toFinset.mpr used⟩

theorem Stores.cons (stores : interner.Stores programs) (used : program ∈ programs)
    (nonempty : program ≠ []) (fresh : interner.known.lookup program = none) (address : Int16) :
    Stores
      { code := interner.code ++ program.encode, known := (program, address) :: interner.known }
      programs where
  distinct := by
    rw [List.map_cons, List.nodup_cons]
    refine ⟨?_, stores.distinct⟩
    rintro known
    obtain ⟨entry, member, same⟩ := List.mem_map.mp known
    have differs := List.lookup_eq_none_iff.mp fresh entry member
    simp [same] at differs
  among := by
    intro entry member
    rcases List.mem_cons.mp member with rfl | member
    · exact ⟨used, nonempty⟩
    · exact stores.among entry member
  size_eq := by
    have sizes := stores.size_eq
    rw [size_appendList]
    simp only [List.map_cons, List.sum_cons]
    omega

theorem intern_succeeds (stores : interner.Stores programs) (room : codeSize programs ≤ 32768)
    (used : program ∈ programs) :
    ∃ address after, interner.intern program = .ok (address, after) ∧ after.Stores programs := by
  unfold intern
  by_cases empty : program = []
  · rw [if_pos (List.isEmpty_iff.mpr empty)]
    exact ⟨0, interner, rfl, stores⟩
  · rw [if_neg (by rwa [List.isEmpty_iff])]
    cases found : interner.known.lookup program with
    | some address => exact ⟨address, interner, rfl, stores⟩
    | none =>
      -- A new program takes at least its last byte, so the blob before it was not full.
      have after := (stores.cons used empty found (Int16.ofNat interner.code.size)).size_le
      have bytes : 0 < program.encode.length := by simp [Program.encode]
      rw [size_appendList] at after
      have small : tableEntry .code interner.code.size = .ok (Int16.ofNat interner.code.size) :=
        tableEntry_eq_ok_iff.mpr ⟨by omega, rfl⟩
      exact ⟨_, _, by rw [small]; rfl, stores.cons used empty found _⟩

end Interner

def Succeeds {β : Type} (programs : List Program)
    (compile : Interner → Except TableError (β × Interner)) : Prop :=
  ∀ before, before.Stores programs →
    ∃ result after, compile before = .ok (result, after) ∧ after.Stores programs

section

variable {programs : List Program} (room : codeSize programs ≤ 32768)

include room

theorem entry_succeeds {number : Nat} {program : Program} (small : number < 32768)
    (used : program ∈ programs) (field : Field) :
    Succeeds programs fun before => do
      let entry ← tableEntry field number
      let (address, after) ← before.intern program
      return ((entry, address), after) := by
  intro before stores
  have entry : tableEntry field number = .ok (Int16.ofNat number) :=
    tableEntry_eq_ok_iff.mpr ⟨small, rfl⟩
  obtain ⟨address, after, interned, stores'⟩ := Interner.intern_succeeds stores room used
  refine ⟨(Int16.ofNat number, address), after, ?_, stores'⟩
  simp only [entry, interned, ok_bind, pure_eq_ok]

theorem Tagged.compile_succeeds {tagged : Tagged} (small : tagged.action < 32768)
    (used : tagged.tag ∈ programs) (field : Field) : Succeeds programs (tagged.compile field) :=
  entry_succeeds room small used field

theorem Move.compile_succeeds {move : Move} (small : move.target < 32768)
    (used : move.record ∈ programs) : Succeeds programs move.compile :=
  entry_succeeds room small used .trans

omit room in
theorem compileOptional_succeeds {α : Type} {item : Option α}
    {compile : α → Interner → Except TableError ((Int16 × Int16) × Interner)}
    (each : ∀ found, item = some found → Succeeds programs (compile found)) :
    Succeeds programs (compileOptional item compile) := by
  intro before stores
  cases item with
  | none => exact ⟨none, before, rfl, stores⟩
  | some found =>
    obtain ⟨entry, after, compiled, stores'⟩ := each found rfl before stores
    refine ⟨some entry, after, ?_, stores'⟩
    rw [compileOptional, compiled]
    rfl

theorem compileMoves_succeeds {moves : List (Option Move)}
    (small : ∀ move, some move ∈ moves → move.target < 32768)
    (used : ∀ move, some move ∈ moves → move.record ∈ programs) :
    Succeeds programs (compileMoves moves) := by
  induction moves with
  | nil => exact fun before stores => ⟨[], before, rfl, stores⟩
  | cons move rest ih =>
    intro before stores
    have head : Succeeds programs (compileOptional move Move.compile) := by
      refine compileOptional_succeeds ?_
      rintro found rfl
      exact Move.compile_succeeds room (small found List.mem_cons_self)
        (used found List.mem_cons_self)
    obtain ⟨entry, middle, compiled, stores'⟩ := head before stores
    obtain ⟨entries, after, compiled', stores''⟩ :=
      ih (fun other member => small other (List.mem_cons_of_mem _ member))
        (fun other member => used other (List.mem_cons_of_mem _ member)) middle stores'
    refine ⟨entry :: entries, after, ?_, stores''⟩
    simp only [compileMoves, compiled, compiled', ok_bind, pure_eq_ok]

end

def State.Numbered (state : State) : Prop :=
  (∀ tagged, state.accept = some tagged → tagged.action < 32768) ∧
    ∀ tagged, state.backtrack = some tagged → tagged.action < 32768

/-- The moves of a state, unless it accepts, lead to numbers below a bound. -/
def State.Leads (state : State) (states : Nat) : Prop :=
  state.accept = none → ∀ move, some move ∈ state.moves.toList → move.target < states

theorem State.compile_succeeds {programs : List Program} (room : codeSize programs ≤ 32768)
    {state : State} (numbered : state.Numbered) (leads : state.Leads 32768)
    (used : ∀ program ∈ state.programs, program ∈ programs) :
    Succeeds programs state.compile := by
  intro before stores
  have bookmark : Succeeds programs
      (compileOptional state.backtrack (Tagged.compile .backtrack)) := by
    refine compileOptional_succeeds fun tagged found => ?_
    exact Tagged.compile_succeeds room (numbered.2 tagged found)
      (used _ (by simp [State.programs, found])) .backtrack
  obtain ⟨backtrack, middle, marked, stores'⟩ := bookmark before stores
  cases accepts : state.accept with
  | some tagged =>
    obtain ⟨entry, after, accepted, stores''⟩ :=
      Tagged.compile_succeeds room (numbered.1 tagged accepts)
        (used _ (by simp [State.programs, accepts])) .base middle stores'
    have final : compileOptional state.accept (Tagged.compile .base) middle =
        .ok (some entry, after) := by
      rw [accepts, compileOptional, accepted]
      rfl
    simp only [compile, marked, final, ok_bind, pure_eq_ok]
    exact ⟨_, after, rfl, stores''⟩
  | none =>
    -- Only a state that does not accept has its moves compiled.
    have moving : Succeeds programs (compileMoves state.moves.toList) := by
      refine compileMoves_succeeds room (leads accepts) fun move member => used _ ?_
      rw [State.programs, accepts]
      exact List.mem_append_right _
        (List.mem_flatMap.mpr ⟨some move, member, List.mem_cons_self⟩)
    obtain ⟨moves, after, moved, stores''⟩ := moving middle stores'
    have final : compileOptional state.accept (Tagged.compile .base) middle =
        .ok (none, middle) := by
      rw [accepts]
      rfl
    simp only [compile, marked, final, moved, ok_bind, pure_eq_ok]
    exact ⟨_, after, rfl, stores''⟩

def Automaton.programs (automaton : Automaton) : List Program :=
  automaton.states.toList.flatMap State.programs

theorem compileStates_succeeds {states : List State}
    (room : codeSize (states.flatMap State.programs) ≤ 32768)
    (numbered : ∀ state ∈ states, state.Numbered) (leads : ∀ state ∈ states, state.Leads 32768) :
    ∃ lines interner, compileStates states = .ok (lines, interner) := by
  have compiles : ∃ compiled, compileStates states = .ok compiled ∧
      compiled.2.Stores (states.flatMap State.programs) := by
    refine foldlM_succeeds
      (fun _ (compiled : Array Line × Interner) =>
        compiled.2.Stores (states.flatMap State.programs))
      (Interner.empty_stores _) ?_
    rintro done state rest ⟨lines, before⟩ shape stores
    have member : state ∈ states := by rw [shape]; simp
    obtain ⟨line, after, compiled, stores'⟩ := State.compile_succeeds room
      (numbered state member) (leads state member)
      (fun program used => List.mem_flatMap.mpr ⟨state, member, used⟩) before stores
    exact ⟨(lines.push line, after), by simp only [compiled, ok_bind, pure_eq_ok], stores'⟩
  obtain ⟨⟨lines, interner⟩, compiled, _⟩ := compiles
  exact ⟨lines, interner, compiled⟩

theorem firstFitFrom_le (check : Array Int16) (row : Row) (bound offset : Nat) :
    firstFitFrom check row bound offset ≤ offset + bound := by
  induction bound generalizing offset with
  | zero => exact Nat.le_refl offset
  | succ bound ih =>
    rw [firstFitFrom]
    split
    · exact Nat.le_add_right _ _
    · exact Nat.le_trans (ih (offset + 1)) (by omega)

theorem firstFit_le (check : Array Int16) (row : Row) : firstFit check row ≤ check.size :=
  (firstFitFrom_le check row check.size 0).trans (Nat.le_of_eq (Nat.zero_add _))

theorem firstFit_empty (row : Row) : firstFit Packed.empty.check row = 0 := by
  have free : fits Packed.empty.check row 0 := by
    rw [fits_iff]
    intro cell _
    rw [Packed.empty, Array.getD_eq_getD_getElem?, Array.getElem?_replicate]
    split <;> decide
  have sized : Packed.empty.check.size = columns := Array.size_replicate
  rw [firstFit, sized, columns, firstFitFrom, if_pos free]

theorem Packed.place_succeeds {packed : Packed} (state : Nat) (row : Row)
    (small : firstFit packed.check row < 32768) :
    ∃ after, packed.place state row = .ok after ∧
      after.check.size = max packed.check.size (firstFit packed.check row + columns) := by
  have entry : tableEntry .base (firstFit packed.check row) =
      .ok (Int16.ofNat (firstFit packed.check row)) := tableEntry_eq_ok_iff.mpr ⟨small, rfl⟩
  have placed : ∃ after, packed.place state row = .ok after := by
    unfold place
    dsimp only
    rw [entry]
    exact ⟨_, rfl⟩
  obtain ⟨after, placed⟩ := placed
  refine ⟨after, placed, ?_⟩
  rw [(place_eq placed).2, size_assign, size_extendSlots]

/-- Rows take no more slots than they have columns, and so few of them can all be placed. -/
theorem pack_succeeds {rows : List (Nat × Row)} (few : rows.length ≤ 128) :
    ∃ packed, pack rows = .ok packed ∧ packed.check.size ≤ columns * max 1 rows.length := by
  refine (foldlM_succeeds
    (fun done packed => (done = [] → packed = Packed.empty) ∧
      packed.check.size ≤ columns * max 1 done.length)
    ⟨fun _ => rfl, Nat.le_of_eq Array.size_replicate⟩ ?_).imp
    fun _ packed => ⟨packed.1, packed.2.2⟩
  rintro done ⟨state, row⟩ rest packed shape ⟨first, sized⟩
  have count := congrArg List.length shape
  rw [List.length_append, List.length_cons] at count
  -- The first row lies at the start; any later one starts at most where the slots end.
  have fit : firstFit packed.check row ≤ columns * done.length := by
    cases done with
    | nil => rw [first rfl, firstFit_empty]; exact Nat.zero_le _
    | cons entry others =>
      refine (firstFit_le packed.check row).trans (sized.trans (Nat.le_of_eq ?_))
      rw [List.length_cons, Nat.max_eq_right (Nat.succ_pos _)]
  simp only [columns] at fit sized ⊢
  obtain ⟨after, placed, grown⟩ := packed.place_succeeds state row (by omega)
  refine ⟨after, placed, fun nothing => absurd nothing (by simp), ?_⟩
  rw [grown, columns, List.length_append, List.length_singleton]
  omega

end TableLexer
