import TableLexer.Proofs.Automaton.Build
import TableLexer.Proofs.Automaton.Capacity

/-! Where the entries of compiled lines come from. A number that stands for a target is the target
of some move and an address is that of some program, wherever they stand: in a row, in a fallback,
which is one of the values that it falls back for, or in the line itself. -/

set_option autoImplicit false

namespace TableLexer

section

variable {values : List Int16} {value : Int16}

theorem mem_countOne {counts : List (Int16 × Nat)} {entry : Int16 × Nat}
    (member : entry ∈ countOne value counts) :
    entry.1 = value ∨ ∃ counted ∈ counts, counted.1 = entry.1 := by
  induction counts with
  | nil =>
    rw [countOne, List.mem_singleton] at member
    exact .inl (member ▸ rfl)
  | cons head rest ih =>
    rw [countOne] at member
    split at member
    · rename_i same
      rcases List.mem_cons.mp member with rfl | later
      · exact .inl same
      · exact .inr ⟨entry, List.mem_cons_of_mem head later, rfl⟩
    · rcases List.mem_cons.mp member with rfl | later
      · exact .inr ⟨_, List.mem_cons_self, rfl⟩
      · refine (ih later).imp id ?_
        rintro ⟨counted, member', same⟩
        exact ⟨counted, List.mem_cons_of_mem head member', same⟩

theorem mem_of_tally {entry : Int16 × Nat} (member : entry ∈ tally values) :
    entry.1 ∈ values := by
  suffices general : ∀ counts : List (Int16 × Nat),
      entry ∈ values.foldl (fun counts value => countOne value counts) counts →
      entry.1 ∈ values ∨ ∃ counted ∈ counts, counted.1 = entry.1 by
    rcases general [] member with found | ⟨counted, none, _⟩
    · exact found
    · cases none
  clear member
  induction values with
  | nil => exact fun counts member => .inr ⟨entry, member, rfl⟩
  | cons first rest ih =>
    intro counts member
    rcases ih _ member with later | ⟨counted, member', same⟩
    · exact .inl (List.mem_cons_of_mem first later)
    · rcases mem_countOne member' with here | ⟨earlier, member'', same'⟩
      · exact .inl (List.mem_cons.mpr (.inl (same.symm.trans here)))
      · exact .inr ⟨earlier, member'', same'.trans same⟩

theorem mem_of_leader {counts : List (Int16 × Nat)} (found : leader counts = some value) :
    ∃ entry ∈ counts, entry.1 = value := by
  obtain ⟨entry, best, same⟩ := Option.map_eq_some_iff.mp found
  refine ⟨entry, ?_, same⟩
  -- The best entry so far is one that was seen.
  suffices seen : ∀ entry, _ = some entry → entry ∈ counts from seen entry best
  refine List.foldlRecOn (motive := fun best => ∀ entry, best = some entry → entry ∈ counts)
    counts _ (fun _ none => by cases none) ?_
  intro best kept count member entry chosen
  split at chosen
  · cases chosen
    exact member
  · split at chosen
    · cases chosen
      exact member
    · exact kept entry chosen

theorem mem_of_mostCommon (found : mostCommon values = some value) : value ∈ values := by
  obtain ⟨entry, counted, rfl⟩ := mem_of_leader found
  exact mem_of_tally counted

end

def Interner.Addresses (interner : Interner) (programs : List Program) (address : Int16) : Prop :=
  address = 0 ∨ ∃ program ∈ programs, interner.Names address program

namespace Interner.Addresses

variable {interner after : Interner} {programs more used : List Program} {address : Int16}

theorem of_names {program : Program} (named : interner.Names address program)
    (member : program ∈ programs) : interner.Addresses programs address :=
  .inr ⟨program, member, named⟩

theorem of_extends (found : interner.Addresses programs address)
    (extended : interner.Extends after used) : after.Addresses programs address := by
  refine found.imp id ?_
  rintro ⟨program, member, named⟩
  exact ⟨program, member, named.of_extends extended⟩

theorem mono (found : interner.Addresses programs address)
    (all : ∀ program ∈ programs, program ∈ more) : interner.Addresses more address := by
  refine found.imp id ?_
  rintro ⟨program, member, named⟩
  exact ⟨program, all program member, named⟩

theorem decodes (found : interner.Addresses programs address) (positive : 0 < address) :
    ∃ program ∈ programs,
      Program.decode interner.code.toList address.toInt.toNat = .ok program := by
  rcases found with rfl | ⟨program, member, named⟩
  · exact absurd positive (by decide)
  · unfold Interner.Names at named
    split at named
    · rw [named] at positive
      exact absurd positive (by decide)
    · exact ⟨program, member, named.2⟩

end Interner.Addresses

/-- Every address in a line or in its rows is one of a program. -/
structure Line.Addressed (line : Line) (interner : Interner) (programs : List Program) :
    Prop where
  backtrackCode : interner.Addresses programs line.backtrackCode
  baseCode : interner.Addresses programs line.baseCode
  fallbackCode : interner.Addresses programs line.fallbackCode
  codes : ∀ rows, line.rows = some rows → ∀ cell ∈ rows.2, interner.Addresses programs cell.2

/-- Every target in a line or in its rows is a state. -/
structure Line.Directed (line : Line) (states : Nat) : Prop where
  fallback : ∀ target, entryValue? line.fallback = some target → target < states
  targets : ∀ rows, line.rows = some rows → ∀ cell ∈ rows.1, ∀ target,
    entryValue? cell.2 = some target → target < states

theorem Line.Addressed.of_extends {line : Line} {before after : Interner}
    {programs used : List Program} (addressed : line.Addressed before programs)
    (extended : before.Extends after used) : line.Addressed after programs where
  backtrackCode := addressed.backtrackCode.of_extends extended
  baseCode := addressed.baseCode.of_extends extended
  fallbackCode := addressed.fallbackCode.of_extends extended
  codes rows found cell member := (addressed.codes rows found cell member).of_extends extended

theorem Line.Addressed.mono {line : Line} {interner : Interner} {programs more : List Program}
    (addressed : line.Addressed interner programs) (all : ∀ program ∈ programs, program ∈ more) :
    line.Addressed interner more where
  backtrackCode := addressed.backtrackCode.mono all
  baseCode := addressed.baseCode.mono all
  fallbackCode := addressed.fallbackCode.mono all
  codes rows found cell member := (addressed.codes rows found cell member).mono all

theorem CompiledOptional.addresses {α : Type} {interner : Interner} {number : α → Nat}
    {program : α → Program} {item : Option α} {entry : Option (Int16 × Int16)}
    {programs : List Program} (compiled : CompiledOptional interner number program item entry)
    (used : ∀ found, item = some found → program found ∈ programs) :
    interner.Addresses programs (entry.elim 0 Prod.snd) := by
  cases compiled with
  | none => exact .inl rfl
  | some compiled => exact .of_names compiled.program (used _ rfl)

section

variable {interner : Interner} {moves : List (Option Move)}
  {entries : List (Option (Int16 × Int16))} (compiled :
    List.Forall₂ (CompiledOptional interner Move.target Move.record) moves entries)

include compiled

theorem compiled_of_mem {entry : Int16 × Int16} (member : some entry ∈ entries) :
    ∃ move, some move ∈ moves ∧ Compiled interner move.target move.record entry := by
  obtain ⟨i, listed⟩ := List.mem_iff_getElem?.mp member
  obtain ⟨item, listed', found⟩ := forall₂_getElem? compiled.flip listed
  cases found with
  | some compiled => exact ⟨_, List.mem_of_getElem? listed', compiled⟩

theorem Line.ofMoves_addressed {programs : List Program} {backtrack backtrackCode : Int16}
    (bookmark : interner.Addresses programs backtrackCode)
    (used : ∀ move, some move ∈ moves → move.record ∈ programs) :
    (ofMoves backtrack backtrackCode entries).Addressed interner programs := by
  have each : ∀ address, some address ∈ entries.map (Option.map Prod.snd) →
      interner.Addresses programs address := by
    intro address member
    obtain ⟨entry, member', same⟩ := List.mem_map.mp member
    obtain ⟨entry, rfl, rfl⟩ := Option.map_eq_some_iff.mp same
    obtain ⟨move, moved, compiled⟩ := compiled_of_mem compiled member'
    exact .of_names compiled.program (used move moved)
  refine ⟨bookmark, .inl rfl, ?_, ?_⟩
  · change interner.Addresses programs ((mostCommon _).getD 0)
    cases common : mostCommon ((entries.map (Option.map Prod.snd)).filterMap id) with
    | none => exact .inl rfl
    | some address =>
      obtain ⟨_, member, rfl⟩ := List.mem_filterMap.mp (mem_of_mostCommon common)
      exact each address member
  · rintro rows ⟨⟩ ⟨column, address⟩ member
    exact each address (List.mem_of_getElem? (mem_exceptions.mp member).1)

theorem Line.ofMoves_directed {states : Nat} (backtrack backtrackCode : Int16)
    (leads : ∀ move, some move ∈ moves → move.target < states) :
    (ofMoves backtrack backtrackCode entries).Directed states := by
  have each : ∀ value ∈ entries.map fun entry => entry.elim (-1) Prod.fst,
      ∀ target, entryValue? value = some target → target < states := by
    intro value member target read
    obtain ⟨entry, member', rfl⟩ := List.mem_map.mp member
    cases entry with
    | none =>
      rw [Option.elim_none, entryValue?_eq_none_iff.mpr (by decide)] at read
      cases read
    | some entry =>
      obtain ⟨move, moved, compiled⟩ := compiled_of_mem compiled member'
      rw [Option.elim_some, compiled.number] at read
      cases read
      exact leads move moved
  refine ⟨?_, ?_⟩
  · change ∀ target, entryValue? ((mostCommon _).getD (-1)) = some target → _
    cases common : mostCommon (entries.map fun entry => entry.elim (-1) Prod.fst) with
    | none =>
      intro target read
      rw [Option.getD_none, entryValue?_eq_none_iff.mpr (by decide)] at read
      cases read
    | some value => exact each value (mem_of_mostCommon common)
  · rintro rows ⟨⟩ ⟨column, value⟩ member
    obtain ⟨listed, _⟩ := mem_exceptions.mp member
    rw [List.getElem?_map, Option.map_eq_some_iff] at listed
    obtain ⟨_, listed, same⟩ := listed
    cases same
    exact each value (List.mem_of_getElem? listed)

end

theorem State.compile_addressed {state : State} {before after : Interner} {line : Line}
    (sound : before.Sound) (made : state.compile before = .ok (line, after)) :
    line.Addressed after state.programs := by
  obtain ⟨_, backtrack, bookmark, cases⟩ := compile_cases sound made
  have marked : after.Addresses state.programs (backtrack.elim 0 Prod.snd) := by
    refine bookmark.addresses fun tagged found => ?_
    rw [programs, found]
    exact List.mem_append_left _ List.mem_cons_self
  rcases cases with ⟨tagged, entry, accepts, compiled, rfl⟩ | ⟨moves, unfinished, compiled, rfl⟩
  · refine ⟨marked, .of_names compiled.program ?_, .inl rfl, ?_⟩
    · rw [programs, accepts]
      exact List.mem_append_right _ List.mem_cons_self
    · intro rows none
      cases none
  · refine Line.ofMoves_addressed compiled marked fun move moved => ?_
    rw [programs, unfinished]
    exact List.mem_append_right _ (List.mem_flatMap.mpr ⟨some move, moved, List.mem_cons_self⟩)

theorem State.compile_directed {state : State} {before after : Interner} {line : Line}
    (sound : before.Sound) (made : state.compile before = .ok (line, after)) {states : Nat}
    (leads : state.Leads states) : line.Directed states := by
  obtain ⟨_, backtrack, _, ⟨_, _, _, _, rfl⟩ | ⟨moves, unfinished, compiled, rfl⟩⟩ :=
    compile_cases sound made
  · have none : entryValue? (-1) = none := entryValue?_eq_none_iff.mpr (by decide)
    refine ⟨fun target read => ?_, nofun⟩
    rw [none] at read
    cases read
  · exact Line.ofMoves_directed compiled _ _ (leads unfinished)

structure Line.Suits (line : Line) (interner : Interner) (state : State) : Prop where
  describes : line.Describes interner state
  addressed : line.Addressed interner state.programs
  directed : ∀ states, state.Leads states → line.Directed states

theorem compileStates_suits {states : List State} {lines : Array Line} {interner : Interner}
    (made : compileStates states = .ok (lines, interner)) :
    List.Forall₂ (fun state line => line.Suits interner state) states lines.toList :=
  (compileStates_relates (fun interner state line => line.Suits interner state)
    (fun _ _ _ _ sound compiled => ⟨State.compile_describes sound compiled,
      State.compile_addressed sound compiled, fun _ => State.compile_directed sound compiled⟩)
    (fun _ _ _ _ _ extended suits => ⟨suits.describes.of_extends extended,
      suits.addressed.of_extends extended, suits.directed⟩) made).2

end TableLexer
