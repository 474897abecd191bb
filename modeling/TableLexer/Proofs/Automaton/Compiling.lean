import Mathlib.Data.List.Forall2
import TableLexer.Proofs.Automaton.Interning
import TableLexer.Proofs.Automaton.Packing

/-! The line of a state describes the state. Its entries stand for the actions, its addresses for
the programs, and its rows give the target and the record program of every move; what the fallbacks
are chosen to be does not matter. -/

set_option autoImplicit false

namespace TableLexer

theorem forall₂_getElem? {α β : Type} {related : α → β → Prop} {first : List α} {second : List β}
    (lists : List.Forall₂ related first second) {i : Nat} {item : α}
    (listed : first[i]? = some item) : ∃ other, second[i]? = some other ∧ related item other := by
  obtain ⟨inside, rfl⟩ := List.getElem?_eq_some_iff.mp listed
  have inside' : i < second.length := lists.length_eq ▸ inside
  exact ⟨second[i], List.getElem?_eq_getElem inside', lists.get inside inside'⟩

/-- The programs of a state that can run; the moves of an accepting state never do. -/
def State.programs (state : State) : List Program :=
  state.backtrack.toList.map Tagged.tag ++
    match state.accept with
    | some tagged => [tagged.tag]
    | none => state.moves.toList.flatMap fun move => move.toList.map Move.record

/-- A pair of entries stands for a number and a program. -/
structure Compiled (interner : Interner) (number : Nat) (program : Program)
    (entry : Int16 × Int16) : Prop where
  number : entryValue? entry.1 = some number
  program : interner.Names entry.2 program

theorem Compiled.of_extends {before after : Interner} {number : Nat} {program : Program}
    {used : List Program} {entry : Int16 × Int16} (compiled : Compiled before number program entry)
    (extended : before.Extends after used) : Compiled after number program entry :=
  ⟨compiled.number, compiled.program.of_extends extended⟩

section

variable {α : Type} {number : α → Nat} {program : α → Program}
  {compile : α → Interner → Except TableError ((Int16 × Int16) × Interner)}

def Compiles (compile : α → Interner → Except TableError ((Int16 × Int16) × Interner))
    (number : α → Nat) (program : α → Program) : Prop :=
  ∀ item before entry after, before.Sound → compile item before = .ok (entry, after) →
    before.Extends after [program item] ∧ Compiled after (number item) (program item) entry

abbrev CompiledOptional (interner : Interner) (number : α → Nat) (program : α → Program) :
    Option α → Option (Int16 × Int16) → Prop :=
  Option.Rel fun item => Compiled interner (number item) (program item)

theorem CompiledOptional.of_extends {before after : Interner} {used : List Program}
    {item : Option α} {entry : Option (Int16 × Int16)}
    (compiled : CompiledOptional before number program item entry)
    (extended : before.Extends after used) :
    CompiledOptional after number program item entry := by
  cases compiled with
  | none => exact .none
  | some compiled => exact .some (compiled.of_extends extended)

theorem CompiledOptional.reads {interner : Interner} {item : Option α}
    {entry : Option (Int16 × Int16)}
    (compiled : CompiledOptional interner number program item entry) :
    entryValue? (entry.elim (-1) Prod.fst) = item.map number := by
  cases compiled with
  | none => exact entryValue?_eq_none_iff.mpr (by decide)
  | some compiled => exact compiled.number

theorem CompiledOptional.names {interner : Interner} {item : Option α}
    {entry : Option (Int16 × Int16)}
    (compiled : CompiledOptional interner number program item entry) :
    ∀ found, item = some found → interner.Names (entry.elim 0 Prod.snd) (program found) := by
  cases compiled with
  | none => simp
  | some compiled =>
    rintro found ⟨⟩
    exact compiled.program

theorem Compiles.optional (compiles : Compiles compile number program) {item : Option α}
    {before after : Interner} {entry : Option (Int16 × Int16)} (sound : before.Sound)
    (made : compileOptional item compile before = .ok (entry, after)) :
    before.Extends after (item.toList.map program) ∧
      CompiledOptional after number program item entry := by
  cases item with
  | none =>
    cases made
    exact ⟨Interner.extends_nil sound, .none⟩
  | some item =>
    simp only [compileOptional, bind_eq_ok_iff, pure_eq_ok, Except.ok.injEq, Prod.mk.injEq] at made
    obtain ⟨⟨entry, after⟩, made, rfl, rfl⟩ := made
    obtain ⟨extended, compiled⟩ := compiles item before entry after sound made
    exact ⟨extended, .some compiled⟩

end

theorem Tagged.compiles (field : Field) : Compiles (Tagged.compile field) action tag := by
  intro item before entry after sound made
  simp only [compile, bind_eq_ok_iff, pure_eq_ok, Except.ok.injEq, Prod.mk.injEq] at made
  obtain ⟨action, numbered, ⟨address, after⟩, interned, rfl, rfl⟩ := made
  obtain ⟨extended, named⟩ := Interner.intern_extends sound interned
  exact ⟨extended, entryValue?_of_tableEntry numbered, named⟩

theorem Move.compiles : Compiles compile target record := by
  intro item before entry after sound made
  simp only [compile, bind_eq_ok_iff, pure_eq_ok, Except.ok.injEq, Prod.mk.injEq] at made
  obtain ⟨target, numbered, ⟨address, after⟩, interned, rfl, rfl⟩ := made
  obtain ⟨extended, named⟩ := Interner.intern_extends sound interned
  exact ⟨extended, entryValue?_of_tableEntry numbered, named⟩

theorem compileMoves_compiled {moves : List (Option Move)} {before after : Interner}
    {entries : List (Option (Int16 × Int16))} (sound : before.Sound)
    (made : compileMoves moves before = .ok (entries, after)) :
    before.Extends after (moves.flatMap fun move => move.toList.map Move.record) ∧
      List.Forall₂ (CompiledOptional after Move.target Move.record) moves entries := by
  induction moves generalizing before entries with
  | nil =>
    cases made
    exact ⟨Interner.extends_nil sound, .nil⟩
  -- Addresses given to the first move stay good while the rest is interned.
  | cons move rest ih =>
    simp only [compileMoves, bind_eq_ok_iff, pure_eq_ok, Except.ok.injEq, Prod.mk.injEq] at made
    obtain ⟨⟨entry, middle⟩, first, ⟨entries', after'⟩, others, rfl, rfl⟩ := made
    obtain ⟨extended, compiled⟩ := Move.compiles.optional sound first
    obtain ⟨extended', compiled'⟩ := ih extended.sound others
    exact ⟨extended.trans extended', .cons (compiled.of_extends extended') compiled'⟩

theorem mem_exceptions {values : List (Option Int16)} {fallback value : Int16} {column : Nat} :
    (column, value) ∈ exceptions values fallback ↔
      values[column]? = some (some value) ∧ value ≠ fallback := by
  simp only [exceptions, List.mem_filterMap, Prod.exists, List.mk_mem_zipIdx_iff_getElem?]
  constructor
  · rintro ⟨found, column', listed, kept⟩
    cases found with
    | none => cases kept
    | some value' =>
      dsimp only at kept
      split at kept
      · cases kept
      · rename_i differs
        cases kept
        exact ⟨listed, differs⟩
  · rintro ⟨listed, differs⟩
    exact ⟨some value, column, listed, if_neg differs⟩

theorem exceptions_sparse {values : List (Option Int16)} (fallback : Int16)
    (complete : values.length = columns) : (exceptions values fallback).Sparse where
  within := by
    rintro ⟨column, value⟩ member
    have listed := (mem_exceptions.mp member).1
    exact complete ▸ (List.getElem?_eq_some_iff.mp listed).1
  single := by
    rintro ⟨column, value⟩ member ⟨_, other⟩ member' rfl
    have listed := (mem_exceptions.mp member).1
    rw [(mem_exceptions.mp member').1] at listed
    cases listed
    rfl

theorem exceptions_gives {values : List (Option Int16)} {fallback value known : Int16}
    {column : Nat} (listed : values[column]? = some (some known))
    (gives : (exceptions values fallback).Gives fallback column value) : value = known := by
  rcases gives with member | ⟨absent, rfl⟩
  · rw [(mem_exceptions.mp member).1] at listed
    cases listed
    rfl
  -- Without a cell of its own the column has the fallback, which is then its value.
  · by_cases same : known = value
    · exact same.symm
    · exact absurd rfl (absent (column, known) (mem_exceptions.mpr ⟨listed, same⟩))

namespace Line

structure Moves (line : Line) (interner : Interner) (moves : Vector (Option Move) columns)
    (targets codes : Row) : Prop where
  rows : line.rows = some (targets, codes)
  targets_sparse : targets.Sparse
  codes_sparse : codes.Sparse
  target : ∀ column (within : column < columns) value,
    targets.Gives line.fallback column value →
      entryValue? value = moves[column].map Move.target
  record : ∀ column (within : column < columns) move value, moves[column] = some move →
    codes.Gives line.fallbackCode column value → interner.Names value move.record

structure Describes (line : Line) (interner : Interner) (state : State) : Prop where
  backtrack : entryValue? line.backtrack = state.backtrack.map Tagged.action
  backtrackCode : ∀ tagged, state.backtrack = some tagged →
    interner.Names line.backtrackCode tagged.tag
  accepting : ∀ tagged, state.accept = some tagged →
    finalAction? line.base = some tagged.action ∧ interner.Names line.baseCode tagged.tag ∧
      line.rows = none
  moving : state.accept = none → ∃ targets codes, line.Moves interner state.moves targets codes

theorem Describes.sparse {line : Line} {interner : Interner} {state : State} {rows : Row × Row}
    (describes : line.Describes interner state) (found : line.rows = some rows) :
    rows.1.Sparse ∧ rows.2.Sparse := by
  cases accepts : state.accept with
  | some tagged =>
    rw [(describes.accepting tagged accepts).2.2] at found
    cases found
  | none =>
    obtain ⟨targets, codes, moves⟩ := describes.moving accepts
    rw [moves.rows] at found
    cases found
    exact ⟨moves.targets_sparse, moves.codes_sparse⟩

theorem Describes.of_extends {line : Line} {before after : Interner} {state : State}
    {used : List Program} (describes : line.Describes before state)
    (extended : before.Extends after used) : line.Describes after state where
  backtrack := describes.backtrack
  backtrackCode tagged found := (describes.backtrackCode tagged found).of_extends extended
  accepting tagged found := by
    obtain ⟨action, named, rows⟩ := describes.accepting tagged found
    exact ⟨action, named.of_extends extended, rows⟩
  moving unfinished := by
    obtain ⟨targets, codes, moves⟩ := describes.moving unfinished
    refine ⟨targets, codes, { moves with record := ?_ }⟩
    intro column within move value found gives
    exact (moves.record column within move value found gives).of_extends extended

theorem compiled_at {interner : Interner} {moves : Vector (Option Move) columns}
    {entries : List (Option (Int16 × Int16))}
    (compiled : List.Forall₂ (CompiledOptional interner Move.target Move.record) moves.toList
      entries) {column : Nat} (within : column < columns) :
    ∃ entry, entries[column]? = some entry ∧
      CompiledOptional interner Move.target Move.record moves[column] entry := by
  refine forall₂_getElem? compiled ?_
  rw [List.getElem?_eq_getElem (by rwa [Vector.length_toList]), Vector.getElem_toList]

theorem ofMoves_moves {interner : Interner} {moves : Vector (Option Move) columns}
    {entries : List (Option (Int16 × Int16))}
    (compiled : List.Forall₂ (CompiledOptional interner Move.target Move.record) moves.toList
      entries) (backtrack backtrackCode : Int16) :
    ∃ targets codes,
      (ofMoves backtrack backtrackCode entries).Moves interner moves targets codes := by
  have complete : entries.length = columns := by
    rw [← compiled.length_eq, Vector.length_toList]
  refine ⟨_, _, rfl, exceptions_sparse _ ?_, exceptions_sparse _ ?_, ?_, ?_⟩
  · rw [List.length_map, List.length_map, complete]
  · rw [List.length_map, complete]
  · intro column within value gives
    obtain ⟨entry, listed, found⟩ := compiled_at compiled within
    have same : value = entry.elim (-1) Prod.fst :=
      exceptions_gives (by simp [listed]) gives
    rw [same]
    exact found.reads
  · intro column within move value moved gives
    obtain ⟨entry, listed, found⟩ := compiled_at compiled within
    rw [moved] at found
    cases found with
    | some compiled =>
      rename_i entry
      have same : value = entry.2 := exceptions_gives (by simp [listed]) gives
      exact same ▸ compiled.program

end Line

/-- Everything that compiling a state does. Its programs are interned, its backtrack point becomes
two entries, and it is left with a tag or with rows. -/
theorem State.compile_cases {state : State} {before after : Interner} {line : Line}
    (sound : before.Sound) (made : state.compile before = .ok (line, after)) :
    before.Extends after state.programs ∧
      ∃ backtrack, CompiledOptional after Tagged.action Tagged.tag state.backtrack backtrack ∧
        ((∃ tagged entry, state.accept = some tagged ∧
            Compiled after tagged.action tagged.tag entry ∧
            line =
              { base := -entry.1 - 1, backtrack := backtrack.elim (-1) Prod.fst, fallback := -1
                baseCode := entry.2, backtrackCode := backtrack.elim 0 Prod.snd
                fallbackCode := 0, rows := none }) ∨
          ∃ moves, state.accept = none ∧
            List.Forall₂ (CompiledOptional after Move.target Move.record) state.moves.toList
              moves ∧
            line = .ofMoves (backtrack.elim (-1) Prod.fst) (backtrack.elim 0 Prod.snd) moves) := by
  simp only [compile, bind_eq_ok_iff] at made
  obtain ⟨⟨backtrack, middle⟩, marked, ⟨accept, later⟩, final, made⟩ := made
  obtain ⟨extended, bookmark⟩ := (Tagged.compiles .backtrack).optional sound marked
  obtain ⟨extended', action⟩ := (Tagged.compiles .base).optional extended.sound final
  cases accepts : state.accept with
  | none =>
    rw [accepts] at action extended'
    cases action
    simp only [bind_eq_ok_iff, pure_eq_ok, Except.ok.injEq, Prod.mk.injEq] at made
    obtain ⟨⟨moves, after⟩, moved, rfl, rfl⟩ := made
    obtain ⟨extended'', moves⟩ := compileMoves_compiled extended'.sound moved
    -- The moves of a state that accepts are not compiled, and its programs leave them out.
    have used : state.programs = state.backtrack.toList.map Tagged.tag ++
        state.moves.toList.flatMap fun move => move.toList.map Move.record := by
      rw [programs, accepts]
    rw [used]
    exact ⟨extended.trans (extended'.trans extended''), backtrack,
      (bookmark.of_extends extended').of_extends extended'', .inr ⟨_, rfl, moves, rfl⟩⟩
  | some tagged =>
    rw [accepts] at action extended'
    cases action with
    | some compiled =>
      cases made
      have used : state.programs = state.backtrack.toList.map Tagged.tag ++ [tagged.tag] := by
        rw [programs, accepts]
      rw [used]
      exact ⟨extended.trans extended', backtrack, bookmark.of_extends extended',
        .inl ⟨tagged, _, rfl, compiled, rfl⟩⟩

theorem State.compile_describes {state : State} {before after : Interner} {line : Line}
    (sound : before.Sound) (made : state.compile before = .ok (line, after)) :
    line.Describes after state := by
  obtain ⟨_, backtrack, bookmark, ⟨tagged, entry, accepts, compiled, rfl⟩ |
    ⟨moves, unfinished, compiled, rfl⟩⟩ := compile_cases sound made
  · refine ⟨bookmark.reads, bookmark.names, ?_, ?_⟩
    · rw [accepts]
      rintro _ ⟨⟩
      exact ⟨finalAction?_of_entryValue? compiled.number, compiled.program, rfl⟩
    · rw [accepts]
      simp
  · refine ⟨bookmark.reads, bookmark.names, ?_, fun _ => Line.ofMoves_moves compiled _ _⟩
    rw [unfinished]
    simp

/-- What holds of each line as it is compiled, and of interners that grow, holds of all lines. -/
theorem compileStates_relates (related : Interner → State → Line → Prop)
    (each : ∀ state before line after, before.Sound → state.compile before = .ok (line, after) →
      related after state line)
    (kept : ∀ before after used state line, before.Extends after used →
      related before state line → related after state line)
    {states : List State} {lines : Array Line} {interner : Interner}
    (made : compileStates states = .ok (lines, interner)) :
    Interner.empty.Extends interner (states.flatMap State.programs) ∧
      List.Forall₂ (related interner) states lines.toList := by
  -- A line is related by the interner of its own moment; each step carries the earlier ones
  -- over to the interner that it ends with.
  refine foldlM_induction
    (fun done compiled => Interner.empty.Extends compiled.2 (done.flatMap State.programs) ∧
      List.Forall₂ (related compiled.2) done compiled.1.toList)
    ⟨Interner.extends_nil Interner.sound_empty, .nil⟩ ?_ made
  rintro done state ⟨lines, middle⟩ ⟨lines', after⟩ ⟨extended, earlier⟩ _ step
  simp only [bind_eq_ok_iff, pure_eq_ok, Except.ok.injEq, Prod.mk.injEq] at step
  obtain ⟨⟨line, after⟩, compiled, rfl, rfl⟩ := step
  have extended' := (State.compile_cases extended.sound compiled).1
  refine ⟨?_, ?_⟩
  · rw [List.flatMap_append, List.flatMap_singleton]
    exact extended.trans extended'
  · rw [Array.toList_push]
    exact List.rel_append (earlier.imp fun _ _ => kept _ _ _ _ _ extended')
      (.cons (each _ _ _ _ extended.sound compiled) .nil)

theorem compileStates_describes {states : List State} {lines : Array Line} {interner : Interner}
    (made : compileStates states = .ok (lines, interner)) :
    Interner.empty.Extends interner (states.flatMap State.programs) ∧
      List.Forall₂ (fun state line => line.Describes interner state) states lines.toList :=
  compileStates_relates (fun interner state line => line.Describes interner state)
    (fun _ _ _ _ => State.compile_describes)
    (fun _ _ _ _ _ extended describes => describes.of_extends extended) made

end TableLexer
