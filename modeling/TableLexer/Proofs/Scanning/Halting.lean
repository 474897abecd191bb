import TableLexer.Proofs.Recognition.LongestMatch
import TableLexer.Proofs.Scanning.Pieces
import TableLexer.Proofs.Tables.Loading

/-! When scans halt. The only scans that do not halt come to an open state from which the end of the
input, read again and again, never leads to an accepting state or a dead end. -/

set_option autoImplicit false

namespace TableLexer

namespace Tables

variable {tables : Tables}

/-- However often the end of the input is read from this state on, the state that it leads to is
open. -/
def Circles (tables : Tables) (state : Nat) : Prop :=
  ∀ rounds, (tables.endChain state rounds).isSome

def Traps (tables : Tables) (bytes : List UInt8) : Prop :=
  ∃ state, tables.Path 0 (bytes.map .byte) state ∧ tables.final? state = none ∧
    tables.Circles state

theorem recognize_suspended_iff {bytes : List UInt8} {stopped : Nat} :
    (tables.recognize (bytes.map .byte) 0 (.start 0 false)).outcome = .ok (.refill stopped) ↔
      tables.Path 0 (bytes.map .byte) stopped ∧ tables.final? stopped = none := by
  have proper {read rest : List Symbol} (shape : bytes.map .byte = read ++ .endOfInput :: rest) :
      false = true ∧ Symbol.endOfInput ∉ read := by
    have member : Symbol.endOfInput ∈ bytes.map .byte := by
      rw [shape]
      exact List.mem_append_right read List.mem_cons_self
    simp at member
  constructor
  · intro suspended
    obtain ⟨outcome, taken, read, ends⟩ := tables.ends_total 0 0 (bytes.map .byte)
    have came := (proceed_ends false () proper ends).1
    change (tables.recognize (bytes.map .byte) 0 (.start 0 false)).outcome = outcome at came
    rw [suspended] at came
    subst came
    cases ends with
    | suspends path unfinished => exact ⟨path, unfinished⟩
  · rintro ⟨path, unfinished⟩
    exact (proceed_ends false () proper (.suspends path unfinished)).1

theorem verdict_endless_iff (valid : tables.Valid) (bytes : List UInt8) :
    tables.verdict bytes = .endless ↔ tables.Traps bytes := by
  have decides : tables.verdict bytes = .endless ↔ ∃ stopped,
      (tables.recognize (Symbol.input bytes tables.states) 0 (.start 0 false)).outcome =
        .ok (.refill stopped) := by
    unfold verdict Progress.verdict
    split
    · rename_i came
      simp [came]
    · rename_i came
      simp [came]
    · rename_i came
      simp [came]
  rw [decides]
  constructor
  · rintro ⟨stopped, suspended⟩
    -- The bytes alone do not decide the attempt, or more symbols would not matter.
    by_cases dry : ∃ state, (tables.recognize (bytes.map .byte) 0 (.start 0 false)).outcome =
        .ok (.refill state)
    · obtain ⟨state, dry⟩ := dry
      obtain ⟨path, unfinished⟩ := recognize_suspended_iff.mp dry
      have inside : state < tables.states :=
        (proceed_stopped valid _ _ () valid.states_pos dry).1
      rw [Symbol.input, recognize_append_suspended _ dry, recognize_endOfInput _ unfinished]
        at suspended
      exact ⟨state, path, unfinished, chain_endless (fun _ => rfl)
        (tables.endChain_lt valid inside unfinished) (Option.isSome_of_eq_some suspended)⟩
    · rw [Symbol.input, recognize_append_decided _ fun state halted => dry ⟨state, halted⟩]
        at suspended
      exact absurd ⟨stopped, suspended⟩ dry
  · rintro ⟨state, path, unfinished, circles⟩
    obtain ⟨stopped, comes⟩ := Option.isSome_iff_exists.mp (circles tables.states)
    have dry := recognize_suspended_iff.mpr ⟨path, unfinished⟩
    refine ⟨stopped, ?_⟩
    rw [Symbol.input, recognize_append_suspended _ dry, recognize_endOfInput _ unfinished]
    exact comes

theorem tokenize_endless (start : Nat) (bytes : List UInt8)
    (endless : (tables.tokenize start bytes).2 = .endless) :
    ∃ rest, rest ≠ [] ∧ tables.verdict rest = .endless := by
  fun_induction tables.tokenize start bytes with
  | case1 => cases endless
  | case2 start first rest verdict => exact ⟨first :: rest, List.cons_ne_nil _ _, verdict⟩
  | case3 => cases endless
  | case4 => cases endless
  | case5 start first rest action length found small token more later ih => exact ih endless
  | case6 => cases endless

end Tables

namespace Scanner

variable {tables : Tables} {scanner : Scanner}

theorem halts_iff_tokenize (valid : tables.Valid)
    (chosen : scanner = .plain tables ∨ scanner = .ofTables tables)
    (pieces : List (List UInt8)) :
    scanner.Halts pieces ↔ (tables.tokenize 0 pieces.flatten).2 ≠ .endless := by
  obtain ⟨observer, reaction, ready, steady⟩ := exists_steady valid chosen
  rw [(halts_iff steady pieces).1, (scan_tokenize valid chosen pieces).2]

theorem not_halts_of_traps (valid : tables.Valid)
    (chosen : scanner = .plain tables ∨ scanner = .ofTables tables)
    {pieces : List (List UInt8)} (more : pieces.flatten ≠ [])
    (traps : tables.Traps pieces.flatten) : ¬ scanner.Halts pieces := by
  rw [halts_iff_tokenize valid chosen, not_not]
  have endless := (Tables.verdict_endless_iff valid _).mpr traps
  exact congrArg Prod.snd (Tables.tokenize_of_endless 0 more endless)

theorem halts_of_trapless (valid : tables.Valid)
    (chosen : scanner = .plain tables ∨ scanner = .ofTables tables)
    (trapless : ∀ bytes, bytes ≠ [] → ¬ tables.Traps bytes) (pieces : List (List UInt8)) :
    scanner.Halts pieces := by
  rw [halts_iff_tokenize valid chosen]
  intro endless
  obtain ⟨rest, more, undecided⟩ := Tables.tokenize_endless 0 pieces.flatten endless
  exact trapless rest more ((Tables.verdict_endless_iff valid rest).mp undecided)

/-- The scans of loaded tables halt, all of them, exactly when no bytes lead to a state that
circles. A single scan halts exactly when its tokens end, and then with what `scan` reports. -/
theorem scans_halt_iff (loaded : tables.Loaded) :
    ((∀ pieces, (Scanner.plain tables).Halts pieces ∧ (Scanner.ofTables tables).Halts pieces) ↔
      ∀ bytes, bytes ≠ [] → ¬ tables.Traps bytes) ∧
    ∀ scanner : Scanner, scanner = .plain tables ∨ scanner = .ofTables tables →
      ∀ pieces, (scanner.Halts pieces ↔ (tables.tokenize 0 pieces.flatten).2 ≠ .endless) ∧
        ∀ calls scan, scanner.stage pieces calls = .ended scan → scan = scanner.scan pieces := by
  have valid := loaded.valid
  refine ⟨⟨?_, ?_⟩, ?_⟩
  · intro halts bytes more traps
    have whole : [bytes].flatten = bytes := List.flatten_singleton
    rw [← whole] at more traps
    exact not_halts_of_traps valid (.inl rfl) more traps (halts [bytes]).1
  · intro trapless pieces
    exact ⟨halts_of_trapless valid (.inl rfl) trapless pieces,
      halts_of_trapless valid (.inr rfl) trapless pieces⟩
  · intro scanner chosen pieces
    obtain ⟨observer, reaction, ready, steady⟩ := exists_steady valid chosen
    exact ⟨halts_iff_tokenize valid chosen pieces, (halts_iff steady pieces).2⟩

theorem halts_of_endStep (valid : tables.Valid)
    (chosen : scanner = .plain tables ∨ scanner = .ofTables tables)
    (leaves : ∀ state < tables.states, tables.endStep state = none)
    (pieces : List (List UInt8)) : scanner.Halts pieces := by
  refine halts_of_trapless valid chosen ?_ pieces
  rintro bytes _ ⟨state, path, unfinished, circles⟩
  have inside : state < tables.states :=
    (Tables.proceed_stopped valid _ _ () valid.states_pos
      (Tables.recognize_suspended_iff.mpr ⟨path, unfinished⟩)).1
  have second := circles 1
  rw [Tables.endChain, Tables.endChain, Option.bind_some, leaves state inside] at second
  cases second

/-- Tables that take any text for one token and that move on at its end, too. -/
def circleParts : PlainParts :=
  .uniform #[0, 0] #[-1, 0] #[1, 1]

def circleTables : Tables :=
  { parts := circleParts, captures := none }

theorem circleTables_accepted : Tables.ofParts circleParts none = .ok circleTables :=
  Tables.ofParts_plain (PlainParts.uniform_valid (by decide) (by decide) rfl rfl (by decide)
    (by decide))

theorem circleTables_traps : circleTables.Traps [97] := by
  have open0 : circleTables.final? 0 = none := by decide +kernel
  have open1 : circleTables.final? 1 = none := by decide +kernel
  have leads : circleTables.successor? 0 (.byte 97) = some 1 := by decide +kernel
  have circle : circleTables.endStep 1 = some 1 := by decide +kernel
  refine ⟨1, .step open0 leads .here, open1, ?_⟩
  have stays (rounds : Nat) : circleTables.endChain 1 rounds = some 1 := by
    induction rounds with
    | zero => rfl
    | succ rounds ih => rw [Tables.endChain, ih, Option.bind_some, circle]
  intro rounds
  rw [stays]
  rfl

theorem circleTables_never_halt :
    circleTables.Loaded ∧ ¬ (Scanner.plain circleTables).Halts [[97]] ∧
      ¬ (Scanner.ofTables circleTables).Halts [[97]] := by
  have loaded : circleTables.Loaded := .ofParts circleTables_accepted
  have more : [[(97 : UInt8)]].flatten ≠ [] := List.cons_ne_nil _ _
  exact ⟨loaded, not_halts_of_traps loaded.valid (.inl rfl) more circleTables_traps,
    not_halts_of_traps loaded.valid (.inr rfl) more circleTables_traps⟩

theorem circleTables_halting :
    circleTables.Loaded ∧
      ((∀ pieces, (Scanner.plain circleTables).Halts pieces ∧
        (Scanner.ofTables circleTables).Halts pieces) ↔
        ∀ bytes, bytes ≠ [] → ¬ circleTables.Traps bytes) ∧
      ((Scanner.plain circleTables).Halts [[97]] ↔
        (circleTables.tokenize 0 [[97]].flatten).2 ≠ .endless) := by
  have loaded : circleTables.Loaded := .ofParts circleTables_accepted
  obtain ⟨all, each⟩ := scans_halt_iff loaded
  exact ⟨loaded, all, (each (.plain circleTables) (.inl rfl) [[97]]).1⟩

end Scanner

end TableLexer
