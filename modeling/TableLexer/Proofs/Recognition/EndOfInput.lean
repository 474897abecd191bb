import Mathlib.Data.Finset.Card
import TableLexer.Proofs.Recognition.Position

/-! The end of the input, read over and over. An attempt that is still undecided when it has read
the end of the input as often as there are states is in a cycle, and never decided. -/

set_option autoImplicit false

namespace TableLexer

def Signal.endings (rounds : Nat) : List Signal :=
  (List.replicate rounds [.pause, .symbol .endOfInput]).flatten

namespace Signal

@[simp] theorem endings_zero : endings 0 = [] := rfl

@[simp] theorem endings_succ (rounds : Nat) :
    endings (rounds + 1) = .pause :: .symbol .endOfInput :: endings rounds := by
  rw [endings, List.replicate_succ, List.flatten_cons]
  rfl

@[simp] theorem symbols_endings (rounds : Nat) :
    symbols (endings rounds) = List.replicate rounds .endOfInput := by
  induction rounds with
  | zero => rfl
  | succ rounds ih => rw [endings_succ, symbols_pause, symbols_symbol, ih, List.replicate_succ]

end Signal

section

variable {chain step : Nat → Option Nat} (next : ∀ n, chain (n + 1) = (chain n).bind step)

include next

theorem chain_earlier (n gap : Nat) (later : (chain (n + gap)).isSome) : (chain n).isSome := by
  induction gap with
  | zero => exact later
  | succ gap ih =>
    rw [← Nat.add_assoc, next, Option.isSome_bind] at later
    exact ih (Option.isSome_of_any later)

theorem chain_repeats {first gap : Nat} (same : chain first = chain (first + gap)) (n : Nat) :
    chain (first + n) = chain (first + gap + n) := by
  induction n with
  | zero => exact same
  | succ n ih => rw [← Nat.add_assoc, ← Nat.add_assoc, next, next, ih]

/-- A chain of numbers below a bound comes back to one of its links before it has more of them
than the bound. -/
theorem chain_returns {bound : Nat} (below : ∀ n value, chain n = some value → value < bound)
    (long : (chain bound).isSome) :
    ∃ first gap, 0 < gap ∧ first + gap ≤ bound ∧ chain first = chain (first + gap) := by
  have link (i : Nat) (small : i ≤ bound) : ∃ value, chain i = some value := by
    refine Option.isSome_iff_exists.mp (chain_earlier next i (bound - i) ?_)
    rwa [Nat.add_sub_cancel' small]
  -- There are more links than numbers below the bound, so two of them are equal.
  obtain ⟨first, small, second, small', different, same⟩ :=
    Finset.exists_ne_map_eq_of_card_lt_of_maps_to (s := Finset.range (bound + 1))
      (t := Finset.range bound) (by simp) (f := fun i => (chain i).getD 0) (by
        intro i inside
        obtain ⟨value, found⟩ := link i (Nat.lt_succ_iff.mp (Finset.mem_range.mp inside))
        simpa [found] using below i value found)
  rw [Finset.mem_range, Nat.lt_succ_iff] at small small'
  obtain ⟨value, found⟩ := link first small
  obtain ⟨value', found'⟩ := link second small'
  have equal : chain first = chain second := by
    simp only [found, found', Option.getD_some] at same
    rw [found, found', same]
  rcases Nat.lt_or_gt_of_ne different with before | after
  · refine ⟨first, second - first, by omega, by omega, ?_⟩
    rw [equal, Nat.add_sub_cancel' (Nat.le_of_lt before)]
  · refine ⟨second, first - second, by omega, by omega, ?_⟩
    rw [← equal, Nat.add_sub_cancel' (Nat.le_of_lt after)]

theorem chain_endless {bound : Nat} (below : ∀ n value, chain n = some value → value < bound)
    (long : (chain bound).isSome) (n : Nat) : (chain n).isSome := by
  obtain ⟨first, gap, positive, small, same⟩ := chain_returns next below long
  -- Links up to the first repetition are there; any later one is an earlier one again.
  induction n using Nat.strongRecOn with
  | ind n ih =>
    rcases Nat.lt_or_ge n (first + gap) with early | late
    · refine chain_earlier next n (bound - n) ?_
      rwa [Nat.add_sub_cancel' (by omega)]
    · have back := chain_repeats next same (n - (first + gap))
      rw [Nat.add_sub_cancel' late] at back
      rw [← back]
      exact ih _ (by omega)

end

namespace Tables

variable {μ : Type} {tables : Tables} {reaction : Reaction μ}

theorem proceed_endOfInput {state : Nat} (unfinished : tables.final? state = none) (ended : Bool)
    (more : List Signal) (trail : Trail) (memory : μ) :
    tables.proceed reaction (.symbol .endOfInput :: more) state { trail with ended } memory =
      tables.proceed reaction (.symbol .endOfInput :: more) state trail memory := by
  have noted : (Trail.note { trail with ended } (tables.bookmark? state)).read .endOfInput =
      (trail.note (tables.bookmark? state)).read .endOfInput := by
    cases tables.bookmark? state <;> rfl
  simp only [proceed, arrive_open unfinished, Trail.pass, noted]

def endStep (tables : Tables) (state : Nat) : Option Nat := do
  let target ← tables.successor? state .endOfInput
  if tables.final? target = none then some target else none

/-- The open state after the end of the input has been read a number of times, each time in an
open state. -/
def endChain (tables : Tables) (state : Nat) : Nat → Option Nat
  | 0 => some state
  | n + 1 => (tables.endChain state n).bind tables.endStep

theorem endStep_eq_some_iff {state target : Nat} :
    tables.endStep state = some target ↔
      tables.successor? state .endOfInput = some target ∧ tables.final? target = none := by
  unfold endStep
  cases tables.successor? state .endOfInput with
  | none => simp
  | some next =>
    by_cases unfinished : tables.final? next = none
    · simp only [Option.bind_eq_bind, Option.bind_some, if_pos unfinished, Option.some.injEq]
      constructor
      · rintro rfl
        exact ⟨rfl, unfinished⟩
      · exact And.left
    · simp only [Option.bind_eq_bind, Option.bind_some, if_neg unfinished, reduceCtorEq,
        Option.some.injEq, false_iff]
      rintro ⟨rfl, open'⟩
      exact unfinished open'

theorem endChain_open {state stopped : Nat} (unfinished : tables.final? state = none)
    {rounds : Nat} (comes : tables.endChain state rounds = some stopped) :
    tables.final? stopped = none := by
  cases rounds with
  | zero =>
    cases comes
    exact unfinished
  | succ rounds =>
    obtain ⟨before, _, stepped⟩ := Option.bind_eq_some_iff.mp comes
    exact (endStep_eq_some_iff.mp stepped).2

theorem endChain_lt (valid : tables.Valid) {state : Nat} (inside : state < tables.states)
    (unfinished : tables.final? state = none) (rounds stopped : Nat)
    (comes : tables.endChain state rounds = some stopped) : stopped < tables.states := by
  induction rounds generalizing stopped with
  | zero =>
    cases comes
    exact inside
  | succ rounds ih =>
    obtain ⟨before, came, stepped⟩ := Option.bind_eq_some_iff.mp comes
    exact valid.successor?_lt (ih before came) (endChain_open unfinished came)
      (endStep_eq_some_iff.mp stepped).1

theorem recognize_one {state : Nat} (trail : Trail) (unfinished : tables.final? state = none)
    (stopped : Nat) :
    (tables.recognize [.endOfInput] state trail).outcome = .ok (.refill stopped) ↔
      tables.endStep state = some stopped := by
  rw [endStep_eq_some_iff, recognize, List.map_singleton]
  cases leads : tables.successor? state .endOfInput with
  | none =>
    rw [proceed_stuck unfinished leads]
    simp [Trail.deadEnd_ne_refill]
  | some target =>
    rw [proceed_move unfinished leads]
    cases final : tables.final? target with
    | some action =>
      rw [proceed_final final]
      simp only [reduceCtorEq, Option.some.injEq, Except.ok.injEq, false_iff]
      rintro ⟨rfl, open'⟩
      rw [final] at open'
      cases open'
    | none =>
      rw [proceed_nil final]
      simp only [Except.ok.injEq, Step.refill.injEq, Option.some.injEq]
      constructor
      · rintro rfl
        exact ⟨rfl, final⟩
      · exact And.left

theorem recognize_endOfInput {state : Nat} (trail : Trail)
    (unfinished : tables.final? state = none) (rounds stopped : Nat) :
    (tables.recognize (List.replicate rounds .endOfInput) state trail).outcome =
      .ok (.refill stopped) ↔ tables.endChain state rounds = some stopped := by
  induction rounds generalizing stopped with
  | zero =>
    rw [List.replicate_zero, recognize, List.map_nil, proceed_nil unfinished, endChain]
    simp
  | succ rounds ih =>
    -- The last end of the input is read where the ones before it have led, if anywhere.
    rw [List.replicate_succ', endChain]
    cases came : tables.endChain state rounds with
    | none =>
      have decided : ∀ stopped, (tables.recognize (List.replicate rounds .endOfInput) state
          trail).outcome ≠ .ok (.refill stopped) := by
        intro stopped suspended
        rw [ih stopped, came] at suspended
        cases suspended
      rw [recognize_append_decided _ decided]
      simp [decided]
    | some before =>
      have suspended := (ih before).mpr came
      rw [recognize_append_suspended _ suspended, Option.bind_some]
      exact recognize_one _ (endChain_open unfinished came) stopped

/-- An attempt that is suspended after as many ends of the input as there are states stays so. -/
theorem recognize_endless (valid : tables.Valid) {symbols : List Symbol} {state : Nat}
    {trail : Trail} (inside : state < tables.states) {rounds stopped : Nat}
    (enough : tables.states ≤ rounds)
    (suspended : (tables.recognize (symbols ++ List.replicate rounds .endOfInput) state
      trail).outcome = .ok (.refill stopped)) (rounds' : Nat) :
    ∃ stopped', (tables.recognize (symbols ++ List.replicate rounds' .endOfInput) state
      trail).outcome = .ok (.refill stopped') := by
  by_cases read : ∃ reached, (tables.recognize symbols state trail).outcome = .ok (.refill reached)
  · obtain ⟨reached, dry⟩ := read
    obtain ⟨known, unfinished⟩ := proceed_stopped valid _ trail () inside dry
    rw [recognize_append_suspended _ dry, recognize_endOfInput _ unfinished] at suspended
    -- As many ends of the input as there are states visit some state twice.
    have long : (tables.endChain reached tables.states).isSome := by
      refine chain_earlier (fun _ => rfl) tables.states (rounds - tables.states) ?_
      rw [Nat.add_sub_cancel' enough, suspended]
      rfl
    obtain ⟨stopped', comes⟩ := Option.isSome_iff_exists.mp
      (chain_endless (fun _ => rfl) (tables.endChain_lt valid known unfinished) long rounds')
    refine ⟨stopped', ?_⟩
    rw [recognize_append_suspended _ dry, recognize_endOfInput _ unfinished]
    exact comes
  · have decided : ∀ reached, (tables.recognize symbols state trail).outcome ≠
        .ok (.refill reached) := fun reached dry => read ⟨reached, dry⟩
    rw [recognize_append_decided _ decided] at suspended
    exact absurd suspended (decided stopped)

end Tables

end TableLexer
