import TableLexer.Proofs.Recognition.Reaction
import TableLexer.Proofs.Recognition.Trail

/-! Attempts on a list of signals, away from windows and calls. A signal is a symbol or a pause, at
which one call ends and the next one enters the same state again. One call of the automaton is an
attempt without pauses on the unread symbols, and calls in sequence are one attempt with a pause
between any two. -/

set_option autoImplicit false

namespace TableLexer

variable {μ : Type}

inductive Signal where
  | symbol (symbol : Symbol)
  | pause
  deriving DecidableEq, Repr

/-- How an attempt ends; suspended when the signals run out. -/
structure Progress (μ : Type) where
  outcome : Except LexError Step
  trail : Trail
  memory : μ

def Progress.result (progress : Progress μ) (window : Window) : Result μ where
  outcome := progress.outcome
  window := window.withTrail progress.trail
  memory := progress.memory

/-- The window as a call sees it that is entered this way. -/
def Entry.begun : Entry → Window → Window
  | .fresh _, window => window.beginAttempt
  | .resume _, window => window

def Trail.deadEnd (trail : Trail) (memory : μ) : Progress μ where
  outcome := match trail.lastAction with
    | some action => .ok (.action action)
    | none => .error (.emptyToken trail.last)
  trail := trail.backUp
  memory

theorem Trail.deadEnd_some {trail : Trail} {action : ActionId}
    (chosen : trail.lastAction = some action) (memory : μ) :
    trail.deadEnd memory = { outcome := .ok (.action action), trail := trail.backUp, memory } := by
  simp only [deadEnd, chosen]

theorem Trail.deadEnd_none {trail : Trail} (nothing : trail.lastAction = none) (memory : μ) :
    trail.deadEnd memory =
      { outcome := .error (.emptyToken trail.last), trail := trail.backUp, memory } := by
  simp only [deadEnd, nothing]

theorem Trail.deadEnd_ne_refill (trail : Trail) (memory : μ) (state : Nat) :
    (trail.deadEnd memory).outcome ≠ .ok (.refill state) := by
  unfold Trail.deadEnd
  cases trail.lastAction <;> simp

namespace Tables

def tagged (tables : Tables) (reaction : Reaction μ) (state : Nat) (memory : μ) : μ :=
  if (tables.bookmark? state).isSome then reaction.tag .backtrack state memory else memory

@[simp] theorem tagged_silent (tables : Tables) (state : Nat) (memory : μ) :
    tables.tagged .silent state memory = memory := by
  simp only [tagged, Reaction.silent, ite_self]

/-- Enters a state: an accepting one ends the attempt, any other takes its bookmark and its tag. -/
def arrive (tables : Tables) (reaction : Reaction μ) (state : Nat) (trail : Trail) (memory : μ)
    (onward : Trail → μ → Progress μ) : Progress μ :=
  match tables.final? state with
  | some action =>
    { outcome := .ok (.action action), trail, memory := reaction.tag .accept state memory }
  | none => onward (trail.note (tables.bookmark? state)) (tables.tagged reaction state memory)

def proceed (tables : Tables) (reaction : Reaction μ) :
    List Signal → Nat → Trail → μ → Progress μ
  | [], state, trail, memory =>
    tables.arrive reaction state trail memory fun trail memory =>
      { outcome := .ok (.refill state), trail, memory }
  | .pause :: rest, state, trail, memory =>
    tables.arrive reaction state trail memory fun trail memory =>
      tables.proceed reaction rest state trail memory
  | .symbol symbol :: rest, state, trail, memory =>
    tables.arrive reaction state trail memory fun trail memory =>
      match tables.successor? state symbol with
      | none => (trail.read symbol).deadEnd memory
      | some target =>
        tables.proceed reaction rest target (trail.pass symbol)
          (reaction.move state symbol (trail.read symbol).curr memory)

variable {tables : Tables} {reaction : Reaction μ} {state : Nat} {trail : Trail} {memory : μ}

theorem arrive_final {action : ActionId} (final : tables.final? state = some action)
    (onward : Trail → μ → Progress μ) :
    tables.arrive reaction state trail memory onward =
      { outcome := .ok (.action action), trail, memory := reaction.tag .accept state memory } := by
  simp only [arrive, final]

theorem arrive_open (unfinished : tables.final? state = none)
    (onward : Trail → μ → Progress μ) :
    tables.arrive reaction state trail memory onward =
      onward (trail.note (tables.bookmark? state)) (tables.tagged reaction state memory) := by
  simp only [arrive, unfinished]

theorem proceed_final {action : ActionId} (final : tables.final? state = some action)
    (signals : List Signal) :
    tables.proceed reaction signals state trail memory =
      { outcome := .ok (.action action), trail, memory := reaction.tag .accept state memory } := by
  cases signals with
  | nil => exact arrive_final final _
  | cons signal rest => cases signal <;> exact arrive_final final _

section

variable (unfinished : tables.final? state = none)

include unfinished

theorem proceed_nil :
    tables.proceed reaction [] state trail memory =
      { outcome := .ok (.refill state)
        trail := trail.note (tables.bookmark? state)
        memory := tables.tagged reaction state memory } :=
  arrive_open unfinished _

theorem proceed_pause (rest : List Signal) :
    tables.proceed reaction (.pause :: rest) state trail memory =
      tables.proceed reaction rest state (trail.note (tables.bookmark? state))
        (tables.tagged reaction state memory) :=
  arrive_open unfinished _

theorem proceed_stuck {symbol : Symbol} (stuck : tables.successor? state symbol = none)
    (rest : List Signal) :
    tables.proceed reaction (.symbol symbol :: rest) state trail memory =
      ((trail.note (tables.bookmark? state)).read symbol).deadEnd
        (tables.tagged reaction state memory) := by
  rw [proceed, arrive_open unfinished, stuck]

theorem proceed_move {symbol : Symbol} {target : Nat}
    (leads : tables.successor? state symbol = some target) (rest : List Signal) :
    tables.proceed reaction (.symbol symbol :: rest) state trail memory =
      tables.proceed reaction rest target ((trail.note (tables.bookmark? state)).pass symbol)
        (reaction.move state symbol (trail.curr + symbol.width)
          (tables.tagged reaction state memory)) := by
  rw [proceed, arrive_open unfinished, leads]
  simp only [Trail.read_curr, Trail.note_curr]

end

theorem enter_final {observer : Observer μ} {pending : Nat} {window : Window}
    {action : ActionId} (final : tables.final? state = some action) :
    tables.enter observer pending state window memory =
      (observer.tag .accept state memory >>= fun memory =>
        .ok { outcome := .ok (.action action), window, memory }) := by
  unfold final? at final
  cases base : tables.base state with
  | error fault =>
    rw [base] at final
    cases final
  | ok base' =>
    rw [base] at final
    change finalAction? base' = some action at final
    unfold finalAction? at final
    split at final
    · rename_i negative
      cases final
      unfold enter
      rw [base, ok_bind, if_pos negative]
      rfl
    · cases final

theorem next_bind {β : Type} (valid : tables.Valid) (inside : state < tables.states)
    (unfinished : tables.final? state = none) (symbol : Symbol) (stuck : Except Fault β)
    (onward : Nat → Except Fault β) :
    (tables.next state (tables.parts.base.getD state 0) symbol.column >>= fun target =>
      if target < 0 then stuck else onward target.toInt.toNat) =
      match tables.successor? state symbol with
      | none => stuck
      | some target => onward target := by
  obtain ⟨target, found, value⟩ := valid.next_eq inside unfinished symbol
  rw [found, ok_bind, ← value]
  cases read : entryValue? target with
  | none => rw [if_pos (entryValue?_eq_none_iff.mp read)]
  | some number =>
    -- A target that is a number is that number, and any other is negative.
    have nonneg : ¬ target < 0 := by
      rw [← entryValue?_eq_none_iff, read]
      exact Option.some_ne_none number
    rw [entryValue?_eq_some_iff] at read
    have same : target.toInt.toNat = number := by omega
    rw [if_neg nonneg, same]

theorem enter_unfinished {observer : Observer μ} (valid : tables.Valid)
    (inside : state < tables.states) (unfinished : tables.final? state = none) (pending : Nat)
    (window : Window) :
    tables.enter observer pending state window memory =
      ((if (tables.bookmark? state).isSome then observer.tag .backtrack state memory
          else .ok memory) >>= fun memory =>
        let window := window.withTrail (window.trail.note (tables.bookmark? state))
        match pending with
        | 0 => .ok { outcome := .ok (.refill state), window, memory }
        | pending + 1 =>
          let symbol := window.next
          let window := window.advance symbol
          match tables.successor? state symbol with
          | none => .ok (window.deadEnd memory)
          | some target =>
            observer.move state symbol.column window.curr memory >>=
              tables.enter observer pending target (window.reopen symbol)) := by
  have row := Valid.row_of_open inside unfinished
  have noted : (if 0 ≤ tables.parts.backtrack.getD state 0 then
      window.bookmark (tables.parts.backtrack.getD state 0).toInt.toNat else window) =
        window.withTrail (window.trail.note (tables.bookmark? state)) := by
    rw [valid.bookmark?_eq inside]
    by_cases marked : 0 ≤ tables.parts.backtrack.getD state 0
    · rw [if_pos marked, entryValue?_of_nonneg marked]
      rfl
    · rw [if_neg marked, entryValue?_eq_none_iff.mpr (Int16.not_le.mp marked)]
      rfl
  unfold enter
  rw [Valid.base_eq inside, ok_bind, if_neg (Int16.not_lt.mpr row), valid.backtrack_eq inside,
    ok_bind]
  refine (apply_ite (· >>= _) _ _ _).symm.trans ?_
  simp only [noted, valid.bookmark?_isSome_iff inside]
  congr 1
  funext memory
  cases pending with
  | zero => rfl
  | succ pending =>
    let marked := window.withTrail (window.trail.note (tables.bookmark? state))
    exact next_bind valid inside unfinished marked.next
      (.ok ((marked.advance marked.next).deadEnd memory))
      fun target =>
        observer.move state marked.next.column (marked.advance marked.next).curr memory >>=
          tables.enter observer pending target ((marked.advance marked.next).reopen marked.next)

theorem tag_point {observer : Observer μ} {ready : μ → Prop}
    (follows : observer.Follows tables reaction ready) (inside : state < tables.states)
    (holds : ready memory) :
    (if (tables.bookmark? state).isSome then observer.tag .backtrack state memory
      else .ok memory) = .ok (tables.tagged reaction state memory) := by
  unfold tagged
  split
  · exact (follows.tag .backtrack state memory inside holds).1
  · rfl

theorem tag_bind {β : Type} {observer : Observer μ} {ready : μ → Prop} (valid : tables.Valid)
    (follows : observer.Follows tables reaction ready) (inside : state < tables.states)
    (holds : ready memory) (onward : μ → Except Fault β) :
    (if 0 ≤ tables.parts.backtrack.getD state 0 then
        observer.tag .backtrack state memory >>= onward
      else Except.ok memory >>= onward) = onward (tables.tagged reaction state memory) := by
  simp only [← valid.bookmark?_isSome_iff inside]
  rw [← apply_ite (· >>= onward), tag_point follows inside holds, ok_bind]

theorem enter_open {observer : Observer μ} {ready : μ → Prop} (valid : tables.Valid)
    (follows : observer.Follows tables reaction ready) (inside : state < tables.states)
    (unfinished : tables.final? state = none) (holds : ready memory) (pending : Nat)
    (window : Window) :
    tables.enter observer pending state window memory =
      let window := window.withTrail (window.trail.note (tables.bookmark? state))
      let memory := tables.tagged reaction state memory
      match pending with
      | 0 => .ok { outcome := .ok (.refill state), window, memory }
      | pending + 1 =>
        let symbol := window.next
        let window := window.advance symbol
        match tables.successor? state symbol with
        | none => .ok (window.deadEnd memory)
        | some target =>
          observer.move state symbol.column window.curr memory >>=
            tables.enter observer pending target (window.reopen symbol) := by
  rw [enter_unfinished valid inside unfinished, tag_point follows inside holds, ok_bind]

theorem tagged_keeps {kept : μ → Prop}
    (tag : kept memory → kept (reaction.tag .backtrack state memory)) (holds : kept memory) :
    kept (tables.tagged reaction state memory) := by
  unfold tagged
  split
  · exact tag holds
  · exact holds

theorem tagged_ready {observer : Observer μ} {ready : μ → Prop}
    (follows : observer.Follows tables reaction ready) (inside : state < tables.states)
    (holds : ready memory) : ready (tables.tagged reaction state memory) :=
  tagged_keeps (fun holds => (follows.tag .backtrack state memory inside holds).2) holds

/-- One call is an attempt without pauses on the unread symbols. It suspends only when it has read
all of them. -/
theorem enter_eq {observer : Observer μ} {ready : μ → Prop} (valid : tables.Valid)
    (follows : observer.Follows tables reaction ready) (symbols : List Symbol)
    (inside : state < tables.states) (holds : ready memory) {window : Window}
    (ahead : window.unread = symbols) {progress : Progress μ}
    (made : tables.proceed reaction (symbols.map .symbol) state window.trail memory = progress) :
    tables.enter observer symbols.length state window memory = .ok (progress.result window) ∧
      ready progress.memory ∧
      ∀ stopped, progress.outcome = .ok (.refill stopped) →
        (window.withTrail progress.trail).unread = [] := by
  -- The unread symbols are what a call has for fuel: each of them is read at most once.
  induction symbols generalizing state window memory with
  | nil =>
    cases final : tables.final? state with
    | some action =>
      rw [List.map_nil, proceed_final final] at made
      obtain ⟨tagged, kept⟩ := follows.tag .accept state memory inside holds
      rw [enter_final final, tagged, ← made]
      exact ⟨rfl, kept, nofun⟩
    | none =>
      rw [List.map_nil, proceed_nil final] at made
      rw [List.length_nil, enter_open valid follows inside final holds, ← made]
      refine ⟨rfl, tagged_ready follows inside holds, ?_⟩
      intro stopped _
      exact (window.unread_note _).trans ahead
  | cons symbol rest ih =>
    cases final : tables.final? state with
    | some action =>
      rw [proceed_final final] at made
      obtain ⟨tagged, kept⟩ := follows.tag .accept state memory inside holds
      rw [enter_final final, tagged, ← made]
      exact ⟨rfl, kept, nofun⟩
    | none =>
      have prepared := tagged_ready follows inside holds
      -- Taking the bookmark leaves the unread symbols alone, so the next one is the head.
      obtain ⟨found, moved, left⟩ :=
        Window.unread_cons ((window.unread_note (tables.bookmark? state)).trans ahead)
      have entered := enter_open valid follows inside final holds (rest.length + 1) window
      simp only [found, moved] at entered
      rw [List.map_cons] at made
      cases leads : tables.successor? state symbol with
      | none =>
        rw [proceed_stuck final leads] at made
        rw [List.length_cons, entered, leads, ← made]
        refine ⟨?_, prepared, ?_⟩
        · rfl
        · intro stopped refilled
          exact absurd refilled (Trail.deadEnd_ne_refill _ _ stopped)
      | some target =>
        rw [proceed_move final leads] at made
        have known := valid.successor?_lt inside final leads
        obtain ⟨done, kept⟩ := follows.move state symbol (window.curr + symbol.width) _ inside
          final prepared
        have cursor : ((window.trail.note (tables.bookmark? state)).read symbol).curr =
            window.curr + symbol.width := by
          rw [Trail.read_curr, Trail.note_curr]
          rfl
        obtain ⟨onward, kept', dry⟩ := ih known kept left made
        rw [List.length_cons, entered, leads]
        refine ⟨?_, kept', dry⟩
        change observer.move state symbol.column
          ((window.trail.note (tables.bookmark? state)).read symbol).curr _ >>= _ = _
        rw [cursor, done, ok_bind, Window.withTrail_withTrail, Window.reopen_withTrail]
        exact onward

/-- Preparing a memory twice is preparing it once, so a call may as well start on a ready one. -/
theorem run_prepare {observer : Observer μ} {ready : μ → Prop}
    (follows : observer.Follows tables reaction ready) (entry : Entry)
    (inside : entry.state < tables.states) (window : Window) (memory : μ) :
    tables.run observer entry window memory =
      tables.run observer entry window (observer.prepare memory) := by
  unfold run
  rw [if_pos inside, if_pos inside, follows.unchanged _ (follows.prepared memory)]

theorem run_eq {observer : Observer μ} {ready : μ → Prop} {window : Window}
    {progress : Progress μ} (valid : tables.Valid)
    (follows : observer.Follows tables reaction ready) (entry : Entry)
    (inside : entry.state < tables.states) (holds : ready memory)
    (made : tables.proceed reaction (window.unread.map .symbol) entry.state
      (entry.begun window).trail memory = progress) :
    tables.run observer entry window memory = .ok (progress.result (entry.begun window)) ∧
      ready progress.memory ∧
      ∀ stopped, progress.outcome = .ok (.refill stopped) →
        ((entry.begun window).withTrail progress.trail).unread = [] := by
  have same : (entry.begun window).unread = window.unread := by
    cases entry <;> rfl
  have entered := enter_eq valid follows window.unread inside holds same made
  have count : window.unread.length = (entry.begun window).pending := by
    rw [← same, Window.length_unread]
  rw [count] at entered
  unfold run
  rw [if_pos inside, follows.unchanged memory holds]
  cases entry <;> exact entered

end Tables

end TableLexer
