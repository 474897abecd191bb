import TableLexer.Proofs.Automaton.Build
import TableLexer.Proofs.Recognition.Suspension

/-! What an attempt reads in the tables of an automaton: actions, successors and the effect of
programs, as they were drawn up. The empty program has no effect, so it does not matter that none is
run for it. -/

set_option autoImplicit false

namespace TableLexer

theorem applyProgram_nonempty (program : Program) (mark : Cell) (cells : Array Cell) :
    applyProgram program.nonempty? mark cells = program.apply mark cells := by
  unfold Program.nonempty?
  split
  · rename_i empty
    subst empty
    rfl
  · rfl

def State.move? (spec : State) (symbol : Symbol) : Option Move :=
  spec.moves.get ⟨symbol.column, symbol.column_lt⟩

namespace Tables.Mirrors

variable {tables : Tables} {state : Nat} {spec : State}

theorem final?_eq (mirrors : tables.Mirrors state spec) :
    tables.final? state = spec.accept.map Tagged.action := by
  obtain ⟨base, found, action⟩ := mirrors.base
  rw [final?, found]
  exact action

theorem bookmark?_eq (mirrors : tables.Mirrors state spec) :
    tables.bookmark? state = spec.backtrack.map Tagged.action := by
  obtain ⟨entry, found, action⟩ := mirrors.backtrack
  rw [bookmark?, found]
  exact action

theorem successor?_eq (mirrors : tables.Mirrors state spec) (unfinished : spec.accept = none)
    (symbol : Symbol) :
    tables.successor? state symbol = (spec.move? symbol).map Move.target := by
  obtain ⟨base, target, based, found, value⟩ :=
    mirrors.next unfinished symbol.column symbol.column_lt
  simp only [successor?, based]
  change (tables.next state base symbol.column).toOption.bind entryValue? = _
  rw [found]
  exact value

end Tables.Mirrors

namespace CaptureTables.Mirrors

variable {captures : CaptureTables} {state : Nat} {spec : State} {tagged : Tagged}

theorem accept_eq (mirrors : captures.Mirrors state spec) (accepts : spec.accept = some tagged)
    (cells : Array Cell) :
    captures.reaction.tag .accept state cells = tagged.tag.apply none cells := by
  change applyProgram (captures.tag? .accept state) none cells = _
  rw [tag?, mirrors.accept tagged accepts, ← applyProgram_nonempty]
  rfl

theorem backtrack_eq (mirrors : captures.Mirrors state spec)
    (marks : spec.backtrack = some tagged) (cells : Array Cell) :
    captures.reaction.tag .backtrack state cells = tagged.tag.apply none cells := by
  change applyProgram (captures.tag? .backtrack state) none cells = _
  rw [tag?, mirrors.backtrack tagged marks, ← applyProgram_nonempty]
  rfl

theorem tagged_eq (mirrors : captures.Mirrors state spec) {tables : Tables}
    (recognizes : tables.Mirrors state spec) (cells : Array Cell) :
    tables.tagged captures.reaction state cells =
      spec.backtrack.elim cells fun tagged => tagged.tag.apply none cells := by
  rw [Tables.tagged, recognizes.bookmark?_eq]
  cases marks : spec.backtrack with
  | none => rfl
  | some tagged => exact mirrors.backtrack_eq marks cells

theorem move_eq (mirrors : captures.Mirrors state spec) (unfinished : spec.accept = none)
    {symbol : Symbol} {move : Move} (moved : spec.move? symbol = some move) (position : Nat)
    (cells : Array Cell) :
    captures.reaction.move state symbol position cells =
      move.record.apply (some position) cells := by
  change applyProgram (captures.record? state symbol) (some position) cells = _
  rw [record?, mirrors.move unfinished symbol.column symbol.column_lt move moved,
    ← applyProgram_nonempty]
  rfl

end CaptureTables.Mirrors

/-- Tags settle when none of the automaton reads a cell that it writes. -/
theorem Tables.Represent.tagsSettle {tables : Tables} {automaton : Automaton}
    (represent : tables.Represent automaton) (valid : tables.Valid) {captures : CaptureTables}
    (carried : tables.captures = some captures)
    (apart : ∀ spec ∈ automaton.states, ∀ tagged, spec.backtrack = some tagged →
      tagged.tag.Apart) : tables.TagsSettle captures.reaction := by
  intro state cells
  cases listed : automaton.states[state]? with
  | none =>
    -- A number that is no state has no backtrack point either.
    have outside : tables.bookmark? state = none := by
      have missed : ¬ state < tables.parts.backtrack.size := by
        rw [valid.plain.backtrack_size, Nat.not_lt]
        exact Nat.le_trans (Nat.le_of_eq represent.states_eq) (Array.getElem?_eq_none_iff.mp listed)
      simp only [bookmark?, backtrack, fetch, dif_neg missed]
      rfl
    simp only [tagged, outside, Option.isSome_none, Bool.false_eq_true, if_false]
  | some spec =>
    have mirrors := represent.captures captures carried state spec listed
    have recognizes := represent.states state spec listed
    rw [mirrors.tagged_eq recognizes, mirrors.tagged_eq recognizes]
    cases marks : spec.backtrack with
    | none => rfl
    | some tagged =>
      exact Program.apply_apply (apart spec (Array.mem_of_getElem? listed) tagged marks) none cells

end TableLexer
