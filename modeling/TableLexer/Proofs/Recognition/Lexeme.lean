import TableLexer.Proofs.Recognition.LongestMatch
import TableLexer.Proofs.Recognition.Verdict

/-! Words and their actions. Tables report an action for a word when it leads to a state that
accepts or is a backtrack point. Where no state moves on the end of the input, the verdict on any
bytes is their longest prefix with an action, and they are stuck when no prefix has one. -/

set_option autoImplicit false

namespace TableLexer

/-- A word is the longest prefix of the bytes that has a label. -/
structure Longest {α : Type} (labels : List UInt8 → α → Prop) (bytes word : List UInt8)
    (label : α) : Prop where
  within : word <+: bytes
  labelled : labels word label
  longest : ∀ {other : List UInt8} {label' : α}, other <+: bytes → labels other label' →
    other.length ≤ word.length

namespace Longest

variable {α : Type} {labels : List UInt8 → α → Prop} {bytes word word' : List UInt8}
  {label label' : α}

theorem word_unique (first : Longest labels bytes word label)
    (second : Longest labels bytes word' label') : word = word' := by
  have lengths : word.length = word'.length :=
    Nat.le_antisymm (second.longest first.within first.labelled)
      (first.longest second.within second.labelled)
  exact (List.prefix_of_prefix_length_le first.within second.within
    (Nat.le_of_eq lengths)).eq_of_length lengths

theorem not_longer (longest : Longest labels bytes word label) {rest more : List UInt8}
    (shape : bytes = word ++ rest) (within : more <+: rest)
    (labelled : labels (word ++ more) label') : more = [] := by
  have bound := longest.longest (shape ▸ (List.prefix_append_right_inj word).mpr within) labelled
  rw [List.length_append] at bound
  exact List.eq_nil_of_length_eq_zero (by omega)

end Longest

theorem Symbol.input_proper {bytes : List UInt8} {read rest : List Symbol}
    (shape : input bytes 1 = read ++ .endOfInput :: rest) : .endOfInput ∉ read := by
  intro early
  have front := congrArg List.dropLast shape
  rw [input, List.replicate_one, List.dropLast_concat,
    List.dropLast_append_of_ne_nil (List.cons_ne_nil _ _)] at front
  have member : Symbol.endOfInput ∈ bytes.map Symbol.byte :=
    front ▸ List.mem_append_left _ early
  simp at member

theorem Verdict.Describes.eq_lexeme {verdict : Verdict} {progress : Progress Unit}
    {action : ActionId} (described : verdict.Describes 0 progress)
    (outcome : progress.outcome = .ok (.action action)) :
    verdict = .lexeme action progress.trail.curr := by
  cases verdict with
  | lexeme action' length =>
    obtain ⟨outcome', place⟩ := described
    rw [outcome] at outcome'
    cases outcome'
    rw [place, Nat.zero_add]
  | stuck => cases outcome.symm.trans described
  | endless =>
    obtain ⟨stopped, outcome'⟩ := described
    cases outcome.symm.trans outcome'

theorem Verdict.Describes.eq_stuck {verdict : Verdict} {progress : Progress Unit}
    (described : verdict.Describes 0 progress) {error : LexError}
    (outcome : progress.outcome = .error error) : verdict = .stuck := by
  cases verdict with
  | lexeme action length => cases outcome.symm.trans described.1
  | stuck => rfl
  | endless =>
    obtain ⟨stopped, outcome'⟩ := described
    cases outcome.symm.trans outcome'

namespace Tables

variable {tables : Tables} {start state target : Nat} {symbol : Symbol}
  {read rest other : List Symbol} {bytes word : List UInt8} {action : ActionId}

theorem path_append_iff {first : List Symbol} :
    tables.Path start (first ++ rest) target ↔
      ∃ middle, tables.Path start first middle ∧ tables.Path middle rest target := by
  constructor
  · intro path
    induction first generalizing start with
    | nil => exact ⟨start, .here, path⟩
    | cons symbol others ih =>
      cases path with
      | step unfinished leads onward =>
        obtain ⟨middle, before, after⟩ := ih onward
        exact ⟨middle, .step unfinished leads before, after⟩
  · rintro ⟨middle, before, after⟩
    induction before with
    | here => exact after
    | step unfinished leads _ ih => exact .step unfinished leads (ih after)

theorem Path.unique {target' : Nat} (path : tables.Path start read target)
    (path' : tables.Path start read target') : target = target' := by
  induction path with
  | here => exact path_nil_iff.mp path'
  | step unfinished leads _ ih => exact ih ((path_cons_iff unfinished leads).mp path')

theorem Path.goes_on (path : tables.Path start read state)
    (longer : tables.Path start (read ++ symbol :: rest) target) :
    tables.final? state = none ∧ (tables.successor? state symbol).isSome := by
  obtain ⟨middle, before, after⟩ := path_append_iff.mp longer
  rw [path.unique before]
  cases after with
  | step unfinished leads _ => exact ⟨unfinished, leads ▸ rfl⟩

theorem Path.open_within (path : tables.Path start read target)
    (unfinished : tables.final? target = none) (within : other <+: read)
    (path' : tables.Path start other state) : tables.final? state = none := by
  obtain ⟨rest, rfl⟩ := within
  cases rest with
  | nil =>
    rw [List.append_nil] at path
    rw [path'.unique path]
    exact unfinished
  | cons symbol rest => exact (path'.goes_on path).1

theorem Path.within_stuck (path : tables.Path start read state)
    (stuck : tables.successor? state symbol = none) (path' : tables.Path start other target)
    (within : other <+: read ++ symbol :: rest) : other <+: read := by
  rcases List.prefix_or_prefix_of_prefix within (List.prefix_append read (symbol :: rest)) with
    shorter | ⟨tail, rfl⟩
  · exact shorter
  · cases tail with
    | nil => rw [List.append_nil]
    | cons next tail =>
      have same : next = symbol :=
        (List.cons_prefix_cons.mp ((List.prefix_append_right_inj read).mp within)).1
      have moves := (path.goes_on path').2
      rw [same, stuck] at moves
      cases moves

def Closed (tables : Tables) : Prop :=
  ∀ state, tables.final? state = none → tables.successor? state .endOfInput = none

theorem Path.no_end (closed : tables.Closed) (path : tables.Path start read target) :
    .endOfInput ∉ read := by
  induction path with
  | here => exact List.not_mem_nil
  | @step state next target symbol rest unfinished leads _ ih =>
    rw [List.mem_cons, not_or]
    refine ⟨?_, ih⟩
    rintro rfl
    rw [closed state unfinished] at leads
    cases leads

theorem Path.reads_word (closed : tables.Closed) (path : tables.Path start read target)
    (within : read <+: Symbol.input bytes 1) : ∃ word, word <+: bytes ∧ read = word.map .byte := by
  rw [Symbol.input, List.replicate_one, List.prefix_concat_iff] at within
  rcases within with whole | within
  · exact absurd (whole ▸ List.mem_append_right _ List.mem_cons_self) (path.no_end closed)
  · refine ⟨bytes.take read.length, List.take_prefix _ _, ?_⟩
    rw [List.map_take]
    exact List.prefix_iff_eq_take.mp within

/-- The action of a state, at once or to fall back to. -/
def report? (tables : Tables) (state : Nat) : Option ActionId :=
  (tables.final? state).or (tables.bookmark? state)

def Reports (tables : Tables) (word : List UInt8) (action : ActionId) : Prop :=
  ∃ state, tables.Path 0 (word.map .byte) state ∧ tables.report? state = some action

theorem input_prefix (within : word <+: bytes) : word.map .byte <+: Symbol.input bytes 1 :=
  (within.map Symbol.byte).trans (List.prefix_append _ _)

theorem longest_of_final (path : tables.Path 0 (word.map .byte) state)
    (final : tables.final? state = some action) (within : word <+: bytes) :
    Longest tables.Reports bytes word action := by
  refine ⟨within, ⟨state, path, by rw [report?, final]; rfl⟩, ?_⟩
  rintro other _ within' ⟨_, path', _⟩
  by_contra longer
  -- A longer word would have to leave the accepting state.
  obtain ⟨tail, rfl⟩ :=
    List.prefix_of_prefix_length_le within within' (Nat.le_of_lt (Nat.not_le.mp longer))
  cases tail with
  | nil => simp at longer
  | cons byte tail =>
    rw [List.map_append, List.map_cons] at path'
    rw [(path.goes_on path').1] at final
    cases final

section

variable (path : tables.Path 0 read state) (unfinished : tables.final? state = none)
  (stuck : tables.successor? state symbol = none)
  (shape : Symbol.input bytes 1 = read ++ symbol :: rest)

include path unfinished stuck shape

/-- Every word with an action ends at a mark of the path that is stuck. -/
theorem marked_of_reports {other : List UInt8} {action' : ActionId} (within : other <+: bytes)
    (reports : tables.Reports other action') :
    other.map .byte <+: read ∧ tables.Marked 0 (other.map .byte) action' := by
  obtain ⟨reached, path', report⟩ := reports
  have inside : other.map .byte <+: read :=
    path.within_stuck stuck path' (shape ▸ input_prefix within)
  refine ⟨inside, reached, path', ?_⟩
  rw [report?, path.open_within unfinished inside path'] at report
  exact report

theorem longest_of_lastMark {taken : List Symbol} (last : tables.LastMark 0 read taken action)
    (closed : tables.Closed) :
    ∃ word, Longest tables.Reports bytes word action ∧ taken = word.map .byte := by
  obtain ⟨marked, path', mark⟩ := last.marked
  have within : taken <+: Symbol.input bytes 1 :=
    last.within.trans (shape ▸ List.prefix_append _ _)
  obtain ⟨word, inside, rfl⟩ := path'.reads_word closed within
  refine ⟨word, ⟨inside, ⟨marked, path', ?_⟩, ?_⟩, rfl⟩
  · rw [report?, path.open_within unfinished last.within path', mark]
    rfl
  · intro other action' within' reports
    obtain ⟨within'', marked'⟩ := marked_of_reports path unfinished stuck shape within' reports
    have shorter := (last.latest within'' marked').length_le
    rwa [List.length_map, List.length_map] at shorter

end

theorem verdict_of_ends (valid : tables.Valid) {outcome : Except LexError Step}
    {taken : List Symbol} (ends : tables.Ends 0 0 (Symbol.input bytes 1) outcome taken read)
    (decided : ∀ stopped, outcome ≠ .ok (.refill stopped)) :
    ∃ progress : Progress Unit, (tables.verdict bytes).Describes 0 progress ∧
      progress.outcome = outcome ∧ progress.trail.curr = Symbol.room taken := by
  obtain ⟨came, place, _⟩ :=
    proceed_ends true () (fun shape => ⟨rfl, Symbol.input_proper shape⟩) ends
  rw [Nat.zero_add] at place
  have decided' : ∀ stopped, (tables.proceed .silent ((Symbol.input bytes 1).map .symbol) 0
      (.start 0 true) ()).outcome ≠ .ok (.refill stopped) := by
    rw [came]
    exact decided
  refine ⟨_, ?_, came, place⟩
  have longer : Symbol.input bytes tables.states = Symbol.input bytes 1 ++
      List.replicate (tables.states - 1) .endOfInput := by
    rw [Symbol.input, Symbol.input, List.append_assoc, List.replicate_append_replicate,
      Nat.add_sub_cancel' valid.states_pos]
  have described := verdict_describes valid .silent
    (Signal.symbols_map (Symbol.input bytes tables.states)) (Nat.le_refl _) 0 true ()
  rw [longer, List.map_append, proceed_append_decided _ _ _ _ _ decided'] at described
  exact described

/-- The verdict is the longest word with an action, or that there is no such word. -/
theorem verdict_longest (valid : tables.Valid) (closed : tables.Closed) (bytes : List UInt8) :
    (∃ word action, Longest tables.Reports bytes word action ∧
      tables.verdict bytes = .lexeme action word.length) ∨
    (∀ word action, word <+: bytes → ¬ tables.Reports word action) ∧
      tables.verdict bytes = .stuck := by
  obtain ⟨outcome, taken, read, ends⟩ := tables.ends_total 0 0 (Symbol.input bytes 1)
  have room (word : List UInt8) : Symbol.room (word.map .byte) = word.length := by
    have plain := Symbol.room_input word 0
    rwa [Symbol.input, List.replicate_zero, List.append_nil] at plain
  cases ends with
  | @accepts read rest state action shape path final =>
    obtain ⟨word, within, rfl⟩ := path.reads_word closed (shape ▸ List.prefix_append _ _)
    obtain ⟨progress, described, came, place⟩ :=
      verdict_of_ends valid (.accepts shape path final) (by simp)
    refine .inl ⟨word, action, longest_of_final path final within, ?_⟩
    rw [described.eq_lexeme came, place, room]
  | @backsUp read rest taken symbol state action shape path unfinished stuck last =>
    obtain ⟨word, longest, rfl⟩ := longest_of_lastMark path unfinished stuck shape last closed
    obtain ⟨progress, described, came, place⟩ :=
      verdict_of_ends valid (.backsUp shape path unfinished stuck last) (by simp)
    refine .inl ⟨word, action, longest, ?_⟩
    rw [described.eq_lexeme came, place, room]
  | @fails read rest symbol state shape path unfinished stuck none =>
    obtain ⟨progress, described, came, place⟩ :=
      verdict_of_ends valid (.fails shape path unfinished stuck none) (by simp)
    refine .inr ⟨?_, described.eq_stuck came⟩
    intro word action within reports
    obtain ⟨inside, marked⟩ := marked_of_reports path unfinished stuck shape within reports
    exact none _ _ inside marked
  | @suspends state path unfinished =>
    -- Without moves on the end of the input no path reads the whole of it.
    exact absurd (List.mem_append_right _ List.mem_cons_self) (path.no_end closed)

end Tables

end TableLexer
