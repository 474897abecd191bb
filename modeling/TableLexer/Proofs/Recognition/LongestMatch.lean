import TableLexer.Proofs.Recognition.Progress

/-! Longest match. The unread symbols lead along a path of states. A fresh call ends in the first
accepting state of the path. If the path cannot go on before that, the call falls back to the last
backtrack point on it, and if the symbols run out, the call suspends in the last state. -/

set_option autoImplicit false

namespace TableLexer

variable {μ : Type}

namespace Tables

/-- Reading `symbols` leads from one state to another, through states that do not accept. -/
inductive Path (tables : Tables) : Nat → List Symbol → Nat → Prop where
  | here {state : Nat} : Path tables state [] state
  | step {state next target : Nat} {symbol : Symbol} {rest : List Symbol} :
      tables.final? state = none → tables.successor? state symbol = some next →
      Path tables next rest target → Path tables state (symbol :: rest) target

def Marked (tables : Tables) (start : Nat) (read : List Symbol) (action : ActionId) : Prop :=
  ∃ state, tables.Path start read state ∧ tables.bookmark? state = some action

structure LastMark (tables : Tables) (start : Nat) (read taken : List Symbol)
    (action : ActionId) : Prop where
  within : taken <+: read
  marked : tables.Marked start taken action
  latest : ∀ {other : List Symbol} {action' : ActionId}, other <+: read →
    tables.Marked start other action' → other <+: taken

def Unmarked (tables : Tables) (start : Nat) (read : List Symbol) : Prop :=
  ∀ (taken : List Symbol) (action : ActionId), taken <+: read → ¬ tables.Marked start taken action

/-- What an attempt comes to that begins at `origin`: its outcome, the symbols that it consumes,
and the symbols that it reads with success. -/
inductive Ends (tables : Tables) (start origin : Nat) (symbols : List Symbol) :
    Except LexError Step → List Symbol → List Symbol → Prop where
  | accepts {read rest : List Symbol} {state : Nat} {action : ActionId} :
      symbols = read ++ rest → tables.Path start read state →
      tables.final? state = some action →
      Ends tables start origin symbols (.ok (.action action)) read read
  | backsUp {read rest taken : List Symbol} {symbol : Symbol} {state : Nat} {action : ActionId} :
      symbols = read ++ symbol :: rest → tables.Path start read state →
      tables.final? state = none → tables.successor? state symbol = none →
      tables.LastMark start read taken action →
      Ends tables start origin symbols (.ok (.action action)) taken read
  | fails {read rest : List Symbol} {symbol : Symbol} {state : Nat} :
      symbols = read ++ symbol :: rest → tables.Path start read state →
      tables.final? state = none → tables.successor? state symbol = none →
      tables.Unmarked start read →
      Ends tables start origin symbols (.error (.emptyToken origin)) [] read
  | suspends {state : Nat} :
      tables.Path start symbols state → tables.final? state = none →
      Ends tables start origin symbols (.ok (.refill state)) symbols symbols

variable {tables : Tables} {start state next target : Nat} {symbol : Symbol}
  {read rest taken symbols : List Symbol} {action : ActionId}

theorem path_nil_iff : tables.Path state [] target ↔ state = target := by
  constructor
  · rintro ⟨⟩
    rfl
  · rintro rfl
    exact .here

theorem path_cons_iff (unfinished : tables.final? state = none)
    (leads : tables.successor? state symbol = some next) :
    tables.Path state (symbol :: rest) target ↔ tables.Path next rest target := by
  constructor
  · intro path
    cases path with
    | step _ leads' onward =>
      rw [leads] at leads'
      cases leads'
      exact onward
  · exact .step unfinished leads

theorem marked_nil_iff : tables.Marked start [] action ↔ tables.bookmark? start = some action := by
  simp only [Marked, path_nil_iff, exists_eq_left']

theorem marked_cons_iff (unfinished : tables.final? state = none)
    (leads : tables.successor? state symbol = some next) :
    tables.Marked state (symbol :: taken) action ↔ tables.Marked next taken action := by
  simp only [Marked, path_cons_iff unfinished leads]

theorem unmarked_nil_iff : tables.Unmarked start [] ↔ tables.bookmark? start = none := by
  simp only [Unmarked, List.prefix_nil, Option.eq_none_iff_forall_ne_some]
  constructor
  · intro none action marked
    exact none [] action rfl (marked_nil_iff.mpr marked)
  · rintro none taken action rfl marked
    exact none action (marked_nil_iff.mp marked)

theorem unmarked_cons_iff (unfinished : tables.final? state = none)
    (leads : tables.successor? state symbol = some next) :
    tables.Unmarked state (symbol :: read) ↔
      tables.bookmark? state = none ∧ tables.Unmarked next read := by
  constructor
  · intro none
    constructor
    · rw [← unmarked_nil_iff]
      intro taken action within
      exact none taken action (within.trans (List.nil_prefix))
    · intro taken action within marked
      exact none (symbol :: taken) action (List.prefix_cons_inj symbol |>.mpr within)
        ((marked_cons_iff unfinished leads).mpr marked)
  · rintro ⟨here, onward⟩ taken action within marked
    cases taken with
    | nil =>
      rw [marked_nil_iff, here] at marked
      cases marked
    | cons first taken =>
      obtain ⟨rfl, inner⟩ := List.cons_prefix_cons.mp within
      exact onward taken action inner ((marked_cons_iff unfinished leads).mp marked)

theorem lastMark_nil_iff :
    tables.LastMark start [] taken action ↔ taken = [] ∧ tables.bookmark? start = some action := by
  constructor
  · rintro ⟨within, marked, _⟩
    rw [List.prefix_nil] at within
    subst within
    exact ⟨rfl, marked_nil_iff.mp marked⟩
  · rintro ⟨rfl, mark⟩
    exact ⟨List.prefix_refl [], marked_nil_iff.mpr mark, fun within _ => within⟩

theorem lastMark_cons_iff (unfinished : tables.final? state = none)
    (leads : tables.successor? state symbol = some next) :
    tables.LastMark state (symbol :: read) taken action ↔
      (∃ rest, taken = symbol :: rest ∧ tables.LastMark next read rest action) ∨
      (taken = [] ∧ tables.bookmark? state = some action ∧ tables.Unmarked next read) := by
  constructor
  · rintro ⟨within, marked, latest⟩
    -- A mark of the longer path is the first state itself or lies on the rest of the path;
    -- the first state is the last mark when nothing on the rest is one.
    cases taken with
    | nil =>
      right
      refine ⟨rfl, marked_nil_iff.mp marked, ?_⟩
      intro other action' inner marked'
      have shorter := latest (List.cons_prefix_cons.mpr ⟨rfl, inner⟩)
        ((marked_cons_iff unfinished leads).mpr marked')
      exact List.cons_ne_nil symbol other (List.prefix_nil.mp shorter)
    | cons first taken =>
      left
      obtain ⟨rfl, inner⟩ := List.cons_prefix_cons.mp within
      refine ⟨taken, rfl, inner, (marked_cons_iff unfinished leads).mp marked, ?_⟩
      intro other action' inner' marked'
      have shorter := latest (List.cons_prefix_cons.mpr ⟨rfl, inner'⟩)
        ((marked_cons_iff unfinished leads).mpr marked')
      exact (List.cons_prefix_cons.mp shorter).2
  · rintro (⟨taken, rfl, within, marked, latest⟩ | ⟨rfl, mark, onward⟩)
    · refine ⟨List.cons_prefix_cons.mpr ⟨rfl, within⟩,
        (marked_cons_iff unfinished leads).mpr marked, ?_⟩
      intro other action' inner marked'
      cases other with
      | nil => exact List.nil_prefix
      | cons first other =>
        obtain ⟨rfl, inner'⟩ := List.cons_prefix_cons.mp inner
        exact List.cons_prefix_cons.mpr
          ⟨rfl, latest inner' ((marked_cons_iff unfinished leads).mp marked')⟩
    · refine ⟨List.nil_prefix, marked_nil_iff.mpr mark, ?_⟩
      intro other action' inner marked'
      cases other with
      | nil => exact List.nil_prefix
      | cons first other =>
        obtain ⟨rfl, inner'⟩ := List.cons_prefix_cons.mp inner
        exact absurd ((marked_cons_iff unfinished leads).mp marked') (onward other action' inner')

theorem lastMark_or_unmarked (path : tables.Path start read target) :
    (∃ taken action, tables.LastMark start read taken action) ∨ tables.Unmarked start read := by
  induction path with
  | @here state =>
    rw [unmarked_nil_iff]
    cases mark : tables.bookmark? state with
    | none => exact .inr rfl
    | some action => exact .inl ⟨[], action, lastMark_nil_iff.mpr ⟨rfl, mark⟩⟩
  | @step state next target symbol rest unfinished leads onward ih =>
    rcases ih with ⟨taken, action, last⟩ | none
    · exact .inl ⟨symbol :: taken, action,
        (lastMark_cons_iff unfinished leads).mpr (.inl ⟨taken, rfl, last⟩)⟩
    · cases mark : tables.bookmark? state with
      | none => exact .inr ((unmarked_cons_iff unfinished leads).mpr ⟨mark, none⟩)
      | some action => exact .inl ⟨[], action,
          (lastMark_cons_iff unfinished leads).mpr (.inr ⟨rfl, mark, none⟩)⟩

theorem ends_total (tables : Tables) (start origin : Nat) (symbols : List Symbol) :
    ∃ outcome taken read, tables.Ends start origin symbols outcome taken read := by
  -- Follow the path as far as it goes: it accepts, gets stuck at a symbol, or uses up all.
  have reached : (∃ read rest state action, symbols = read ++ rest ∧
        tables.Path start read state ∧ tables.final? state = some action) ∨
      (∃ read symbol rest state, symbols = read ++ symbol :: rest ∧
        tables.Path start read state ∧ tables.final? state = none ∧
        tables.successor? state symbol = none) ∨
      ∃ state, tables.Path start symbols state ∧ tables.final? state = none := by
    induction symbols generalizing start with
    | nil =>
      cases final : tables.final? start with
      | none => exact .inr (.inr ⟨start, .here, final⟩)
      | some action => exact .inl ⟨[], [], start, action, rfl, .here, final⟩
    | cons symbol rest ih =>
      cases final : tables.final? start with
      | some action => exact .inl ⟨[], symbol :: rest, start, action, rfl, .here, final⟩
      | none =>
        cases leads : tables.successor? start symbol with
        | none => exact .inr (.inl ⟨[], symbol, rest, start, rfl, .here, final, leads⟩)
        | some next =>
          rcases ih next with ⟨read, rest', state, action, rfl, path, final'⟩ |
            ⟨read, symbol', rest', state, rfl, path, open', stuck⟩ | ⟨state, path, open'⟩
          · exact .inl ⟨symbol :: read, rest', state, action, rfl, .step final leads path, final'⟩
          · exact .inr (.inl ⟨symbol :: read, symbol', rest', state, rfl,
              .step final leads path, open', stuck⟩)
          · exact .inr (.inr ⟨state, .step final leads path, open'⟩)
  rcases reached with ⟨read, rest, state, action, shape, path, final⟩ |
    ⟨read, symbol, rest, state, shape, path, unfinished, stuck⟩ | ⟨state, path, unfinished⟩
  · exact ⟨_, _, _, .accepts shape path final⟩
  · rcases lastMark_or_unmarked path with ⟨taken, action, last⟩ | none
    · exact ⟨_, _, _, .backsUp shape path unfinished stuck last⟩
    · exact ⟨_, _, _, .fails shape path unfinished stuck none⟩
  · exact ⟨_, _, _, .suspends path unfinished⟩

/-- Where a trail stands after a path: past the symbols read, with the last mark of the path as its
bookmark once the state it stands in has been noted. -/
structure Led (tables : Tables) (start : Nat) (read : List Symbol) (reached : Nat)
    (before after : Trail) : Prop where
  curr : after.curr = before.curr + Symbol.room read
  ended : after.ended = (before.ended && !read.contains .endOfInput)
  bookmark : ∀ {taken : List Symbol} {action : ActionId},
    tables.LastMark start read taken action →
      (after.note (tables.bookmark? reached)).last = before.curr + Symbol.room taken ∧
      (after.note (tables.bookmark? reached)).lastAction = some action
  unmarked : tables.Unmarked start read →
    (after.note (tables.bookmark? reached)).last = before.last ∧
    (after.note (tables.bookmark? reached)).lastAction = before.lastAction

theorem proceed_path (path : tables.Path start read target) (trail : Trail) (memory : μ)
    (rest : List Signal) :
    ∃ after, tables.Led start read target trail after ∧
      tables.proceed .silent (read.map .symbol ++ rest) start trail memory =
        tables.proceed .silent rest target after memory := by
  -- The trail is arbitrary, since the bookmark of a longer path is the one that the rest of
  -- the path was entered with unless the rest has a mark of its own.
  induction path generalizing trail with
  | @here state =>
    refine ⟨trail, ⟨rfl, (Bool.and_true _).symm, ?_, ?_⟩, rfl⟩
    · intro taken action last
      obtain ⟨rfl, mark⟩ := lastMark_nil_iff.mp last
      rw [mark]
      exact ⟨rfl, rfl⟩
    · intro none
      rw [unmarked_nil_iff.mp none]
      exact ⟨rfl, rfl⟩
  | @step state next target symbol read unfinished leads onward ih =>
    let noted := trail.note (tables.bookmark? state)
    obtain ⟨after, led, reached⟩ := ih (noted.pass symbol)
    have cursor : (noted.pass symbol).curr = trail.curr + symbol.width := by
      rw [Trail.pass_curr, Trail.note_curr]
    refine ⟨after, ⟨?_, ?_, ?_, ?_⟩, ?_⟩
    · rw [led.curr, cursor, Symbol.room_cons, Nat.add_assoc]
    · rw [led.ended, Trail.pass_ended, Trail.note_ended, List.contains_cons, Bool.not_or,
        Bool.and_assoc]
    · intro taken action last
      rcases (lastMark_cons_iff unfinished leads).mp last with
        ⟨rest, rfl, last'⟩ | ⟨rfl, mark, none⟩
      · obtain ⟨place, chosen⟩ := led.bookmark last'
        rw [place, chosen, cursor, Symbol.room_cons, Nat.add_assoc]
        exact ⟨rfl, rfl⟩
      · obtain ⟨place, chosen⟩ := led.unmarked none
        rw [place, chosen, Trail.pass_last, Trail.pass_lastAction]
        simp only [noted, mark]
        exact ⟨rfl, rfl⟩
    · intro none
      obtain ⟨plain, none'⟩ := (unmarked_cons_iff unfinished leads).mp none
      obtain ⟨place, chosen⟩ := led.unmarked none'
      rw [place, chosen, Trail.pass_last, Trail.pass_lastAction]
      simp only [noted, plain]
      exact ⟨rfl, rfl⟩
    · rw [List.map_cons, List.cons_append, proceed_move unfinished leads, tagged_silent]
      exact reached

theorem proceed_ends {origin : Nat} {outcome : Except LexError Step} (ended : Bool) (memory : μ)
    (proper : ∀ {read rest : List Symbol}, symbols = read ++ .endOfInput :: rest →
      ended = true ∧ .endOfInput ∉ read)
    (ends : tables.Ends start origin symbols outcome taken read) :
    let progress := tables.proceed .silent (symbols.map .symbol) start (.start origin ended) memory
    progress.outcome = outcome ∧ progress.trail.curr = origin + Symbol.room taken ∧
      progress.trail.ended = (ended && !read.contains .endOfInput) ∧ progress.memory = memory := by
  -- A symbol that is read without a successor leaves the flag as it is: reading the end of
  -- the input sets it, but then it was set already.
  have flag {after : Trail} {read rest : List Symbol} {symbol : Symbol}
      (shape : symbols = read ++ symbol :: rest)
      (kept : after.ended = (ended && !read.contains .endOfInput)) :
      (after.read symbol).ended = (ended && !read.contains .endOfInput) := by
    cases symbol with
    | byte value => exact kept
    | endOfInput =>
      obtain ⟨set, early⟩ := proper shape
      rw [set, List.contains_eq_mem, decide_eq_false early]
      rfl
  cases ends with
  | @accepts read rest state action shape path final =>
    obtain ⟨after, led, reached⟩ :=
      proceed_path path (.start origin ended) memory (rest.map .symbol)
    rw [shape, List.map_append, reached, proceed_final final]
    exact ⟨rfl, led.curr, led.ended, rfl⟩
  | @backsUp read rest taken symbol state action shape path unfinished stuck last =>
    obtain ⟨after, led, reached⟩ :=
      proceed_path path (.start origin ended) memory ((symbol :: rest).map .symbol)
    obtain ⟨place, chosen⟩ := led.bookmark last
    rw [shape, List.map_append, reached, List.map_cons, proceed_stuck unfinished stuck,
      Trail.deadEnd_some ((Trail.read_lastAction _ _).trans chosen), tagged_silent]
    exact ⟨rfl, (Trail.read_last _ _).trans place,
      flag shape ((Trail.note_ended _ _).trans led.ended), rfl⟩
  | @fails read rest symbol state shape path unfinished stuck none =>
    obtain ⟨after, led, reached⟩ :=
      proceed_path path (.start origin ended) memory ((symbol :: rest).map .symbol)
    obtain ⟨place, chosen⟩ := led.unmarked none
    rw [shape, List.map_append, reached, List.map_cons, proceed_stuck unfinished stuck,
      Trail.deadEnd_none ((Trail.read_lastAction _ _).trans chosen), tagged_silent, Trail.read_last,
      place]
    exact ⟨rfl, (Trail.read_last _ _).trans place,
      flag shape ((Trail.note_ended _ _).trans led.ended), rfl⟩
  | @suspends state path unfinished =>
    obtain ⟨after, led, reached⟩ := proceed_path path (.start origin ended) memory []
    rw [List.append_nil] at reached
    rw [reached, proceed_nil unfinished, tagged_silent]
    exact ⟨rfl, (Trail.note_curr _ _).trans led.curr, (Trail.note_ended _ _).trans led.ended, rfl⟩

/-- A fresh call comes to what its path determines, and to nothing else. Of the window it moves
only the trail of the attempt, which starts at the old cursor; the flag of the end of the input is
cleared when a transition on that end was taken. -/
theorem runPlain_longest_match {parts : PlainParts} {capture : Option CaptureParts}
    (accepted : Tables.ofParts parts capture = .ok tables) (inside : start < tables.states)
    (window : Window) (cells : Array Cell) :
    ∃ result, tables.runPlain (.fresh start) window cells = .ok result ∧
      result.memory = cells ∧
      result.window = window.beginAttempt.withTrail result.window.trail ∧
      result.window.start = window.curr ∧
      (∃ taken read, tables.Ends start window.curr window.unread result.outcome taken read) ∧
      ∀ outcome taken read, tables.Ends start window.curr window.unread outcome taken read →
        result.outcome = outcome ∧
        result.window.curr = window.curr + Symbol.room taken ∧
        result.window.ended = (window.ended && !read.contains .endOfInput) := by
  have valid := Tables.valid_of_ofParts accepted
  let progress := tables.proceed .silent (window.unread.map .symbol) start
    (.start window.curr window.ended) cells
  have called : tables.runPlain (.fresh start) window cells =
      .ok (progress.result window.beginAttempt) :=
    (run_eq valid (Observer.silent_follows tables) (.fresh start) inside trivial rfl).1
  have determined {outcome : Except LexError Step} {taken read : List Symbol}
      (ends : tables.Ends start window.curr window.unread outcome taken read) :=
    proceed_ends window.ended cells Window.unread_endOfInput ends
  -- Some end is reached, and every end determines the outcome, so there is no other.
  obtain ⟨outcome, taken, read, ends⟩ :=
    tables.ends_total start window.curr window.unread
  refine ⟨_, called, (determined ends).2.2.2, rfl, rfl, ⟨taken, read, ?_⟩, ?_⟩
  · have same : progress.outcome = outcome := (determined ends).1
    change tables.Ends start window.curr window.unread progress.outcome taken read
    rw [same]
    exact ends
  · intro outcome' taken' read' ends'
    obtain ⟨same, place, flag, _⟩ := determined ends'
    exact ⟨same, place, flag⟩

/-- On abc the chain cannot go on after ab and falls back to a, with the flag still set. -/
theorem runPlain_abc :
    Tables.ofParts chainParts none = .ok chainTables ∧ 0 < chainTables.states ∧
    ∃ result, chainTables.runPlain (.fresh 0) (.ofBytes [97, 98, 99]) #[] = .ok result ∧
      result.outcome = .ok (.action 5) ∧ result.window.curr = 1 ∧ result.window.ended = true := by
  have inside : 0 < chainTables.states := by decide
  have open0 : chainTables.final? 0 = none := by decide +kernel
  have open1 : chainTables.final? 1 = none := by decide +kernel
  have open2 : chainTables.final? 2 = none := by decide +kernel
  have leads0 : chainTables.successor? 0 (.byte 97) = some 1 := by decide +kernel
  have leads1 : chainTables.successor? 1 (.byte 98) = some 2 := by decide +kernel
  have stuck : chainTables.successor? 2 (.byte 99) = none := by decide +kernel
  have mark1 : chainTables.bookmark? 1 = some 5 := by decide +kernel
  have mark2 : chainTables.bookmark? 2 = none := by decide +kernel
  have path : chainTables.Path 0 [.byte 97, .byte 98] 2 :=
    .step open0 leads0 (.step open1 leads1 .here)
  have last : chainTables.LastMark 0 [.byte 97, .byte 98] [.byte 97] 5 :=
    (lastMark_cons_iff open0 leads0).mpr (.inl ⟨[], rfl,
      (lastMark_cons_iff open1 leads1).mpr (.inr ⟨rfl, mark1, unmarked_nil_iff.mpr mark2⟩)⟩)
  obtain ⟨result, called, _, _, _, _, determined⟩ :=
    runPlain_longest_match chainTables_accepted inside (.ofBytes [97, 98, 99]) #[]
  have shape : (Window.ofBytes [97, 98, 99]).unread =
      [.byte 97, .byte 98] ++ .byte 99 :: [.endOfInput] := by decide
  obtain ⟨outcome, place, flag⟩ := determined _ _ _ (.backsUp shape path open2 stuck last)
  exact ⟨chainTables_accepted, inside, result, called, outcome, place, flag⟩

end Tables

end TableLexer
