import TableLexer.Proofs.Sample.Words
import TableLexer.Proofs.Scanning.Reruns

/-! The cells of the sample grammar's tokens. Only numbers use them: digits unset the fraction, the
point is remembered in a cell of its own, and the first digit after it copies that cell. Where a
token starts and what kind it has says what its cells hold. -/

set_option autoImplicit false

open Computability

namespace TableLexer.Sample

/-- What the cells of a token should hold. The second one is the place after the point that follows
the digits of a number, in the token or not; the first is the same place if the number has a
fraction. -/
def Kind.cells (source : List UInt8) (start length : Nat) : Kind → Array Cell
  | number =>
    let lexeme := (source.drop start).take length
    let stop := start + (lexeme.takeWhile digit).length
    #[if '.'.toUInt8 ∈ lexeme then some (stop + 1) else none,
      if source[stop]? = some '.'.toUInt8 then some (stop + 1) else none]
  | _ => #[none, none]

namespace StateName

variable {state target : StateName} {position : Nat} {cells : Array Cell}
  {whole rest bytes : List UInt8}

/-- The cells after an attempt that reads bytes from a state on. -/
def remember (state : StateName) (position : Nat) (cells : Array Cell) : List UInt8 → Array Cell
  | [] => state.tag.apply none cells
  | byte :: rest =>
    match state.next byte.toNat with
    | none => state.tag.apply none cells
    | some target =>
      target.remember (position + 1)
        (target.record.apply (some (position + 1)) (state.tag.apply none cells)) rest

theorem remember_stuck {byte : UInt8} (stuck : state.next byte.toNat = none) :
    state.remember position cells (byte :: rest) = state.tag.apply none cells := by
  rw [remember, stuck]

theorem remember_move {byte : UInt8} (leads : state.next byte.toNat = some target) :
    state.remember position cells (byte :: rest) = target.remember (position + 1)
      (target.record.apply (some (position + 1)) (state.tag.apply none cells)) rest := by
  rw [remember, leads]

theorem remember_of_accepts {kind : Kind} (accepts : state.accepts = some kind) :
    state.remember position cells bytes = cells := by
  have untagged : state.tag = [] := by
    cases state <;> first | rfl | cases accepts
  cases bytes with
  | nil =>
    rw [remember, untagged]
    rfl
  | cons byte rest =>
    rw [remember_stuck (next_of_accepts accepts _), untagged]
    rfl

def numeric : StateName → Bool
  | int | intDot | frac => true
  | _ => false

theorem numeric_report {kind : Kind} (reports : state.report = some kind) :
    state.numeric = true ↔ kind = .number := by
  cases state <;> cases reports <;> decide

theorem first_entered {byte : UInt8} (leads : firstState byte.toNat = some target) :
    target ≠ start := by
  rintro rfl
  cases (Language.mem_one _).mp (first_mem leads)

/-- Once the start is left, it is not entered again, and numbers are neither entered nor left. -/
theorem next_stays (entered : state ≠ start) {column : Nat}
    (leads : state.next column = some target) :
    target ≠ start ∧ target.numeric = state.numeric := by
  cases state with
  | start => exact absurd rfl entered
  | int =>
    rw [next] at leads
    split at leads
    · cases leads
      decide
    · obtain ⟨_, ⟨⟩⟩ := Option.ite_none_right_eq_some.mp leads
      decide
  | ident | intDot | frac | white | maybeSlash | lineComment | maybeEq =>
    obtain ⟨_, ⟨⟩⟩ := Option.ite_none_right_eq_some.mp leads
    decide
  | _ => cases leads

theorem numeric_read (entered : state ≠ start) (leads : state.read bytes = some target) :
    target.numeric = state.numeric := by
  induction bytes generalizing state with
  | nil =>
    cases leads
    rfl
  | cons byte rest ih =>
    obtain ⟨next, first, onward⟩ := Option.bind_eq_some_iff.mp leads
    obtain ⟨entered', same⟩ := next_stays entered first
    exact (ih entered' onward).trans same

theorem tag_of_quiet (quiet : state.numeric = false) : state.tag = [] := by
  cases state <;> first | rfl | cases quiet

theorem record_of_quiet (quiet : state.numeric = false) : state.record = [] := by
  cases state <;> first | rfl | cases quiet

theorem remember_quiet (entered : state ≠ start) (quiet : state.numeric = false) :
    state.remember position cells bytes = cells := by
  induction bytes generalizing state position with
  | nil =>
    rw [remember, tag_of_quiet quiet]
    rfl
  | cons byte rest ih =>
    cases leads : state.next byte.toNat with
    | none =>
      rw [remember_stuck leads, tag_of_quiet quiet]
      rfl
    | some target =>
      obtain ⟨entered', same⟩ := next_stays entered leads
      have quiet' : target.numeric = false := same.trans quiet
      rw [remember_move leads, tag_of_quiet quiet, record_of_quiet quiet']
      exact ih entered' quiet'

theorem remember_digits (each : ∀ byte ∈ whole, digit byte = true) :
    int.remember position #[none, none] (whole ++ rest) =
      int.remember (position + whole.length) #[none, none] rest := by
  induction whole generalizing position with
  | nil => rfl
  | cons byte others ih =>
    rw [List.forall_mem_cons] at each
    rw [List.cons_append, remember_move (next_digit (.inl rfl) each.1), List.length_cons,
      Nat.add_comm others.length, ← Nat.add_assoc]
    exact ih each.2

theorem remember_start (digits : whole ∈ many digit) :
    start.remember position #[none, none] (whole ++ rest) =
      int.remember (position + whole.length) #[none, none] rest := by
  obtain ⟨first, others, rfl, head, each⟩ := mem_one_star.mp digits
  have leads : start.next first.toNat = some int := firstState_digit head
  rw [List.cons_append, remember_move leads, List.length_cons, Nat.add_comm others.length,
    ← Nat.add_assoc]
  exact remember_digits each

theorem remember_frac {fraction point : Cell} :
    frac.remember position #[fraction, point] bytes = #[point, point] := by
  induction bytes generalizing position fraction with
  | nil => rfl
  | cons byte rest ih =>
    cases leads : frac.next byte.toNat with
    | none =>
      rw [remember_stuck leads]
      rfl
    | some target =>
      obtain ⟨_, ⟨⟩⟩ := Option.ite_none_right_eq_some.mp leads
      rw [remember_move leads]
      exact ih

theorem next_point : int.next '.'.toUInt8.toNat = some intDot := rfl

theorem remember_fraction {byte : UInt8} (holds : digit byte = true) :
    int.remember position #[none, none] ('.'.toUInt8 :: byte :: rest) =
      #[some (position + 1), some (position + 1)] := by
  have leads : intDot.next byte.toNat = some frac := by
    rw [next, isDigit_toNat, if_pos holds]
  rw [remember_move next_point, remember_move leads]
  exact remember_frac

theorem remember_whole (boundary : ∀ byte, rest.head? = some byte → digit byte = false)
    (whole : ∀ byte more, rest = '.'.toUInt8 :: byte :: more → digit byte = false) :
    int.remember position #[none, none] rest =
      #[none, if rest.head? = some '.'.toUInt8 then some (position + 1) else none] := by
  cases rest with
  | nil => rfl
  | cons first more =>
    by_cases point : first = '.'.toUInt8
    · subst point
      rw [remember_move next_point, List.head?_cons, if_pos rfl]
      cases more with
      | nil => rfl
      | cons byte more =>
        have stuck : intDot.next byte.toNat = none := by
          rw [next, isDigit_toNat, whole byte more rfl, if_neg Bool.false_ne_true]
        rw [remember_stuck stuck]
        rfl
    · have other : first.toNat ≠ 46 := fun same => point (UInt8.toNat_inj.mp same)
      have stuck : int.next first.toNat = none := by
        rw [next, isDigit_toNat, boundary first rfl, if_neg Bool.false_ne_true, if_neg other]
      have unpointed : (first :: more).head? ≠ some '.'.toUInt8 := fun same =>
        point (Option.some.inj same)
      rw [remember_stuck stuck, if_neg unpointed]
      rfl

end StateName

theorem digit_of_mem {word : List UInt8} (digits : word ∈ many digit) {byte : UInt8}
    (member : byte ∈ word) : digit byte = true :=
  (mem_many.mp digits).2 byte member

theorem takeWhile_digit {whole rest : List UInt8} (digits : whole ∈ many digit)
    (boundary : ∀ byte, rest.head? = some byte → digit byte = false) :
    (whole ++ rest).takeWhile digit = whole := by
  rw [List.takeWhile_append_of_pos fun byte => digit_of_mem digits]
  cases rest with
  | nil => rw [List.takeWhile_nil, List.append_nil]
  | cons byte more =>
    rw [List.takeWhile_cons_of_neg (by rw [boundary byte rfl]; exact Bool.false_ne_true),
      List.append_nil]

theorem getElem?_after {source whole rest : List UInt8} {start : Nat}
    (shape : source.drop start = whole ++ rest) :
    source[start + whole.length]? = rest.head? := by
  rw [← List.getElem?_drop, shape, List.getElem?_append_right (Nat.le_refl _), Nat.sub_self,
    List.head?_eq_getElem?]

theorem remember_number {source word : List UInt8} {start : Nat}
    (longest : Longest IsWord (source.drop start) word .number) :
    StateName.start.remember start #[none, none] (source.drop start) =
      Kind.number.cells source start word.length := by
  obtain ⟨rest, shape⟩ := longest.within
  have lexeme : (source.drop start).take word.length = word := by
    rw [← shape, List.take_left]
  rw [Kind.cells, lexeme]
  rcases mem_number.mp longest.labelled with digits | ⟨whole, fraction, digits, digits', rfl⟩
  · -- More digits, or a point and a digit, would make a longer number.
    have boundary : ∀ byte, rest.head? = some byte → digit byte = false := by
      intro byte head
      obtain ⟨more, rfl⟩ := List.head?_eq_some_iff.mp head
      by_contra holds
      have longer := mem_number.mpr (.inl (many_append digits (Bool.not_eq_false _ ▸ holds)))
      cases longest.not_longer shape.symm (List.prefix_append [byte] more) longer
    have unpointed : ∀ byte more, rest = '.'.toUInt8 :: byte :: more → digit byte = false := by
      rintro byte more rfl
      by_contra holds
      have longer := mem_number.mpr (.inr ⟨word, [byte], digits,
        many_single (Bool.not_eq_false _ ▸ holds), rfl⟩)
      cases longest.not_longer shape.symm (List.prefix_append ['.'.toUInt8, byte] more) longer
    have none : '.'.toUInt8 ∉ word := fun member => by
      cases digit_of_mem digits member
    have all : word.takeWhile digit = word := by
      have taken : (word ++ []).takeWhile digit = word := takeWhile_digit digits nofun
      rwa [List.append_nil] at taken
    rw [all, if_neg none, getElem?_after shape.symm, ← shape, StateName.remember_start digits,
      StateName.remember_whole boundary unpointed]
  · obtain ⟨first, others, rfl, head, _⟩ := mem_one_star.mp digits'
    have pointed : '.'.toUInt8 ∈ whole ++ '.'.toUInt8 :: first :: others :=
      List.mem_append_right _ List.mem_cons_self
    have taken : (whole ++ '.'.toUInt8 :: first :: others).takeWhile digit = whole :=
      takeWhile_digit digits (by rintro _ ⟨⟩; rfl)
    rw [List.append_assoc] at shape
    rw [taken, if_pos pointed, getElem?_after shape.symm, List.cons_append, List.head?_cons,
      if_pos rfl, ← shape, StateName.remember_start digits, List.cons_append, List.cons_append,
      StateName.remember_fraction head]

theorem remember_eq {source word : List UInt8} {start : Nat} {kind : Kind}
    (longest : Longest IsWord (source.drop start) word kind) :
    StateName.start.remember start #[none, none] (source.drop start) =
      kind.cells source start word.length := by
  by_cases number : kind = .number
  · subst number
    exact remember_number longest
  · have plain : kind.cells source start word.length = #[none, none] := by
      cases kind <;> first | rfl | exact absurd rfl number
    obtain ⟨rest, shape⟩ := longest.within
    obtain ⟨state, reports, member⟩ := StateName.kind_language_iff.mp longest.labelled
    have leads := StateName.read_of_mem member
    have quiet : state.numeric = false := by
      rw [← Bool.not_eq_true, StateName.numeric_report reports]
      exact number
    rw [plain, ← shape]
    cases word with
    | nil =>
      cases leads
      cases reports
    | cons byte others =>
      -- The first byte leaves the start for good, and not into a number.
      obtain ⟨next, first, onward⟩ := Option.bind_eq_some_iff.mp leads
      have entered := StateName.first_entered first
      have quiet' : next.numeric = false :=
        (StateName.numeric_read entered onward).symm.trans quiet
      rw [List.cons_append, StateName.remember_move first, StateName.record_of_quiet quiet']
      exact StateName.remember_quiet entered quiet'

namespace Made

variable {tables : Tables} {captures : CaptureTables} (made : Made tables captures)

include made

theorem proceed_accepts {state : StateName} {kind : Kind} (accepts : state.accepts = some kind)
    (signals : List Signal) (trail : Trail) (cells : Array Cell) :
    (tables.proceed captures.reaction signals state.index trail cells).memory = cells := by
  have final : tables.final? state.index = some kind.action := by
    rw [made.final?_eq, accepts]
    rfl
  rw [Tables.proceed_final final]
  exact made.accept_eq accepts cells

theorem proceed_memory (bytes : List UInt8) (rounds : Nat) (state : StateName) (trail : Trail)
    (cells : Array Cell) :
    (tables.proceed captures.reaction ((Symbol.input bytes rounds).map .symbol) state.index trail
      cells).memory = state.remember trail.curr cells bytes := by
  induction bytes generalizing state trail cells with
  | nil =>
    cases accepts : state.accepts with
    | some kind =>
      rw [made.proceed_accepts accepts, StateName.remember_of_accepts accepts]
    | none =>
      have unfinished := made.unfinished accepts
      rw [Symbol.input, List.map_nil, List.nil_append]
      -- No state moves on the end of the input, so it does not matter how often it is read.
      cases rounds with
      | zero =>
        rw [List.replicate_zero, List.map_nil, Tables.proceed_nil unfinished]
        exact made.tagged_eq state cells
      | succ rounds =>
        rw [List.replicate_succ, List.map_cons,
          Tables.proceed_stuck unfinished (made.closed _ unfinished)]
        exact made.tagged_eq state cells
  | cons byte rest ih =>
    cases accepts : state.accepts with
    | some kind =>
      rw [made.proceed_accepts accepts, StateName.remember_of_accepts accepts]
    | none =>
      have unfinished := made.unfinished accepts
      have moves : tables.successor? state.index (.byte byte) =
          (state.next byte.toNat).map StateName.index := made.successor?_eq accepts (.byte byte)
      rw [Symbol.input, List.map_cons, List.cons_append, List.map_cons]
      cases leads : state.next byte.toNat with
      | none =>
        rw [leads] at moves
        rw [Tables.proceed_stuck unfinished moves, StateName.remember_stuck leads]
        exact made.tagged_eq state cells
      | some target =>
        rw [leads] at moves
        rw [Tables.proceed_move unfinished moves, StateName.remember_move leads,
          made.move_eq accepts (.byte byte) leads, made.tagged_eq]
        refine (ih target _ _).trans ?_
        rw [Trail.pass_curr, Trail.note_curr]
        rfl

/-- The captures of a token are the cells of the longest word where it starts. -/
theorem captures_eq {source word : List UInt8} {token : Token} {kind : Kind}
    (recorded : (Scanner.ofTables tables).Recorded captures.reaction source token)
    (longest : Longest IsWord (source.drop token.start) word kind) :
    token.captures = kind.cells source token.start word.length := by
  obtain ⟨rounds, ended, same⟩ := recorded.captures_eq made.tagsSettle made.carried
  rw [same, made.cells_eq, ← remember_eq longest]
  exact made.proceed_memory _ rounds .start _ _

end Made

end TableLexer.Sample
