import TableLexer.Proofs.Sample.Language
import TableLexer.Proofs.Sample.Tables

/-! The states of the sample grammar and its words. The words that lead to a state are a language of
their own, and the words of a kind are those that lead to a state which reports it. So the verdict
of the tables is the longest word of some kind. -/

set_option autoImplicit false

open Computability

namespace TableLexer.Sample

namespace StateName

variable {state target : StateName} {word : List UInt8} {byte : UInt8}

def read (state : StateName) : List UInt8 → Option StateName
  | [] => some state
  | byte :: rest => (state.next byte.toNat).bind fun next => next.read rest

theorem read_append (first rest : List UInt8) :
    state.read (first ++ rest) = (state.read first).bind fun middle => middle.read rest := by
  induction first generalizing state with
  | nil => rfl
  | cons byte others ih =>
    rw [List.cons_append, read, read]
    cases state.next byte.toNat with
    | none => rfl
    | some next => exact ih

theorem read_snoc : state.read (word ++ [byte]) = some target ↔
    ∃ middle, state.read word = some middle ∧ middle.next byte.toNat = some target := by
  rw [read_append, Option.bind_eq_some_iff]
  simp [read]

theorem read_loop (stays : ∀ byte ∈ word, state.next byte.toNat = some state) :
    state.read word = some state := by
  induction word with
  | nil => rfl
  | cons byte rest ih =>
    rw [List.forall_mem_cons] at stays
    rw [read, stays.1]
    exact ih stays.2

def language : StateName → Language UInt8
  | start => 1
  | ident => Kind.ident.language
  | int => many digit
  | intDot => many digit * text ['.']
  | frac => many digit * (text ['.'] * many digit)
  | white => Kind.white.language
  | maybeSlash => Kind.slash.language
  | lineComment => Kind.lineComment.language
  | maybeEq => Kind.assign.language
  | afterLParen => Kind.lParen.language
  | afterRParen => Kind.rParen.language
  | afterPlus => Kind.plus.language
  | afterMinus => Kind.minus.language
  | afterStar => Kind.star.language
  | afterDot => Kind.dot.language
  | eqEqDone => Kind.eqEq.language

theorem byte_eq (char : Char) (same : byte.toNat = char.toUInt8.toNat) : [byte] ∈ text [char] := by
  rw [mem_text, List.map_singleton, List.singleton_inj, ← UInt8.toNat_inj, same]

theorem first_mem (leads : firstState byte.toNat = some target) : [byte] ∈ target.language := by
  unfold firstState at leads
  rw [isAlpha_toNat, isDigit_toNat, isWhite_toNat] at leads
  split at leads
  · rename_i holds
    cases leads
    exact mem_one_star.mpr ⟨byte, [], rfl, holds, List.forall_mem_nil _⟩
  split at leads
  · rename_i holds
    cases leads
    exact many_single holds
  split at leads
  · rename_i holds
    cases leads
    exact many_single holds
  split at leads
  all_goals first
    | cases leads; exact byte_eq _ ‹_›
    | cases leads

theorem step_mem (member : word ∈ state.language) (leads : state.next byte.toNat = some target) :
    word ++ [byte] ∈ target.language := by
  cases state with
  | start =>
    rw [(Language.mem_one word).mp member]
    exact first_mem leads
  | ident =>
    -- A word of letters and digits is not `many` of one class, so its first letter is split off.
    rw [next, isAlnum_toNat, Option.ite_none_right_eq_some] at leads
    obtain ⟨holds, ⟨⟩⟩ := leads
    obtain ⟨first, rest, rfl, head, each⟩ := mem_one_star.mp member
    refine mem_one_star.mpr ⟨first, rest ++ [byte], rfl, head, ?_⟩
    exact List.forall_mem_append.mpr ⟨each, List.forall_mem_singleton.mpr holds⟩
  | int =>
    rw [next, isDigit_toNat] at leads
    split at leads
    · rename_i holds
      cases leads
      exact many_append member holds
    · rw [Option.ite_none_right_eq_some] at leads
      obtain ⟨point, ⟨⟩⟩ := leads
      exact Language.append_mem_mul member (byte_eq '.' point)
  | intDot =>
    rw [next, isDigit_toNat, Option.ite_none_right_eq_some] at leads
    obtain ⟨holds, ⟨⟩⟩ := leads
    obtain ⟨whole, digits, point, dot, rfl⟩ := Language.mem_mul.mp member
    rw [List.append_assoc]
    exact Language.append_mem_mul digits (Language.append_mem_mul dot (many_single holds))
  | frac =>
    rw [next, isDigit_toNat, Option.ite_none_right_eq_some] at leads
    obtain ⟨holds, ⟨⟩⟩ := leads
    obtain ⟨whole, digits, _, ⟨point, dot, fraction, digits', rfl⟩, rfl⟩ :=
      Language.mem_mul.mp member
    rw [List.append_assoc, List.append_assoc]
    exact Language.append_mem_mul digits
      (Language.append_mem_mul dot (many_append digits' holds))
  | white =>
    rw [next, isWhite_toNat, Option.ite_none_right_eq_some] at leads
    obtain ⟨holds, ⟨⟩⟩ := leads
    exact many_append member holds
  | maybeSlash =>
    rw [next, Option.ite_none_right_eq_some] at leads
    obtain ⟨slash, ⟨⟩⟩ := leads
    rw [mem_text.mp member, mem_text.mp (byte_eq '/' slash)]
    exact mem_lineComment.mpr ⟨[], rfl, List.forall_mem_nil _⟩
  | lineComment =>
    rw [next, inComment_toNat, Option.ite_none_right_eq_some] at leads
    obtain ⟨holds, ⟨⟩⟩ := leads
    obtain ⟨rest, rfl, each⟩ := mem_lineComment.mp member
    refine mem_lineComment.mpr ⟨rest ++ [byte], rfl, ?_⟩
    exact List.forall_mem_append.mpr ⟨each, List.forall_mem_singleton.mpr holds⟩
  | maybeEq =>
    rw [next, Option.ite_none_right_eq_some] at leads
    obtain ⟨equal, ⟨⟩⟩ := leads
    rw [mem_text.mp member, mem_text.mp (byte_eq '=' equal)]
    rfl
  | _ => cases leads

theorem firstState_wordStart (holds : wordStart byte = true) :
    firstState byte.toNat = some ident := by
  simp only [firstState, isAlpha_toNat, holds, if_true]

theorem firstState_digit (holds : digit byte = true) : firstState byte.toNat = some int := by
  have apart : ∀ column, isDigit column = true → isAlpha column = false := by
    intro column
    simp only [isDigit, isAlpha, decide_eq_true_eq, decide_eq_false_iff_not]
    omega
  rw [← isDigit_toNat] at holds
  simp only [firstState, apart _ holds, holds, Bool.false_eq_true, if_false, if_true]

theorem firstState_blank (holds : blank byte = true) : firstState byte.toNat = some white := by
  have apart : ∀ column, isWhite column = true →
      isAlpha column = false ∧ isDigit column = false := by
    intro column
    simp only [isWhite, isDigit, isAlpha, decide_eq_true_eq, decide_eq_false_iff_not]
    omega
  rw [← isWhite_toNat] at holds
  simp only [firstState, apart _ holds, holds, Bool.false_eq_true, if_false, if_true]

theorem next_digit (loops : state = int ∨ state = frac) (holds : digit byte = true) :
    state.next byte.toNat = some state := by
  rcases loops with rfl | rfl
  · rw [next, isDigit_toNat, if_pos holds]
  · rw [next, isDigit_toNat, if_pos holds]

theorem digits_stay (loops : state = int ∨ state = frac)
    (each : ∀ byte ∈ word, digit byte = true) : state.read word = some state :=
  read_loop fun byte member => next_digit loops (each byte member)

theorem read_digits (digits : word ∈ many digit) : start.read word = some int := by
  obtain ⟨first, rest, rfl, head, each⟩ := mem_one_star.mp digits
  rw [read, next, firstState_digit head]
  exact digits_stay (.inl rfl) each

theorem read_fraction (digits : word ∈ many digit) : intDot.read word = some frac := by
  obtain ⟨first, rest, rfl, head, each⟩ := mem_one_star.mp digits
  rw [read, next, isDigit_toNat, if_pos head]
  exact digits_stay (.inr rfl) each

theorem read_of_mem (member : word ∈ state.language) : start.read word = some state := by
  cases state with
  | ident =>
    obtain ⟨first, rest, rfl, head, each⟩ := mem_one_star.mp member
    rw [read, next, firstState_wordStart head]
    refine read_loop fun byte member' => ?_
    rw [next, isAlnum_toNat, if_pos (each byte member')]
  | int => exact read_digits member
  | intDot =>
    obtain ⟨whole, digits, _, rfl, rfl⟩ := Language.mem_mul.mp member
    rw [read_append, read_digits digits]
    rfl
  | frac =>
    obtain ⟨whole, digits, _, ⟨_, rfl, fraction, digits', rfl⟩, rfl⟩ :=
      Language.mem_mul.mp member
    rw [read_append, read_digits digits]
    exact read_fraction digits'
  | white =>
    obtain ⟨first, rest, rfl, head, each⟩ := mem_one_star.mp member
    rw [read, next, firstState_blank head]
    refine read_loop fun byte member' => ?_
    rw [next, isWhite_toNat, if_pos (each byte member')]
  | lineComment =>
    obtain ⟨rest, rfl, each⟩ := mem_lineComment.mp member
    change lineComment.read rest = some lineComment
    refine read_loop fun byte member' => ?_
    rw [next, inComment_toNat, if_pos (each byte member')]
  | _ =>
    -- The words of all other states are fixed.
    cases member
    rfl

theorem read_iff : start.read word = some state ↔ word ∈ state.language := by
  constructor
  · intro leads
    induction word using List.reverseRecOn generalizing state with
    | nil =>
      cases leads
      exact Language.nil_mem_one
    | append_singleton word byte ih =>
      obtain ⟨middle, before, after⟩ := read_snoc.mp leads
      exact step_mem (ih before) after
  · exact read_of_mem

/-- The kind of a state, at once or to fall back to. -/
def report (state : StateName) : Option Kind :=
  state.accepts.or state.backtracks

/-- The words of a kind are those of the states that report it. -/
theorem kind_language_iff {kind : Kind} :
    word ∈ kind.language ↔ ∃ state : StateName, state.report = some kind ∧
      word ∈ state.language := by
  constructor
  · intro member
    cases kind with
    | number =>
      rcases mem_number.mp member with digits | ⟨whole, fraction, digits, digits', rfl⟩
      · exact ⟨int, rfl, digits⟩
      · exact ⟨frac, rfl, Language.append_mem_mul digits
          (Language.append_mem_mul (mem_text.mpr rfl) digits')⟩
    | ident => exact ⟨ident, rfl, member⟩
    | white => exact ⟨white, rfl, member⟩
    | lParen => exact ⟨afterLParen, rfl, member⟩
    | rParen => exact ⟨afterRParen, rfl, member⟩
    | plus => exact ⟨afterPlus, rfl, member⟩
    | minus => exact ⟨afterMinus, rfl, member⟩
    | star => exact ⟨afterStar, rfl, member⟩
    | slash => exact ⟨maybeSlash, rfl, member⟩
    | dot => exact ⟨afterDot, rfl, member⟩
    | assign => exact ⟨maybeEq, rfl, member⟩
    | eqEq => exact ⟨eqEqDone, rfl, member⟩
    | lineComment => exact ⟨lineComment, rfl, member⟩
  · rintro ⟨state, reports, member⟩
    cases state with
    | start | intDot => cases reports
    | int =>
      cases reports
      exact mem_number.mpr (.inl member)
    | frac =>
      cases reports
      obtain ⟨whole, digits, _, ⟨_, rfl, fraction, digits', rfl⟩, rfl⟩ :=
        Language.mem_mul.mp member
      exact mem_number.mpr (.inr ⟨whole, fraction, digits, digits', rfl⟩)
    | _ =>
      cases reports
      exact member

theorem next_of_accepts {kind : Kind} (accepts : state.accepts = some kind) (column : Nat) :
    state.next column = none := by
  cases state with
  | start | ident | int | intDot | frac | white | maybeSlash | lineComment | maybeEq =>
    cases accepts
  | _ => rfl

end StateName

def IsWord (word : List UInt8) (kind : Kind) : Prop :=
  word ∈ kind.language

namespace Made

variable {tables : Tables} {captures : CaptureTables} (made : Made tables captures)

include made

theorem path_iff {state : StateName} {word : List UInt8} {number : Nat} :
    tables.Path state.index (word.map .byte) number ↔
      ∃ target, state.read word = some target ∧ target.index = number := by
  induction word generalizing state with
  | nil =>
    rw [List.map_nil, Tables.path_nil_iff]
    simp [StateName.read]
  | cons byte rest ih =>
    rw [List.map_cons, StateName.read]
    constructor
    · intro path
      cases path with
      | step unfinished leads onward =>
        rw [made.final?_eq, Option.map_eq_none_iff] at unfinished
        rw [made.successor?_eq unfinished] at leads
        obtain ⟨next, found, rfl⟩ := Option.map_eq_some_iff.mp leads
        rw [show state.next byte.toNat = some next from found]
        exact ih.mp onward
    · rintro ⟨target, found, rfl⟩
      obtain ⟨next, leads, onward⟩ := Option.bind_eq_some_iff.mp found
      have unfinished : state.accepts = none := by
        cases accepts : state.accepts with
        | none => rfl
        | some kind =>
          rw [StateName.next_of_accepts accepts] at leads
          cases leads
      refine .step (made.unfinished unfinished) ?_ (ih.mpr ⟨target, onward, rfl⟩)
      rw [made.successor?_eq unfinished]
      exact congrArg (Option.map StateName.index) leads

theorem report?_eq (state : StateName) :
    tables.report? state.index = state.report.map Kind.action := by
  rw [Tables.report?, made.final?_eq, made.bookmark?_eq, StateName.report]
  cases state.accepts <;> rfl

theorem reports_iff {word : List UInt8} {action : ActionId} :
    tables.Reports word action ↔ ∃ kind, IsWord word kind ∧ kind.action = action := by
  have start : StateName.start.index = 0 := rfl
  simp only [Tables.Reports, ← start, made.path_iff, IsWord, StateName.kind_language_iff,
    StateName.read_iff]
  constructor
  · rintro ⟨_, ⟨state, member, rfl⟩, report⟩
    rw [made.report?_eq] at report
    obtain ⟨kind, reports, rfl⟩ := Option.map_eq_some_iff.mp report
    exact ⟨kind, ⟨state, reports, member⟩, rfl⟩
  · rintro ⟨kind, ⟨state, reports, member⟩, rfl⟩
    refine ⟨_, ⟨state, member, rfl⟩, ?_⟩
    rw [made.report?_eq, reports]
    rfl

theorem verdict_cases (bytes : List UInt8) :
    (∃ word kind, Longest IsWord bytes word kind ∧
      tables.verdict bytes = .lexeme kind.action word.length) ∨
    (∀ word kind, word <+: bytes → ¬ IsWord word kind) ∧ tables.verdict bytes = .stuck := by
  rcases Tables.verdict_longest made.valid made.closed bytes with
    ⟨word, action, longest, verdict⟩ | ⟨none, verdict⟩
  · obtain ⟨kind, member, rfl⟩ := made.reports_iff.mp longest.labelled
    refine .inl ⟨word, kind, ⟨longest.within, member, ?_⟩, verdict⟩
    intro other kind' within member'
    exact longest.longest within (made.reports_iff.mpr ⟨kind', member', rfl⟩)
  · refine .inr ⟨fun word kind within member => ?_, verdict⟩
    exact none word kind.action within (made.reports_iff.mpr ⟨kind, member, rfl⟩)

end Made

theorem IsWord.unique {word : List UInt8} {kind kind' : Kind} (first : IsWord word kind)
    (second : IsWord word kind') : kind = kind' := by
  obtain ⟨state, reports, member⟩ := StateName.kind_language_iff.mp first
  obtain ⟨state', reports', member'⟩ := StateName.kind_language_iff.mp second
  -- A word leads to one state, and a state reports one kind.
  rw [← StateName.read_iff] at member member'
  cases member.symm.trans member'
  exact Option.some.inj (reports.symm.trans reports')

end TableLexer.Sample
