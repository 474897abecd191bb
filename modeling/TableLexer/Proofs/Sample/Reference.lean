import TableLexer.Proofs.Sample.Cells

/-! The tokens of the sample grammar, said without tables: each is the longest word where the one
before it ends. There is one way to cut a source into tokens, and it gets stuck at the first byte
outside of line comments with which no word begins. -/

set_option autoImplicit false

open Computability

namespace TableLexer.Sample

inductive Tokenization (source : List UInt8) : Nat → List Token → Ending → Prop where
  | done : Tokenization source source.length [] .complete
  | stuck {start : Nat} (inside : start < source.length)
      (none : ∀ word kind, word <+: source.drop start → ¬ IsWord word kind) :
      Tokenization source start []
        (.failed (.emptyToken start) { Location.start "" with offset := start })
  | token {start : Nat} {word : List UInt8} {kind : Kind} {later : List Token} {ending : Ending}
      (longest : Longest IsWord (source.drop start) word kind)
      (onward : Tokenization source (start + word.length) later ending) :
      Tokenization source start
        ({ action := kind.action, start, len := word.length
           captures := kind.cells source start word.length } :: later) ending

def Starts (byte : UInt8) : Prop :=
  ∃ rest kind, IsWord (byte :: rest) kind

def SlashesAt (source : List UInt8) (place : Nat) : Prop :=
  source[place]? = some '/'.toUInt8 ∧ source[place + 1]? = some '/'.toUInt8

/-- Two slashes stand at the place or before it, with no newline since. -/
def InComment (source : List UInt8) (place : Nat) : Prop :=
  ∃ mark ≤ place, SlashesAt source mark ∧
    ∀ between ≤ place, mark ≤ between → source[between]? ≠ some '\n'.toUInt8

/-- A byte outside of line comments with which no word begins. -/
def Stray (source : List UInt8) (place : Nat) : Prop :=
  ∃ byte, source[place]? = some byte ∧ ¬ Starts byte ∧ ¬ InComment source place

namespace IsWord

variable {word : List UInt8} {kind : Kind} {byte : UInt8}

theorem ne_nil (member : IsWord word kind) : word ≠ [] := by
  rintro rfl
  obtain ⟨state, reports, inside⟩ := StateName.kind_language_iff.mp member
  cases StateName.read_of_mem inside
  cases reports

theorem alone_of_first {target : StateName} (first : firstState byte.toNat = some target) :
    ∃ kind, IsWord [byte] kind := by
  have reached := StateName.first_mem first
  have reports : ∃ kind, target.report = some kind := by
    cases target with
    | start => cases (Language.mem_one _).mp reached
    | intDot =>
      -- A point after digits takes two bytes.
      obtain ⟨whole, digits, _, rfl, same⟩ := Language.mem_mul.mp reached
      obtain ⟨head, others, rfl, _⟩ := mem_one_star.mp digits
      simp at same
    | _ => exact ⟨_, rfl⟩
  obtain ⟨kind, reports⟩ := reports
  exact ⟨kind, StateName.kind_language_iff.mpr ⟨target, reports, reached⟩⟩

theorem starts_iff : Starts byte ↔ (firstState byte.toNat).isSome := by
  constructor
  · rintro ⟨rest, kind, member⟩
    obtain ⟨state, _, inside⟩ := StateName.kind_language_iff.mp member
    obtain ⟨target, first, _⟩ := Option.bind_eq_some_iff.mp (StateName.read_of_mem inside)
    exact Option.isSome_iff_exists.mpr ⟨target, first⟩
  · intro first
    obtain ⟨target, first⟩ := Option.isSome_iff_exists.mp first
    exact ⟨[], alone_of_first first⟩

theorem alone (starts : Starts byte) : ∃ kind, IsWord [byte] kind := by
  obtain ⟨target, first⟩ := Option.isSome_iff_exists.mp (starts_iff.mp starts)
  exact alone_of_first first

theorem starts_of_text {char : Char} (kind : Kind) (single : kind.language = text [char]) :
    Starts char.toUInt8 := by
  refine ⟨[], kind, ?_⟩
  rw [IsWord, single]
  exact mem_text.mpr rfl

theorem starts_of_digit (holds : digit byte = true) : Starts byte :=
  ⟨[], .number, mem_number.mpr (.inl (many_single holds))⟩

theorem starts_of_wordPart (holds : wordPart byte = true) : Starts byte := by
  rcases Bool.or_eq_true_iff.mp holds with letter | number
  · exact ⟨[], .ident, mem_one_star.mpr ⟨byte, [], rfl, letter, List.forall_mem_nil _⟩⟩
  · exact starts_of_digit number

theorem starts (member : IsWord word kind) (plain : kind ≠ .lineComment) (inside : byte ∈ word) :
    Starts byte := by
  cases kind with
  | ident =>
    obtain ⟨first, rest, rfl, head, each⟩ := mem_one_star.mp member
    rcases List.mem_cons.mp inside with rfl | inside
    · exact starts_of_wordPart (Bool.or_eq_true_iff.mpr (.inl head))
    · exact starts_of_wordPart (each byte inside)
  | number =>
    rcases mem_number.mp member with digits | ⟨whole, fraction, digits, digits', rfl⟩
    · exact starts_of_digit (digit_of_mem digits inside)
    · rcases List.mem_append.mp inside with inside | inside
      · exact starts_of_digit (digit_of_mem digits inside)
      · rcases List.mem_cons.mp inside with rfl | inside
        · exact starts_of_text .dot rfl
        · exact starts_of_digit (digit_of_mem digits' inside)
  | white => exact ⟨[], .white, many_single ((mem_many.mp member).2 byte inside)⟩
  | lineComment => exact absurd rfl plain
  | eqEq =>
    rw [mem_text.mp member] at inside
    obtain rfl : byte = '='.toUInt8 := by simpa using inside
    exact starts_of_text .assign rfl
  | _ =>
    have whole : word = [byte] := by
      rw [mem_text.mp member] at inside ⊢
      rw [List.mem_singleton.mp inside]
      rfl
    exact ⟨[], _, whole ▸ member⟩

theorem slash (member : IsWord word kind) (inside : '/'.toUInt8 ∈ word) :
    kind = .lineComment ∨ word = ['/'.toUInt8] := by
  cases kind with
  | lineComment => exact .inl rfl
  | slash => exact .inr (mem_text.mp member)
  | ident =>
    obtain ⟨first, rest, rfl, head, each⟩ := mem_one_star.mp member
    rcases List.mem_cons.mp inside with rfl | inside
    · cases head
    · cases each _ inside
  | number =>
    rcases mem_number.mp member with digits | ⟨whole, fraction, digits, digits', rfl⟩
    · cases digit_of_mem digits inside
    · rcases List.mem_append.mp inside with inside | inside
      · cases digit_of_mem digits inside
      · rcases List.mem_cons.mp inside with same | inside
        · cases same
        · cases digit_of_mem digits' inside
  | white => cases (mem_many.mp member).2 _ inside
  | _ =>
    rw [mem_text.mp member] at inside
    exact absurd inside (by decide)

end IsWord

instance (byte : UInt8) : Decidable (Starts byte) :=
  decidable_of_iff _ IsWord.starts_iff.symm

instance (source : List UInt8) (place : Nat) : Decidable (SlashesAt source place) :=
  inferInstanceAs (Decidable (_ ∧ _))

instance (source : List UInt8) (place : Nat) : Decidable (InComment source place) :=
  inferInstanceAs (Decidable (∃ mark ≤ place, SlashesAt source mark ∧
    ∀ between ≤ place, mark ≤ between → source[between]? ≠ some '\n'.toUInt8))

instance (source : List UInt8) (place : Nat) : Decidable (Stray source place) :=
  match found : source[place]? with
  | none => isFalse fun ⟨_, found', _⟩ => Option.some_ne_none _ (found'.symm.trans found)
  | some byte => decidable_of_iff (¬ Starts byte ∧ ¬ InComment source place)
    ⟨fun stray => ⟨byte, found, stray⟩,
      fun ⟨_, found', stray⟩ => Option.some.inj (found.symm.trans found') ▸ stray⟩

theorem mem_of_within {source word : List UInt8} {start place : Nat} {byte : UInt8}
    (within : word <+: source.drop start) (found : source[place]? = some byte)
    (after : start ≤ place) (before : place < start + word.length) : byte ∈ word := by
  obtain ⟨rest, shape⟩ := within
  obtain ⟨distance, rfl⟩ := Nat.exists_eq_add_of_le after
  rw [← List.getElem?_drop, ← shape, List.getElem?_append_left (by omega)] at found
  exact List.mem_of_getElem? found

/-- Line comments that begin before a place have come to their end. -/
def Clear (source : List UInt8) (start : Nat) : Prop :=
  ∀ mark < start, SlashesAt source mark → ∃ stop, mark ≤ stop ∧ stop ≤ start ∧
    (source[stop]? = none ∨ source[stop]? = some '\n'.toUInt8)

section

variable {source word : List UInt8} {start : Nat} {kind : Kind}

theorem lineComment_ends (longest : Longest IsWord (source.drop start) word .lineComment) :
    source[start + word.length]? = none ∨
      source[start + word.length]? = some '\n'.toUInt8 := by
  obtain ⟨rest, shape⟩ := longest.within
  rw [getElem?_after shape.symm]
  cases rest with
  | nil => exact .inl rfl
  | cons byte more =>
    refine .inr (congrArg some ?_)
    by_contra other
    obtain ⟨text, rfl, each⟩ := mem_lineComment.mp longest.labelled
    have longer : IsWord ('/'.toUInt8 :: '/'.toUInt8 :: text ++ [byte]) .lineComment := by
      refine mem_lineComment.mpr ⟨text ++ [byte], rfl, ?_⟩
      exact List.forall_mem_append.mpr ⟨each, List.forall_mem_singleton.mpr (bne_iff_ne.mpr other)⟩
    cases longest.not_longer shape.symm (List.prefix_append [byte] more) longer

theorem Clear.onward (clear : Clear source start)
    (longest : Longest IsWord (source.drop start) word kind) :
    Clear source (start + word.length) := by
  intro mark before slashes
  by_cases earlier : mark < start
  · obtain ⟨stop, after, within, ends⟩ := clear mark earlier slashes
    exact ⟨stop, after, Nat.le_trans within (Nat.le_add_right _ _), ends⟩
  · have after : start ≤ mark := Nat.not_lt.mp earlier
    rcases longest.labelled.slash (mem_of_within longest.within slashes.1 after before) with
      rfl | rfl
    · exact ⟨_, Nat.le_of_lt before, Nat.le_refl _, lineComment_ends longest⟩
    · -- The second slash would have made the word longer.
      obtain rfl : mark = start := by
        rw [List.length_singleton] at before
        omega
      obtain ⟨rest, shape⟩ := longest.within
      have second := slashes.2
      rw [← List.length_singleton, getElem?_after shape.symm] at second
      obtain ⟨more, rfl⟩ := List.head?_eq_some_iff.mp second
      have longer : IsWord (['/'.toUInt8] ++ ['/'.toUInt8]) .lineComment :=
        mem_lineComment.mpr ⟨[], rfl, List.forall_mem_nil _⟩
      cases longest.not_longer shape.symm (List.prefix_append ['/'.toUInt8] more) longer

theorem no_stray_within (longest : Longest IsWord (source.drop start) word kind) {place : Nat}
    (after : start ≤ place) (before : place < start + word.length) : ¬ Stray source place := by
  rintro ⟨byte, found, never, outside⟩
  -- Within a comment a byte is not stray by its place, within other words by what it is.
  by_cases comment : kind = .lineComment
  · subst comment
    refine outside ⟨start, after, ?_, ?_⟩
    · obtain ⟨rest, shape⟩ := longest.within
      obtain ⟨text, rfl, _⟩ := mem_lineComment.mp longest.labelled
      have second : (source.drop start)[1]? = some '/'.toUInt8 := by
        rw [← shape]
        rfl
      have first : (source.drop start)[0]? = some '/'.toUInt8 := by
        rw [← shape]
        rfl
      rw [List.getElem?_drop] at first second
      exact ⟨first, second⟩
    · intro between high low newline
      have inside := mem_of_within longest.within newline low (Nat.lt_of_le_of_lt high before)
      obtain ⟨text, rfl, each⟩ := mem_lineComment.mp longest.labelled
      have others : '\n'.toUInt8 ∈ text := by
        rcases List.mem_cons.mp inside with same | inside
        · cases same
        · rcases List.mem_cons.mp inside with same | inside
          · cases same
          · exact inside
      cases each _ others
  · exact never (longest.labelled.starts comment
      (mem_of_within longest.within found after before))

/-- A place where no word begins, and before which all comments have ended, holds a stray. -/
theorem stray_of_stuck (inside : start < source.length) (clear : Clear source start)
    (none : ∀ word kind, word <+: source.drop start → ¬ IsWord word kind) :
    Stray source start := by
  have found := List.getElem?_eq_getElem inside
  have never : ¬ Starts source[start] := by
    intro starts
    obtain ⟨kind, member⟩ := IsWord.alone starts
    refine none _ kind ?_ member
    rw [List.drop_eq_getElem_cons inside]
    exact List.prefix_append [source[start]] _
  refine ⟨_, found, never, ?_⟩
  rintro ⟨mark, before, slashes, continues⟩
  -- A comment from before has ended, and one from here on would be a word.
  rcases Nat.lt_or_eq_of_le before with earlier | rfl
  · obtain ⟨stop, after, within, ended | newline⟩ := clear mark earlier slashes
    · rw [List.getElem?_eq_none_iff] at ended
      omega
    · exact continues stop within after newline
  · have slash := slashes.1
    rw [found, Option.some_inj] at slash
    exact never (slash ▸ IsWord.starts_of_text .slash rfl)

end

namespace Tokenization

variable {source : List UInt8} {start : Nat} {tokens tokens' : List Token} {ending ending' : Ending}

theorem unique (first : Tokenization source start tokens ending)
    (second : Tokenization source start tokens' ending') : tokens = tokens' ∧ ending = ending' := by
  have empty : ∀ {word kind}, ¬ Longest IsWord (source.drop source.length) word kind := by
    intro word kind longest
    have within := longest.within
    rw [List.drop_length, List.prefix_nil] at within
    exact longest.labelled.ne_nil within
  induction first generalizing tokens' ending' with
  | done =>
    generalize same : source.length = stop at second
    cases second with
    | done => exact ⟨rfl, rfl⟩
    | stuck inside none => exact absurd inside (same ▸ Nat.lt_irrefl _)
    | token longest onward => exact absurd (same ▸ longest) empty
  | stuck inside none =>
    cases second with
    | done => exact absurd inside (Nat.lt_irrefl _)
    | stuck => exact ⟨rfl, rfl⟩
    | token longest onward => exact absurd longest.labelled (none _ _ longest.within)
  | token longest onward ih =>
    cases second with
    | done => exact absurd longest empty
    | stuck inside none => exact absurd longest.labelled (none _ _ longest.within)
    | token longest' onward' =>
      cases longest.word_unique longest'
      cases longest.labelled.unique longest'.labelled
      obtain ⟨rfl, rfl⟩ := ih onward'
      exact ⟨rfl, rfl⟩

/-- The tokens go to the end of the source, or up to its first stray. -/
theorem strays (tokenization : Tokenization source start tokens ending)
    (clear : Clear source start) :
    (ending = .complete ∧ ∀ place, start ≤ place → ¬ Stray source place) ∨
    ∃ stop location, ending = .failed (.emptyToken stop) location ∧ start ≤ stop ∧
      Stray source stop ∧ ∀ place, start ≤ place → place < stop → ¬ Stray source place := by
  induction tokenization with
  | done =>
    refine .inl ⟨rfl, fun place after stray => ?_⟩
    obtain ⟨byte, found, _⟩ := stray
    rw [List.getElem?_eq_none after] at found
    cases found
  | stuck inside none =>
    refine .inr ⟨_, _, rfl, Nat.le_refl _, stray_of_stuck inside clear none, ?_⟩
    intro place after before
    omega
  | @token start word kind later ending longest onward ih =>
    -- No stray lies within a token, so a first stray is one behind it.
    have here : ∀ place, start ≤ place → place < start + word.length → ¬ Stray source place :=
      fun _ => no_stray_within longest
    rcases ih (clear.onward longest) with
      ⟨complete, beyond⟩ | ⟨stop, location, failed, after, stray, between⟩
    · refine .inl ⟨complete, fun place low => ?_⟩
      by_cases near : place < start + word.length
      · exact here place low near
      · exact beyond place (Nat.not_lt.mp near)
    · refine .inr ⟨stop, location, failed, by omega, stray, fun place low high => ?_⟩
      by_cases near : place < start + word.length
      · exact here place low near
      · exact between place (Nat.not_lt.mp near) high

theorem complete_iff (tokenization : Tokenization source 0 tokens ending) :
    ending = .complete ↔ ∀ place, ¬ Stray source place := by
  rcases tokenization.strays nofun with ⟨rfl, none⟩ | ⟨stop, location, rfl, _, stray, _⟩
  · exact ⟨fun _ place => none place (Nat.zero_le _), fun _ => rfl⟩
  · exact ⟨nofun, fun none => absurd stray (none stop)⟩

theorem failed_iff (tokenization : Tokenization source 0 tokens ending) {stop : Nat} :
    (∃ location, ending = .failed (.emptyToken stop) location) ↔
      Stray source stop ∧ ∀ place < stop, ¬ Stray source place := by
  rcases tokenization.strays nofun with ⟨rfl, none⟩ | ⟨stop', location, rfl, _, stray, first⟩
  · constructor
    · rintro ⟨_, ⟨⟩⟩
    · exact fun found => absurd found.1 (none stop (Nat.zero_le _))
  · constructor
    · rintro ⟨_, ⟨⟩⟩
      exact ⟨stray, fun place before => first place (Nat.zero_le _) before⟩
    · rintro ⟨stray', first'⟩
      obtain rfl : stop = stop' := by
        by_contra different
        rcases Nat.lt_or_gt_of_ne different with before | before
        · exact first stop (Nat.zero_le _) before stray'
        · exact first' stop' before stray
      exact ⟨location, rfl⟩

end Tokenization

theorem Kind.cells_size (kind : Kind) (source : List UInt8) (start length : Nat) :
    (kind.cells source start length).size = 2 := by
  cases kind <;> rfl

theorem Kind.cells_fraction {source word : List UInt8} {start place : Nat} {kind : Kind}
    (within : word <+: source.drop start) (member : IsWord word kind)
    (marked : (kind.cells source start word.length)[fractionCell.val]? = some (some place)) :
    start < place ∧ place < start + word.length := by
  cases kind with
  | number =>
    obtain ⟨rest, shape⟩ := within
    rw [Kind.cells, ← shape, List.take_left] at marked
    change some (if _ then _ else _) = _ at marked
    rw [Option.some_inj, Option.ite_none_right_eq_some] at marked
    obtain ⟨pointed, ⟨⟩⟩ := marked
    rcases mem_number.mp member with digits | ⟨whole, fraction, digits, digits', rfl⟩
    · cases digit_of_mem digits pointed
    · have taken : (whole ++ '.'.toUInt8 :: fraction).takeWhile digit = whole :=
        takeWhile_digit digits (by rintro _ ⟨⟩; rfl)
      have nonempty := List.length_pos_iff.mpr (mem_many.mp digits').1
      rw [taken, List.length_append, List.length_cons]
      omega
  | _ => cases marked

theorem Tokenization.cells_sound {source : List UInt8} {start : Nat} {tokens : List Token}
    {ending : Ending} (tokenization : Tokenization source start tokens ending) :
    ∀ token ∈ tokens, token.captures.size = 2 ∧
      ∀ place, token.captures[fractionCell.val]? = some (some place) →
        token.start < place ∧ place < token.start + token.len := by
  induction tokenization with
  | done => exact List.forall_mem_nil _
  | stuck => exact List.forall_mem_nil _
  | token longest _ ih =>
    refine List.forall_mem_cons.mpr ⟨⟨Kind.cells_size _ _ _ _, fun place => ?_⟩, ih⟩
    exact Kind.cells_fraction longest.within longest.labelled

end TableLexer.Sample
