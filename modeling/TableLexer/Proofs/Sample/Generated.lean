import TableLexer.Proofs.Sample.Draws
import TableLexer.Proofs.Sample.Scan
import TableLexer.Proofs.Text.Utf8
import TableLexer.Sample.Source

/-! Random sources scan without an error. Runs merge where they meet: a slash and a slash open a
comment, a number goes on in the next one. This does no harm, because a run either has only
characters with which a word can begin, or is a comment from its slashes to its newline, so that no
byte is ever exposed that no word begins with. -/

set_option autoImplicit false

namespace TableLexer.Sample

def Opens (char : Char) : Prop :=
  IsAscii char ∧ Starts char.toUInt8

instance (char : Char) : Decidable (Opens char) :=
  inferInstanceAs (Decidable (_ ∧ _))

def Comments (char : Char) : Prop :=
  IsAscii char ∧ char ≠ '\n'

instance (char : Char) : Decidable (Comments char) :=
  inferInstanceAs (Decidable (_ ∧ _))

/-- The two kinds of runs. -/
inductive Harmless : List Char → Prop where
  | words {run : List Char} : (∀ char ∈ run, Opens char) → Harmless run
  | comment {text : List Char} :
      (∀ char ∈ text, Comments char) → Harmless ('/' :: '/' :: text ++ ['\n'])

structure IsRun (run : List Char) : Prop where
  harmless : Harmless run
  some : run ≠ []
  short : run.length ≤ 43

/-- The characters of a list are checked one by one, and not all characters there are. -/
theorem forall_of_all {holds : Char → Prop} [DecidablePred holds] {chars : List Char}
    (checked : chars.all (fun char => decide (holds char)) = true) :
    ∀ char ∈ chars, holds char :=
  fun char member => of_decide_eq_true (List.all_eq_true.mp checked char member)

theorem letters_open : ∀ char ∈ letters, Opens char :=
  forall_of_all (by decide +kernel)

theorem decimals_open : ∀ char ∈ decimals, Opens char :=
  forall_of_all (by decide +kernel)

theorem blanks_open : ∀ char ∈ blanks, Opens char :=
  forall_of_all (by decide +kernel)

theorem commentChars_comment : ∀ char ∈ commentChars, Comments char :=
  forall_of_all (by decide +kernel)

theorem operators_open {mark : List Char} (listed : mark ∈ operators) :
    mark ≠ [] ∧ mark.length ≤ 2 ∧ ∀ char ∈ mark, Opens char := by
  have checked : ∀ mark ∈ operators, mark ≠ [] ∧ mark.length ≤ 2 ∧
      mark.all (fun char => decide (Opens char)) = true := by
    decide +kernel
  obtain ⟨some, short, opens⟩ := checked mark listed
  exact ⟨some, short, forall_of_all opens⟩

theorem isRun_words {run : List Char} (opens : ∀ char ∈ run, Opens char) (long : 0 < run.length)
    (short : run.length ≤ 43) : IsRun run :=
  ⟨.words opens, List.length_pos_iff.mp long, short⟩

theorem point_opens : Opens '.' := by decide +kernel

section

variable {σ : Type} {generator : Generator σ} (inRange : generator.InRange)

include inRange

theorem letter_yields : (generator.oneOf letters).Yields Opens :=
  (inRange.oneOf_yields (by decide)).mono letters_open

theorem decimal_yields : (generator.oneOf decimals).Yields Opens :=
  (inRange.oneOf_yields (by decide)).mono decimals_open

theorem identChar_yields : (identChar generator).Yields Opens := by
  unfold identChar
  apply (Generator.chance_yields letterChance).bind
  intro letter _
  exact .ite (fun _ => letter_yields inRange) (fun _ => decimal_yields inRange)

theorem ident_yields : (ident generator).Yields IsRun := by
  unfold ident
  apply (inRange.range_yields (by decide)).bind
  rintro length ⟨long, short⟩
  apply (letter_yields inRange).bind
  intro first opens
  apply (Draw.times_yields (identChar_yields inRange) (length - 1)).bind
  rintro rest ⟨count, others⟩
  apply Draw.Yields.pure
  apply isRun_words (List.forall_mem_cons.mpr ⟨opens, others⟩) (Nat.succ_pos _)
  rw [List.length_cons]
  omega

theorem number_yields : (number generator).Yields IsRun := by
  unfold number
  apply (inRange.range_yields (by decide)).bind
  rintro count ⟨long, short⟩
  apply (Draw.times_yields (decimal_yields inRange) count).bind
  rintro integer ⟨rfl, digits⟩
  apply (inRange 4 (by decide)).bind
  intro roll _
  split
  · apply (inRange.range_yields (by decide)).bind
    rintro count ⟨_, short'⟩
    apply (Draw.times_yields (decimal_yields inRange) count).bind
    rintro fraction ⟨rfl, digits'⟩
    apply Draw.Yields.pure
    apply isRun_words
    · exact List.forall_mem_append.mpr ⟨digits, List.forall_mem_cons.mpr ⟨point_opens, digits'⟩⟩
    · simp
    · rw [List.length_append, List.length_cons]
      omega
  · apply Draw.Yields.pure
    apply isRun_words
    · exact List.forall_mem_append.mpr ⟨digits, List.forall_mem_singleton.mpr point_opens⟩
    · simp
    · rw [List.length_append, List.length_singleton]
      omega
  · exact .pure (isRun_words digits long (by omega))

theorem white_yields : (white generator).Yields IsRun := by
  unfold white
  apply (inRange.range_yields (by decide)).bind
  rintro count ⟨long, short⟩
  have blank := (inRange.oneOf_yields (by decide)).mono blanks_open
  apply (Draw.times_yields blank count).mono
  rintro run ⟨rfl, opens⟩
  exact isRun_words opens long (by omega)

theorem lineComment_yields : (lineComment generator).Yields IsRun := by
  unfold lineComment
  apply (inRange.range_yields (by decide)).bind
  rintro count ⟨_, short⟩
  have comments := (inRange.oneOf_yields (by decide)).mono commentChars_comment
  apply (Draw.times_yields comments count).bind
  rintro text ⟨rfl, each⟩
  apply Draw.Yields.pure
  refine ⟨.comment each, List.cons_ne_nil _ _, ?_⟩
  rw [List.length_append, List.length_cons, List.length_cons, List.length_singleton]
  omega

theorem operator_yields : (operator generator).Yields IsRun := by
  unfold operator
  apply (inRange operators.length (by decide)).bind
  intro index inside
  obtain ⟨some, short, opens⟩ := operators_open (getD_mem inside [])
  apply (Generator.chance_yields spaceChance).bind
  intro spaced _
  apply Draw.Yields.ite
  · intro _
    apply Draw.Yields.pure
    apply isRun_words
    · exact List.forall_mem_append.mpr ⟨opens, List.forall_mem_singleton.mpr (by decide +kernel)⟩
    · simp
    · rw [List.length_append, List.length_singleton]
      omega
  · intro _
    exact .pure (isRun_words opens (List.length_pos_iff.mpr some) (by omega))

theorem lexemeRun_yields : (lexemeRun generator).Yields IsRun := by
  unfold lexemeRun
  apply (inRange 100 (by decide)).bind
  intro roll _
  apply Draw.Yields.ite (fun _ => ident_yields inRange)
  intro _
  apply Draw.Yields.ite (fun _ => number_yields inRange)
  intro _
  apply Draw.Yields.ite (fun _ => white_yields inRange)
  intro _
  exact .ite (fun _ => lineComment_yields inRange) (fun _ => operator_yields inRange)

end

section

variable {first second text rest : List UInt8} {place : Nat}

theorem stray_of_append (before : place < first.length) (stray : Stray (first ++ second) place) :
    Stray first place := by
  obtain ⟨byte, found, never, outside⟩ := stray
  rw [List.getElem?_append_left before] at found
  refine ⟨byte, found, never, ?_⟩
  rintro ⟨mark, low, ⟨slash, slash'⟩, continues⟩
  have inside : mark + 1 < first.length := (List.getElem?_eq_some_iff.mp slash').1
  refine outside ⟨mark, low, ⟨?_, ?_⟩, ?_⟩
  · rw [List.getElem?_append_left (by omega)]
    exact slash
  · rw [List.getElem?_append_left inside]
    exact slash'
  · intro between within after
    rw [List.getElem?_append_left (by omega)]
    exact continues between within after

theorem inComment_of_open (each : ∀ byte ∈ text, byte ≠ '\n'.toUInt8)
    (after : first.length ≤ place) (before : place < first.length + (text.length + 2)) :
    InComment (first ++ ('/'.toUInt8 :: '/'.toUInt8 :: text ++ rest)) place := by
  refine ⟨first.length, after, ⟨?_, ?_⟩, ?_⟩
  · simp
  · simp
  · intro between within low newline
    have member : '\n'.toUInt8 ∈ '/'.toUInt8 :: '/'.toUInt8 :: text := by
      rw [List.getElem?_append_right low, List.getElem?_append_left] at newline
      · exact List.mem_of_getElem? newline
      · simp only [List.length_cons]
        omega
    simp only [List.mem_cons] at member
    rcases member with same | same | member
    · exact absurd same (by decide)
    · exact absurd same (by decide)
    · exact each _ member rfl

end

/-- Text of one-byte characters that exposes no byte with which no word begins. -/
structure Clean (text : List Char) : Prop where
  ascii : ∀ char ∈ text, IsAscii char
  exposed : ∀ place, ¬ Stray (text.map Char.toUInt8) place

theorem clean_nil : Clean [] where
  ascii := List.forall_mem_nil _
  exposed := by
    rintro place ⟨byte, found, _⟩
    cases found

theorem Harmless.ascii {run : List Char} (harmless : Harmless run) :
    ∀ char ∈ run, IsAscii char := by
  cases harmless with
  | words opens => exact fun char member => (opens char member).1
  | @comment text each =>
    intro char member
    simp only [List.mem_append, List.mem_cons, List.not_mem_nil, or_false] at member
    rcases member with (rfl | rfl | member) | rfl
    · decide
    · decide
    · exact (each char member).1
    · decide

theorem newline_starts : Starts '\n'.toUInt8 := by decide +kernel

theorem toUInt8_ne_newline {char : Char} (comments : Comments char) :
    char.toUInt8 ≠ '\n'.toUInt8 := by
  intro same
  have read := congrArg Char.ofUInt8 same
  rw [ofUInt8_toUInt8 comments.1, ofUInt8_toUInt8 (by decide)] at read
  exact comments.2 read

theorem Harmless.exposed {run : List Char} (harmless : Harmless run) {first : List UInt8}
    {place : Nat} (after : first.length ≤ place) :
    ¬ Stray (first ++ run.map Char.toUInt8) place := by
  rintro ⟨byte, found, never, outside⟩
  rw [List.getElem?_append_right after] at found
  cases harmless with
  | words opens =>
    obtain ⟨char, member, rfl⟩ := List.mem_map.mp (List.mem_of_getElem? found)
    exact never (opens char member).2
  | @comment text each =>
    let body := text.map Char.toUInt8
    have shape : ('/' :: '/' :: text ++ ['\n']).map Char.toUInt8 =
        '/'.toUInt8 :: '/'.toUInt8 :: body ++ ['\n'.toUInt8] := by
      simp [body]
    rw [shape] at found outside
    by_cases opened : place < first.length + (body.length + 2)
    · refine outside (inComment_of_open ?_ after opened)
      intro byte member
      obtain ⟨char, inside, rfl⟩ := List.mem_map.mp member
      exact toUInt8_ne_newline (each char inside)
    · -- Only the newline is left, and blanks are words.
      rw [List.getElem?_append_right (by simp only [List.length_cons]; omega)] at found
      rw [List.mem_singleton.mp (List.mem_of_getElem? found)] at never
      exact never newline_starts

theorem Clean.append {text run : List Char} (clean : Clean text) (harmless : Harmless run) :
    Clean (text ++ run) where
  ascii := List.forall_mem_append.mpr ⟨clean.ascii, harmless.ascii⟩
  exposed := by
    intro place stray
    rw [List.map_append] at stray
    rcases Nat.lt_or_ge place (text.map Char.toUInt8).length with before | after
    · exact clean.exposed place (stray_of_append before stray)
    · exact harmless.exposed after stray

section

variable {σ : Type} {generator : Generator σ}

/-- The loop that writes a source: as long as the target is not met, another run is drawn. -/
inductive Writes (generator : Generator σ) (target : Nat) :
    Array Char → σ → Array Char → Prop where
  | done {written : Array Char} {state : σ} :
      target ≤ written.size → Writes generator target written state written
  | run {written result : Array Char} {state : σ} :
      written.size < target →
      Writes generator target (written ++ ((lexemeRun generator).run state).1)
        ((lexemeRun generator).run state).2 result →
      Writes generator target written state result

/-- The loop ends, for every run brings it closer to the target. -/
theorem sourceAfter_writes (inRange : generator.InRange) {target : Nat} (runs : Nat)
    {written : Array Char} (state : σ) (enough : target ≤ written.size + runs) :
    Writes generator target written state
      ((sourceAfter generator target runs written).run state).1 := by
  induction runs generalizing written state with
  | zero => exact .done enough
  | succ runs ih =>
    unfold sourceAfter
    by_cases met : target ≤ written.size
    · rw [if_pos met]
      exact .done met
    · rw [if_neg met]
      have drawn := (lexemeRun_yields inRange).drawn state
      have longer := List.length_pos_iff.mpr drawn.some
      refine .run (Nat.lt_of_not_le met) (ih ((lexemeRun generator).run state).2 ?_)
      rw [size_appendList]
      omega

theorem Writes.clean (inRange : generator.InRange) {target : Nat} {written result : Array Char}
    {state : σ} (writes : Writes generator target written state result)
    (clean : Clean written.toList) (near : written.size ≤ target + 42) :
    Clean result.toList ∧ target ≤ result.size ∧ result.size ≤ target + 42 := by
  induction writes with
  | done met => exact ⟨clean, met, near⟩
  | @run written result state short _ ih =>
    have drawn := (lexemeRun_yields inRange).drawn state
    apply ih
    · rw [Array.toList_appendList]
      exact clean.append drawn.harmless
    · have few := drawn.short
      rw [size_appendList]
      omega

end

theorem Tokenization.total {source : List UInt8} {start : Nat} {tokens : List Token}
    {ending : Ending} (tokenization : Tokenization source start tokens ending)
    (complete : ending = .complete) :
    start + (tokens.map Token.len).sum = source.length := by
  induction tokenization with
  | done => rfl
  | stuck => cases complete
  | token longest _ ih =>
    rw [List.map_cons, List.sum_cons, ← Nat.add_assoc]
    exact ih complete

theorem Clean.scans {text : List Char} (clean : Clean text) (small : text.length < wordLimit) :
    ∃ tables, Sample.tables = .ok tables ∧ ∃ tokens : List Token,
      tables.scanBytes (text.map Char.toUInt8) =
        { reports := tokens.toArray, ending := .complete } ∧
      (tokens.map Token.len).sum = text.length := by
  obtain ⟨tables, captures, made⟩ := exists_made
  have whole : [text.map Char.toUInt8].flatten = text.map Char.toUInt8 := List.flatten_singleton
  have small' : (text.map Char.toUInt8).length < wordLimit := by
    rw [List.length_map]
    exact small
  obtain ⟨tokens, ending, scanned, tokenization⟩ := made.scan_tokenization small' whole
  have complete := tokenization.complete_iff.mpr clean.exposed
  have total := tokenization.total complete
  rw [Nat.zero_add, List.length_map] at total
  exact ⟨tables, made.made, tokens, complete ▸ scanned, total⟩

/-- Whatever a generator draws, as long as it stays in range, the loop that writes a source ends,
with text of one-byte characters that is as long as asked for and at most 42 characters longer; it
is handed out when there is room to reserve. The sample tables scan this text to its end. -/
theorem source_scans {σ : Type} {generator : Generator σ} (inRange : generator.InRange)
    {target : Nat} (small : target + target / 8 < wordLimit) (state : σ) :
    let text := ((source generator target).run state).1
    let bytes := Utf8.encode (.ofList text)
    (sourceFrom? generator target =
      if maxText < target + target / 8 then .error .capacity
      else .ok (source generator target)) ∧
    Writes generator target #[] state text.toArray ∧ (∀ char ∈ text, IsAscii char) ∧
    target ≤ bytes.length ∧ bytes.length ≤ target + 42 ∧ (target = 0 → text = []) ∧
    ∃ tables, Sample.tables = .ok tables ∧ ∃ tokens : List Token,
      tables.scanBytes bytes = { reports := tokens.toArray, ending := .complete } ∧
      (tokens.map Token.len).sum = bytes.length := by
  intro text bytes
  have writes : Writes generator target #[] state text.toArray :=
    sourceAfter_writes inRange target state (Nat.le_add_left _ _)
  obtain ⟨clean, long, short⟩ := writes.clean inRange clean_nil (Nat.zero_le _)
  change Clean text at clean
  change target ≤ text.length at long
  change text.length ≤ target + 42 at short
  have encoded : bytes = text.map Char.toUInt8 := Utf8.encode_ofList clean.ascii
  have length : bytes.length = text.length := by rw [encoded, List.length_map]
  rw [length, encoded]
  refine ⟨?_, writes, clean.ascii, long, short, ?_, ?_⟩
  · rw [sourceFrom?, if_neg (Nat.not_le.mpr small)]
  · rintro rfl
    rfl
  · apply clean.scans
    simp only [wordLimit, UInt64.size] at small ⊢
    omega

def slashWords : RandomWords where
  word index :=
    match index % 3 with
    | 0 => 0xF0000000
    | 1 => 0xA0000000
    | _ => 0xFFFFFFFFFFFFFFFF
  used := 0

/-- Three slashes that are drawn one by one are a comment. -/
theorem source_scans_slashes :
    RandomWords.generator.InRange ∧ 3 + 3 / 8 < wordLimit ∧
    ((source RandomWords.generator 3).run slashWords).1 = ['/', '/', '/'] ∧
    Writes RandomWords.generator 3 #[] slashWords #['/', '/', '/'] ∧
    ∃ tables, Sample.tables = .ok tables ∧ ∃ tokens : List Token,
      tables.scanBytes [47, 47, 47] = { reports := tokens.toArray, ending := .complete } ∧
      (tokens.map Token.len).sum = 3 := by
  have inRange := RandomWords.generator_inRange
  have drawn : ((source RandomWords.generator 3).run slashWords).1 = ['/', '/', '/'] := by
    decide +kernel
  have encoded : Utf8.encode (.ofList ['/', '/', '/']) = [47, 47, 47] :=
    Utf8.encode_ofList (forall_of_all (by decide))
  obtain ⟨_, writes, _, _, _, _, scans⟩ :=
    source_scans inRange (show 3 + 3 / 8 < wordLimit by decide) slashWords
  rw [drawn] at writes scans
  rw [encoded] at scans
  exact ⟨inRange, by decide, drawn, writes, scans⟩

end TableLexer.Sample
