import TableLexer.Proofs.Automaton.Capacity

/-! A run of interning calls on one interner, whether they succeed or not. A call writes to the
interner only when nothing can fail any more. Every program that was given an address keeps it, no
other program is given the same one, and the blob holds the programs in the order of first use. -/

set_option autoImplicit false

namespace TableLexer

namespace Interner

variable {interner after : Interner} {program : Program} {address : Int16}

/-- Calls on one interner. What is written before a failure stays written. -/
abbrev Calling := ExceptT TableError (StateM Interner)

theorem run_bind {α β : Type} (first : Calling α) (next : α → Calling β) (interner : Interner) :
    (first >>= next).run.run interner =
      match first.run.run interner with
      | (.ok value, after) => (next value).run.run after
      | (.error error, after) => (.error error, after) := by
  unfold ExceptT.run StateT.run
  simp only [bind, ExceptT.bind, ExceptT.mk, StateT.bind, ExceptT.bindCont]
  cases first interner with
  | mk outcome after => cases outcome <;> rfl

theorem run_get (interner : Interner) :
    (get : Calling Interner).run.run interner = (.ok interner, interner) := rfl

/-- Interning as a call: the program is appended to the blob and then entered with its address. -/
def call (program : Program) : Calling Int16 := do
  if program.isEmpty then return 0
  let interner ← get
  match interner.known.lookup program with
  | some address => return address
  | none =>
    let address ← ofExcept (tableEntry .code interner.code.size)
    modify fun interner => { interner with code := interner.code ++ program.encode }
    modify fun interner => { interner with known := (program, address) :: interner.known }
    return address

/-- A call that succeeds is `intern`, and one that fails leaves the interner as it was. -/
theorem call_run (interner : Interner) (program : Program) :
    (call program).run.run interner =
      match interner.intern program with
      | .ok (address, after) => (.ok address, after)
      | .error error => (.error error, interner) := by
  unfold call intern
  cases program.isEmpty with
  | true => rfl
  | false =>
    simp only [Bool.false_eq_true, if_false, run_bind, run_get]
    cases interner.known.lookup program with
    | some address => rfl
    | none => cases tableEntry .code interner.code.size <;> rfl

theorem intern_eq_ok (interned : interner.intern program = .ok (address, after)) :
    (after = interner ∧ (program = [] ∧ address = 0 ∨ (program, address) ∈ interner.known)) ∨
      program ≠ [] ∧ interner.known.lookup program = none ∧
        after =
          { code := interner.code ++ program.encode
            known := (program, address) :: interner.known } := by
  unfold intern at interned
  by_cases empty : program = []
  · rw [if_pos (List.isEmpty_iff.mpr empty)] at interned
    cases interned
    exact .inl ⟨rfl, .inl ⟨empty, rfl⟩⟩
  · rw [if_neg (by rwa [List.isEmpty_iff])] at interned
    cases found : interner.known.lookup program with
    | some known =>
      rw [found] at interned
      cases interned
      obtain ⟨_, _, shape, _⟩ := List.lookup_eq_some_iff.mp found
      exact .inl ⟨rfl, .inr (by simp [shape])⟩
    | none =>
      simp only [found, bind_eq_ok_iff, pure_eq_ok, Except.ok.injEq, Prod.mk.injEq] at interned
      obtain ⟨_, _, rfl, rfl⟩ := interned
      exact .inr ⟨empty, rfl, rfl⟩

theorem intern_eq_error_iff {error : TableError} :
    interner.intern program = .error error ↔
      program ≠ [] ∧ interner.known.lookup program = none ∧ 32768 ≤ interner.code.size ∧
        error = .overflow .code := by
  unfold intern
  by_cases empty : program = []
  · simp [empty]
  · rw [if_neg (by rwa [List.isEmpty_iff])]
    cases found : interner.known.lookup program with
    | some known => simp
    | none =>
      by_cases small : interner.code.size < 32768
      · simp [tableEntry, small]
      · have full := Nat.not_lt.mp small
        simp [tableEntry, small, full, empty, eq_comm]

end Interner

structure Ledger where
  answers : List (Program × Except TableError Int16)
  interner : Interner

def addressed? (call : Program × Except TableError Int16) : Option Program :=
  if call.1 ≠ [] ∧ call.2.isOk then some call.1 else none

/-- The programs that were given an address of their own, each once, in the order of first use. -/
def firstUses (answers : List (Program × Except TableError Int16)) : List Program :=
  (answers.filterMap addressed?).eraseDups

theorem firstUses_snoc (answers : List (Program × Except TableError Int16))
    (call : Program × Except TableError Int16) :
    firstUses (answers ++ [call]) =
      if call.1 ≠ [] ∧ call.2.isOk ∧ call.1 ∉ firstUses answers then firstUses answers ++ [call.1]
      else firstUses answers := by
  simp only [firstUses, List.filterMap_append, List.mem_eraseDups, List.eraseDups_append]
  by_cases used : call.1 ≠ [] ∧ call.2.isOk
  · by_cases known : call.1 ∈ answers.filterMap addressed?
    · simp [List.removeAll, addressed?, used, known]
    · simp [List.removeAll, List.eraseDups_cons, addressed?, used, known]
  · rw [if_neg fun all => used ⟨all.1, all.2.1⟩]
    simp [List.removeAll, addressed?, used]

namespace Ledger

variable {ledger : Ledger} {program : Program}

def empty : Ledger :=
  { answers := [], interner := .empty }

def call (ledger : Ledger) (program : Program) : Ledger :=
  let (answer, interner) := (Interner.call program).run.run ledger.interner
  { answers := ledger.answers ++ [(program, answer)], interner }

def ofCalls (programs : List Program) : Ledger :=
  programs.foldl call empty

theorem call_of_ok {address : Int16} {after : Interner}
    (interned : ledger.interner.intern program = .ok (address, after)) :
    ledger.call program =
      { answers := ledger.answers ++ [(program, .ok address)], interner := after } := by
  rw [call, Interner.call_run, interned]

theorem call_of_error {error : TableError}
    (failed : ledger.interner.intern program = .error error) :
    ledger.call program =
      { ledger with answers := ledger.answers ++ [(program, .error error)] } := by
  rw [call, Interner.call_run, failed]

structure Kept (ledger : Ledger) : Prop where
  sound : ledger.interner.Sound
  nonempty : ∀ entry ∈ ledger.interner.known, entry.1 ≠ []
  distinct : (ledger.interner.known.map Prod.fst).Nodup
  order : (ledger.interner.known.map Prod.fst).reverse = firstUses ledger.answers
  laid_out : ledger.interner.code.toList = 255 :: (firstUses ledger.answers).flatMap Program.encode
  answered : ∀ program answer, (program, answer) ∈ ledger.answers →
    match answer with
    | .ok address => program = [] ∧ address = 0 ∨ (program, address) ∈ ledger.interner.known
    | .error error => program ≠ [] ∧ error = .overflow .code

theorem empty_kept : empty.Kept where
  sound := Interner.sound_empty
  nonempty := nofun
  distinct := List.nodup_nil
  order := rfl
  laid_out := rfl
  answered := nofun

theorem Kept.mem_firstUses_iff (kept : ledger.Kept) :
    program ∈ firstUses ledger.answers ↔ ∃ address, (program, address) ∈ ledger.interner.known := by
  rw [← kept.order, List.mem_reverse, List.mem_map]
  constructor
  · rintro ⟨⟨_, address⟩, member, rfl⟩
    exact ⟨address, member⟩
  · rintro ⟨address, member⟩
    exact ⟨(program, address), member, rfl⟩

theorem Kept.lookup_eq_none_iff (kept : ledger.Kept) :
    ledger.interner.known.lookup program = none ↔ program ∉ firstUses ledger.answers := by
  rw [kept.mem_firstUses_iff, List.lookup_eq_none_iff]
  constructor
  · rintro fresh ⟨address, member⟩
    have differs := fresh _ member
    simp at differs
  · intro absent entry member
    rw [bne_iff_ne]
    rintro rfl
    exact absent ⟨entry.2, member⟩

theorem Kept.same (kept : ledger.Kept) {answer : Except TableError Int16}
    (answered : match answer with
      | .ok address => program = [] ∧ address = 0 ∨ (program, address) ∈ ledger.interner.known
      | .error error => program ≠ [] ∧ error = .overflow .code) :
    Kept { ledger with answers := ledger.answers ++ [(program, answer)] } := by
  have uses : firstUses (ledger.answers ++ [(program, answer)]) = firstUses ledger.answers := by
    rw [firstUses_snoc, if_neg]
    rintro ⟨nonempty, succeeds, fresh⟩
    cases answer with
    | error error => cases succeeds
    | ok address =>
      rcases answered with ⟨empty, _⟩ | known
      · exact nonempty empty
      · exact fresh (kept.mem_firstUses_iff.mpr ⟨address, known⟩)
  refine ⟨kept.sound, kept.nonempty, kept.distinct, ?_, ?_, ?_⟩
  · rw [uses]
    exact kept.order
  · rw [uses]
    exact kept.laid_out
  · intro program' answer' member
    rcases List.mem_append.mp member with old | new
    · exact kept.answered program' answer' old
    · rw [List.mem_singleton] at new
      cases new
      exact answered

theorem Kept.call (kept : ledger.Kept) (program : Program) : (ledger.call program).Kept := by
  cases interned : ledger.interner.intern program with
  | error error =>
    obtain ⟨nonempty, _, _, rfl⟩ := Interner.intern_eq_error_iff.mp interned
    rw [call_of_error interned]
    exact kept.same ⟨nonempty, rfl⟩
  | ok result =>
    obtain ⟨address, after⟩ := result
    have sound := (Interner.intern_extends kept.sound interned).1.sound
    rw [call_of_ok interned]
    rcases Interner.intern_eq_ok interned with ⟨rfl, found⟩ | ⟨nonempty, fresh, rfl⟩
    · exact kept.same found
    · have unused := kept.lookup_eq_none_iff.mp fresh
      have uses : firstUses (ledger.answers ++ [(program, .ok address)]) =
          firstUses ledger.answers ++ [program] := by
        rw [firstUses_snoc, if_pos ⟨nonempty, rfl, unused⟩]
      refine ⟨sound, ?_, ?_, ?_, ?_, ?_⟩
      · intro entry member
        rcases List.mem_cons.mp member with rfl | old
        · exact nonempty
        · exact kept.nonempty entry old
      · rw [List.map_cons, List.nodup_cons]
        refine ⟨?_, kept.distinct⟩
        rwa [← List.mem_reverse, kept.order]
      · rw [uses, List.map_cons, List.reverse_cons, kept.order]
      · rw [uses, Array.toList_appendList, kept.laid_out]
        simp
      · intro program' answer' member
        rcases List.mem_append.mp member with old | new
        · have before := kept.answered program' answer' old
          cases answer' with
          | error error => exact before
          | ok address' => exact before.imp id (List.mem_cons_of_mem _)
        · rw [List.mem_singleton] at new
          cases new
          exact .inr List.mem_cons_self

theorem ofCalls_snoc (programs : List Program) (program : Program) :
    ofCalls (programs ++ [program]) = (ofCalls programs).call program := by
  simp [ofCalls]

theorem ofCalls_kept (programs : List Program) : (ofCalls programs).Kept := by
  induction programs using List.reverseRecOn with
  | nil => exact empty_kept
  | append_singleton programs program ih =>
    rw [ofCalls_snoc]
    exact ih.call program

theorem answers_call (ledger : Ledger) (program : Program) :
    (ledger.call program).answers.map Prod.fst = ledger.answers.map Prod.fst ++ [program] :=
  List.map_append

theorem answers_ofCalls (programs : List Program) :
    (ofCalls programs).answers.map Prod.fst = programs := by
  induction programs using List.reverseRecOn with
  | nil => rfl
  | append_singleton programs program ih => rw [ofCalls_snoc, answers_call, ih]

namespace Kept

variable {address : Int16}

/-- The blob starts with an empty program, and every other address leads to the bytes it was given
out for. -/
theorem decodes (kept : ledger.Kept) (given : (program, .ok address) ∈ ledger.answers) :
    Program.decode ledger.interner.code.toList address.toInt.toNat = .ok program := by
  rcases kept.answered program _ given with ⟨rfl, rfl⟩ | known
  · rw [kept.laid_out, Program.decode_eq_read]
    exact Program.read_end _
  · have named := kept.sound.known _ known
    rw [Interner.Names, if_neg (kept.nonempty _ known)] at named
    exact named.2

theorem positive (kept : ledger.Kept) (given : (program, .ok address) ∈ ledger.answers)
    (nonempty : program ≠ []) : 0 < address := by
  rcases kept.answered program _ given with ⟨rfl, _⟩ | known
  · exact absurd rfl nonempty
  · have named := kept.sound.known _ known
    rw [Interner.Names, if_neg nonempty] at named
    exact named.1

theorem answer_empty (kept : ledger.Kept) {answer : Except TableError Int16}
    (given : ([], answer) ∈ ledger.answers) : answer = .ok 0 := by
  have answered := kept.answered [] answer given
  cases answer with
  | error error => exact absurd rfl answered.1
  | ok address =>
    rcases answered with ⟨_, rfl⟩ | known
    · rfl
    · exact absurd rfl (kept.nonempty _ known)

theorem address_eq_iff (kept : ledger.Kept) {other : Program} {address' : Int16}
    (given : (program, .ok address) ∈ ledger.answers)
    (given' : (other, .ok address') ∈ ledger.answers) : address = address' ↔ program = other := by
  constructor
  · rintro rfl
    have same := (kept.decodes given).symm.trans (kept.decodes given')
    exact Except.ok.inj same
  · rintro rfl
    rcases kept.answered program _ given with ⟨rfl, rfl⟩ | known
    · exact (Except.ok.inj (kept.answer_empty given')).symm
    · rcases kept.answered program _ given' with ⟨rfl, rfl⟩ | known'
      · exact Except.ok.inj (kept.answer_empty given)
      · exact congrArg Prod.snd (List.inj_on_of_nodup_map kept.distinct known known' rfl)

theorem call_fails_iff (kept : ledger.Kept) {error : TableError} {after : Interner} :
    (Interner.call program).run.run ledger.interner = (.error error, after) ↔
      (program ≠ [] ∧ program ∉ firstUses ledger.answers ∧
        32767 < ledger.interner.code.toList.length) ∧
      error = .overflow .code ∧ after = ledger.interner := by
  rw [← kept.lookup_eq_none_iff, Array.length_toList, Interner.call_run]
  constructor
  · intro failed
    cases interned : ledger.interner.intern program with
    | ok result =>
      rw [interned] at failed
      cases failed
    | error error' =>
      obtain ⟨nonempty, fresh, full, rfl⟩ := Interner.intern_eq_error_iff.mp interned
      rw [interned] at failed
      cases failed
      exact ⟨⟨nonempty, fresh, full⟩, rfl, rfl⟩
  · rintro ⟨⟨nonempty, fresh, full⟩, rfl, rfl⟩
    rw [Interner.intern_eq_error_iff.mpr ⟨nonempty, fresh, full, rfl⟩]

end Kept

/-- Interning is stable and injective, whatever calls are made on an interner and whether or not
they succeed. Each program that was given an address keeps it and has it alone, the empty program
has address zero and any other a positive one, and each is decoded from its address at the end. The
blob holds the programs once each, in the order of first use. A call fails when the program is new
and the blob is full, and only then, and it leaves the interner as it was. -/
theorem calls_interned (programs : List Program) :
    let ledger := ofCalls programs
    let blob := ledger.interner.code.toList
    (∀ interner program, (Interner.call program).run.run interner =
      match interner.intern program with
      | .ok (address, after) => (.ok address, after)
      | .error error => (.error error, interner)) ∧
    ledger.answers.map Prod.fst = programs ∧
    (∀ first second address address', (first, .ok address) ∈ ledger.answers →
      (second, .ok address') ∈ ledger.answers → (address = address' ↔ first = second)) ∧
    (∀ answer, ([], answer) ∈ ledger.answers → answer = .ok 0) ∧
    (∀ program address, (program, .ok address) ∈ ledger.answers →
      (program ≠ [] → 0 < address) ∧ Program.decode blob address.toInt.toNat = .ok program) ∧
    blob = 255 :: (firstUses ledger.answers).flatMap Program.encode ∧
    (firstUses ledger.answers).Nodup ∧
    ∀ program error after,
      (Interner.call program).run.run ledger.interner = (.error error, after) ↔
        (program ≠ [] ∧ program ∉ firstUses ledger.answers ∧ 32767 < blob.length) ∧
        error = .overflow .code ∧ after = ledger.interner := by
  have kept := ofCalls_kept programs
  refine ⟨Interner.call_run, answers_ofCalls programs, ?_, ?_, ?_, kept.laid_out, ?_, ?_⟩
  · intro first second address address' given given'
    exact kept.address_eq_iff given given'
  · intro answer given
    exact kept.answer_empty given
  · intro program address given
    exact ⟨kept.positive given, kept.decodes given⟩
  · rw [← kept.order, List.nodup_reverse]
    exact kept.distinct
  · intro program error after
    exact kept.call_fails_iff

theorem repeatedCalls_interned :
    let ledger := ofCalls [[.mark 0], [], [.mark 0], [.copy 1 0]]
    ([.mark 0], .ok 1) ∈ ledger.answers ∧ ([.copy 1 0], .ok 4) ∈ ledger.answers ∧
      ledger.interner.code.toList = [255, 0, 255, 255, 1, 0, 255] ∧
      ((1 : Int16) = 4 ↔ ([.mark 0] : Program) = [.copy 1 0]) ∧ (0 : Int16) < 4 ∧
      Program.decode ledger.interner.code.toList 4 = .ok [.copy 1 0] := by
  intro ledger
  obtain ⟨_, _, addresses, _, programs, _⟩ :=
    calls_interned [[.mark 0], [], [.mark 0], [.copy 1 0]]
  have mark : ([.mark 0], .ok 1) ∈ ledger.answers := List.mem_cons_self
  have copy : ([.copy 1 0], .ok 4) ∈ ledger.answers :=
    List.mem_cons_of_mem _ (List.mem_cons_of_mem _ (List.mem_cons_of_mem _ List.mem_cons_self))
  obtain ⟨positive, decoded⟩ := programs _ _ copy
  exact ⟨mark, copy, rfl, addresses _ _ _ _ mark copy, positive nofun, decoded⟩

end Ledger

end TableLexer
