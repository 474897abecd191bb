import TableLexer.Proofs.Fallible
import TableLexer.Proofs.Program.Encoding
import TableLexer.Proofs.Tables.Entries

/-! Interned programs are read back from the blob. Interning only appends to the blob, so an address
keeps its program however many others are interned after it. -/

set_option autoImplicit false

namespace TableLexer.Interner

variable {before middle after interner : Interner} {used more : List Program}

/-- An address stands for a program: zero for the empty one and the place of its bytes for any
other. -/
def Names (interner : Interner) (address : Int16) (program : Program) : Prop :=
  if program = [] then address = 0
  else 0 < address ∧ Program.decode interner.code.toList address.toInt.toNat = .ok program

/-- Every address that was given out stands for its program, and no program starts at zero. -/
structure Sound (interner : Interner) : Prop where
  started : 0 < interner.code.size
  known : ∀ entry ∈ interner.known, interner.Names entry.2 entry.1

structure Extends (before after : Interner) (used : List Program) : Prop where
  sound : after.Sound
  grown : before.code.toList <+: after.code.toList
  nothing_iff : after.known = [] ↔ before.known = [] ∧ ∀ program ∈ used, program = []

theorem sound_empty : empty.Sound where
  started := Nat.one_pos
  known := by
    intro entry member
    cases member

theorem extends_nil (sound : interner.Sound) : interner.Extends interner [] where
  sound := sound
  grown := List.prefix_refl _
  nothing_iff := by simp

theorem Extends.trans (first : before.Extends middle used) (second : middle.Extends after more) :
    before.Extends after (used ++ more) where
  sound := second.sound
  grown := first.grown.trans second.grown
  nothing_iff := by
    rw [second.nothing_iff, first.nothing_iff, List.forall_mem_append, and_assoc]

theorem Names.of_grown {address : Int16} {program : Program}
    (named : before.Names address program) (grown : before.code.toList <+: after.code.toList) :
    after.Names address program := by
  unfold Names at named ⊢
  by_cases empty : program = []
  · rw [if_pos empty] at named ⊢
    exact named
  · rw [if_neg empty] at named ⊢
    exact ⟨named.1, Program.decode_of_grown grown named.2⟩

theorem Names.of_extends {address : Int16} {program : Program}
    (named : before.Names address program) (extended : before.Extends after used) :
    after.Names address program :=
  named.of_grown extended.grown

theorem intern_new {program : Program} {address : Int16} (sound : interner.Sound)
    (nonempty : program ≠ []) (made : tableEntry .code interner.code.size = .ok address) :
    let after : Interner :=
      { code := interner.code ++ program.encode, known := (program, address) :: interner.known }
    interner.Extends after [program] ∧ after.Names address program := by
  intro after
  obtain ⟨small, place⟩ := tableEntry_eq_ok_iff.mp made
  have number : address.toInt = interner.code.size := by
    rw [place]
    exact toInt_ofNat_small small
  have grown : interner.code.toList <+: after.code.toList := by
    rw [Array.toList_appendList]
    exact List.prefix_append _ _
  -- The blob starts with a byte of its own, so the place of a new program is not zero.
  have named : after.Names address program := by
    rw [Names, if_neg nonempty, entry_pos_iff, number, Array.toList_appendList, Int.toNat_natCast]
    exact ⟨Int.natCast_pos.mpr sound.started, Program.decode_laid_out _ _⟩
  have bigger : 0 < after.code.size := by
    rw [← Array.length_toList]
    exact Nat.lt_of_lt_of_le sound.started grown.length_le
  refine ⟨⟨⟨bigger, ?_⟩, grown, ?_⟩, named⟩
  · intro entry member
    rcases List.mem_cons.mp member with rfl | member
    · exact named
    · exact (sound.known entry member).of_grown grown
  · simp [after, nonempty]

theorem intern_extends {program : Program} {address : Int16} (sound : interner.Sound)
    (interned : interner.intern program = .ok (address, after)) :
    interner.Extends after [program] ∧ after.Names address program := by
  unfold intern at interned
  by_cases empty : program = []
  · rw [if_pos (List.isEmpty_iff.mpr empty)] at interned
    cases interned
    refine ⟨⟨sound, List.prefix_refl _, ?_⟩, ?_⟩
    · simp [empty]
    · rw [Names, if_pos empty]
  · rw [if_neg (by rwa [List.isEmpty_iff])] at interned
    cases found : interner.known.lookup program with
    | some address' =>
      rw [found] at interned
      cases interned
      obtain ⟨_, _, known, _⟩ := List.lookup_eq_some_iff.mp found
      -- A program that was met before keeps its address and the blob stays as it is.
      have member : (program, address) ∈ after.known := by simp [known]
      refine ⟨⟨sound, List.prefix_refl _, ?_⟩, sound.known _ member⟩
      simp [empty, List.ne_nil_of_mem member]
    | none =>
      simp only [found, bind_eq_ok_iff, pure_eq_ok, Except.ok.injEq, Prod.mk.injEq] at interned
      obtain ⟨place, made, rfl, rfl⟩ := interned
      exact intern_new sound empty made

end TableLexer.Interner
