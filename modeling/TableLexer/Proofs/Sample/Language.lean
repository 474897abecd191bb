import Mathlib.Computability.Language
import TableLexer.Sample.Grammar

/-! The words of the sample grammar, kind by kind, as regular languages over bytes. This is what the
grammar is meant to be; nothing here speaks of states or tables. -/

set_option autoImplicit false

open Computability

namespace TableLexer.Sample

def within (low high : Char) (byte : UInt8) : Bool :=
  decide (low.toUInt8 ≤ byte ∧ byte ≤ high.toUInt8)

def digit (byte : UInt8) : Bool :=
  within '0' '9' byte

def wordStart (byte : UInt8) : Bool :=
  within 'a' 'z' byte || within 'A' 'Z' byte || byte == '_'.toUInt8

def wordPart (byte : UInt8) : Bool :=
  wordStart byte || digit byte

def blank (byte : UInt8) : Bool :=
  byte == ' '.toUInt8 || byte == '\t'.toUInt8 || byte == '\r'.toUInt8 || byte == '\n'.toUInt8

def notNewline (byte : UInt8) : Bool :=
  byte != '\n'.toUInt8

def one (members : UInt8 → Bool) : Language UInt8 :=
  {word | ∃ byte, members byte = true ∧ word = [byte]}

def many (members : UInt8 → Bool) : Language UInt8 :=
  one members * (one members)∗

def text (chars : List Char) : Language UInt8 :=
  {chars.map Char.toUInt8}

def Kind.language : Kind → Language UInt8
  | ident => one wordStart * (one wordPart)∗
  | number => many digit * (1 + text ['.'] * many digit)
  | white => many blank
  | lParen => text ['(']
  | rParen => text [')']
  | plus => text ['+']
  | minus => text ['-']
  | star => text ['*']
  | slash => text ['/']
  | dot => text ['.']
  | assign => text ['=']
  | eqEq => text ['=', '=']
  | lineComment => text ['/', '/'] * (one notNewline)∗

section

variable {members : UInt8 → Bool} {word : List UInt8}

theorem mem_text {chars : List Char} : word ∈ text chars ↔ word = chars.map Char.toUInt8 :=
  Iff.rfl

theorem mem_star : word ∈ (one members)∗ ↔ ∀ byte ∈ word, members byte = true := by
  rw [Language.mem_kstar]
  constructor
  · rintro ⟨words, rfl, each⟩ byte member
    obtain ⟨word, listed, member'⟩ := List.mem_flatten.mp member
    obtain ⟨byte', holds, rfl⟩ := each word listed
    rw [List.mem_singleton.mp member']
    exact holds
  · intro each
    refine ⟨word.map fun byte => [byte], ?_, ?_⟩
    · rw [← List.flatMap_def, List.flatMap_singleton']
    · intro word' listed
      obtain ⟨byte, member, rfl⟩ := List.mem_map.mp listed
      exact ⟨byte, each byte member, rfl⟩

theorem mem_one_star {others : UInt8 → Bool} :
    word ∈ one members * (one others)∗ ↔ ∃ first rest, word = first :: rest ∧
      members first = true ∧ ∀ byte ∈ rest, others byte = true := by
  rw [Language.mem_mul]
  constructor
  · rintro ⟨_, ⟨first, holds, rfl⟩, rest, each, rfl⟩
    exact ⟨first, rest, rfl, holds, mem_star.mp each⟩
  · rintro ⟨first, rest, rfl, holds, each⟩
    exact ⟨[first], ⟨first, holds, rfl⟩, rest, mem_star.mpr each, rfl⟩

theorem mem_many :
    word ∈ many members ↔ word ≠ [] ∧ ∀ byte ∈ word, members byte = true := by
  rw [many, mem_one_star]
  constructor
  · rintro ⟨first, rest, rfl, holds, each⟩
    exact ⟨List.cons_ne_nil _ _, List.forall_mem_cons.mpr ⟨holds, each⟩⟩
  · rintro ⟨nonempty, each⟩
    cases word with
    | nil => exact absurd rfl nonempty
    | cons first rest => exact ⟨first, rest, rfl, List.forall_mem_cons.mp each⟩

theorem many_append (first : word ∈ many members) {byte : UInt8} (holds : members byte = true) :
    word ++ [byte] ∈ many members := by
  rw [mem_many] at first ⊢
  refine ⟨List.append_ne_nil_of_right_ne_nil _ (List.cons_ne_nil _ _), ?_⟩
  rw [List.forall_mem_append, List.forall_mem_singleton]
  exact ⟨first.2, holds⟩

theorem many_single {byte : UInt8} (holds : members byte = true) : [byte] ∈ many members :=
  mem_many.mpr ⟨List.cons_ne_nil _ _, List.forall_mem_singleton.mpr holds⟩

theorem mem_lineComment : word ∈ Kind.lineComment.language ↔
    ∃ rest, word = '/'.toUInt8 :: '/'.toUInt8 :: rest ∧ ∀ byte ∈ rest, notNewline byte = true := by
  rw [Kind.language, Language.mem_mul]
  constructor
  · rintro ⟨_, rfl, rest, each, rfl⟩
    exact ⟨rest, rfl, mem_star.mp each⟩
  · rintro ⟨rest, rfl, each⟩
    exact ⟨_, rfl, rest, mem_star.mpr each, rfl⟩

theorem mem_number : word ∈ Kind.number.language ↔ word ∈ many digit ∨
    ∃ whole fraction, whole ∈ many digit ∧ fraction ∈ many digit ∧
      word = whole ++ '.'.toUInt8 :: fraction := by
  rw [Kind.language, mul_add, mul_one, Language.mem_add]
  refine or_congr_right ?_
  simp only [Language.mem_mul]
  constructor
  · rintro ⟨whole, digits, _, ⟨_, rfl, fraction, digits', rfl⟩, rfl⟩
    exact ⟨whole, fraction, digits, digits', rfl⟩
  · rintro ⟨whole, fraction, digits, digits', rfl⟩
    exact ⟨whole, digits, _, ⟨_, rfl, fraction, digits', rfl⟩, rfl⟩

end

/-! The classes of bytes are the columns that the grammar tells apart. -/

section

variable (byte : UInt8)

theorem isDigit_toNat : isDigit byte.toNat = digit byte := by
  rw [Bool.eq_iff_iff, isDigit, digit, within]
  simp only [decide_eq_true_eq, UInt8.le_iff_toNat_le]
  rfl

theorem isAlpha_toNat : isAlpha byte.toNat = wordStart byte := by
  rw [Bool.eq_iff_iff, isAlpha, wordStart, within, within]
  simp only [decide_eq_true_eq, Bool.or_eq_true, beq_iff_eq, UInt8.le_iff_toNat_le,
    ← UInt8.toNat_inj, or_assoc]
  rfl

theorem isAlnum_toNat : isAlnum byte.toNat = wordPart byte := by
  rw [isAlnum, wordPart, isAlpha_toNat, isDigit_toNat]

theorem isWhite_toNat : isWhite byte.toNat = blank byte := by
  rw [Bool.eq_iff_iff, isWhite, blank]
  simp only [decide_eq_true_eq, Bool.or_eq_true, beq_iff_eq, ← UInt8.toNat_inj, or_assoc]
  rfl

theorem inComment_toNat : inComment byte.toNat = notNewline byte := by
  have inside : byte.toNat < endColumn := byte.toNat_lt
  rw [Bool.eq_iff_iff, inComment, notNewline]
  simp only [decide_eq_true_eq, bne_iff_ne, ne_eq, ← UInt8.toNat_inj, inside, and_true]
  rfl

end

end TableLexer.Sample
