import Mathlib.Tactic.MkIffOfInductiveProp
import TableLexer.Proofs.Binary.Reading

/-! What a binary file of tables looks like. Behind the magic bytes and the header come the fields,
each as long as the header says; a file has no other form that can be read. The normal form of a
header drops what no reader looks at: flags but the first, and the lengths of captures that are not
there. -/

set_option autoImplicit false

namespace TableLexer.Binary

@[mk_iff]
structure Header.Counts (header : Header) (parts : PlainParts) : Prop where
  base : parts.base.size = header.states.toNat
  backtrack : parts.backtrack.size = header.states.toNat
  fallback : parts.fallback.size = header.states.toNat
  trans : parts.trans.size = header.transLength.toNat
  check : parts.check.size = header.transLength.toNat

@[mk_iff]
structure Header.CountsCaptures (header : Header) (parts : CaptureParts) : Prop where
  baseCode : parts.baseCode.size = header.states.toNat
  backtrackCode : parts.backtrackCode.size = header.states.toNat
  fallbackCode : parts.fallbackCode.size = header.states.toNat
  transCode : parts.transCode.size = header.codeTransLength.toNat
  checkCode : parts.checkCode.size = header.codeTransLength.toNat
  code : parts.code.length = header.codeLength.toNat

def Header.Announces (header : Header) : Option CaptureParts → Prop
  | some captures => header.hasCaptures = true ∧ header.CountsCaptures captures
  | none => header.hasCaptures = false

/-- The header stands before these parts. -/
structure Header.Describes (header : Header) (parts : PlainParts)
    (captures : Option CaptureParts) : Prop where
  plain : header.Counts parts
  captures : header.Announces captures

def fieldBytes (parts : PlainParts) (captures : Option CaptureParts) : List UInt8 :=
  plainBytes parts ++ captures.elim [] captureBytes

variable {header : Header} {parts : PlainParts} {captures : Option CaptureParts}
  {bytes rest : List UInt8}

theorem takePlain_eq_ok_iff :
    header.plainLengths.traverse takeEntries bytes = .ok (parts, rest) ↔
      bytes = plainBytes parts ++ rest ∧ header.Counts parts := by
  unfold PlainFields.traverse
  simp only [bind_reads_iff, takeEntries_eq_ok_iff, pure_reads_iff]
  constructor
  · rintro ⟨base, _, ⟨rfl, base_size⟩, backtrack, _, ⟨rfl, backtrack_size⟩,
      fallback, _, ⟨rfl, fallback_size⟩, trans, _, ⟨rfl, trans_size⟩,
      check, _, ⟨rfl, check_size⟩, rfl, rfl⟩
    refine ⟨by simp [plainBytes, PlainFields.toList], ?_⟩
    exact ⟨base_size, backtrack_size, fallback_size, trans_size, check_size⟩
  · rintro ⟨rfl, counts⟩
    exact ⟨parts.base, _, ⟨by simp [plainBytes, PlainFields.toList], counts.base⟩,
      parts.backtrack, _, ⟨rfl, counts.backtrack⟩, parts.fallback, _, ⟨rfl, counts.fallback⟩,
      parts.trans, _, ⟨rfl, counts.trans⟩, parts.check, _, ⟨rfl, counts.check⟩, rfl, rfl⟩

theorem takeCaptures_eq_ok_iff {captures : CaptureParts} :
    takeCaptures header bytes = .ok (captures, rest) ↔
      bytes = captureBytes captures ++ rest ∧ header.CountsCaptures captures := by
  unfold takeCaptures CaptureFields.traverse
  simp only [bind_reads_iff, takeEntries_eq_ok_iff, take_eq_ok_iff, pure_reads_iff]
  constructor
  · rintro ⟨_, _, ⟨baseCode, _, ⟨rfl, baseCode_size⟩, backtrackCode, _, ⟨rfl, backtrackCode_size⟩,
      fallbackCode, _, ⟨rfl, fallbackCode_size⟩, transCode, _, ⟨rfl, transCode_size⟩,
      checkCode, _, ⟨rfl, checkCode_size⟩, rfl, rfl⟩, code, _, ⟨rfl, code_length⟩, rfl, rfl⟩
    refine ⟨by simp [captureBytes, CaptureFields.toList], ?_⟩
    exact ⟨baseCode_size, backtrackCode_size, fallbackCode_size, transCode_size, checkCode_size,
      code_length⟩
  · rintro ⟨rfl, counts⟩
    exact ⟨captures.toCaptureFields, _, ⟨captures.baseCode, _,
      ⟨by simp [captureBytes, CaptureFields.toList], counts.baseCode⟩,
      captures.backtrackCode, _, ⟨rfl, counts.backtrackCode⟩,
      captures.fallbackCode, _, ⟨rfl, counts.fallbackCode⟩,
      captures.transCode, _, ⟨rfl, counts.transCode⟩,
      captures.checkCode, _, ⟨rfl, counts.checkCode⟩, rfl, rfl⟩,
      captures.code, _, ⟨rfl, counts.code⟩, rfl, rfl⟩

theorem takeAnnounced_eq_ok_iff {found : PlainParts} :
    (if header.hasCaptures then (do return (parts, some (← takeCaptures header)))
      else return (parts, none) : Reader _) bytes = .ok ((found, captures), rest) ↔
      parts = found ∧ bytes = captures.elim [] captureBytes ++ rest ∧
        header.Announces captures := by
  unfold Header.Announces
  cases header.hasCaptures with
  | false => cases captures <;> simp [pure_reads_iff]
  | true =>
    simp only [if_true, bind_reads_iff, takeCaptures_eq_ok_iff, pure_reads_iff, Prod.mk.injEq]
    cases captures with
    | none => simp
    | some captures =>
      constructor
      · rintro ⟨_, _, ⟨rfl, counts⟩, ⟨rfl, ⟨⟩⟩, rfl⟩
        exact ⟨rfl, rfl, trivial, counts⟩
      · rintro ⟨rfl, rfl, _, counts⟩
        exact ⟨captures, rest, ⟨rfl, counts⟩, ⟨rfl, rfl⟩, rfl⟩

/-- A file can be read when it has this form, and only then. -/
theorem takeParts_eq_ok_iff :
    takeParts bytes = .ok ((parts, captures), rest) ↔
      ∃ header : Header, header.Describes parts captures ∧
        bytes = magic ++ header.bytes ++ fieldBytes parts captures ++ rest := by
  unfold takeParts
  simp only [bind_reads_iff, take_eq_ok_iff]
  constructor
  · rintro ⟨start, _, ⟨rfl, -⟩, read⟩
    by_cases known : start = magic
    · rw [if_neg (not_not_intro known)] at read
      simp only [bind_reads_iff, takeHeader_eq_ok_iff, takePlain_eq_ok_iff,
        takeAnnounced_eq_ok_iff] at read
      obtain ⟨header, _, rfl, plain, _, ⟨rfl, counts⟩, rfl, rfl, announced⟩ := read
      exact ⟨header, ⟨counts, announced⟩, by simp [known, fieldBytes]⟩
    · rw [if_pos known] at read
      cases read
  · rintro ⟨header, ⟨counts, announced⟩, rfl⟩
    refine ⟨magic, header.bytes ++ (fieldBytes parts captures ++ rest), ⟨by simp, rfl⟩, ?_⟩
    rw [if_neg (not_not_intro rfl)]
    simp only [bind_reads_iff, takeHeader_eq_ok_iff, takePlain_eq_ok_iff, takeAnnounced_eq_ok_iff]
    exact ⟨header, _, rfl, parts, captures.elim [] captureBytes ++ rest,
      ⟨by simp [fieldBytes], counts⟩, rfl, rfl, announced⟩

theorem Exact.takeCaptures (header : Header) : Exact (takeCaptures header) :=
  .bind (.traverseCaptures .takeEntries _) fun _ => .bind (.take _ _) fun _ => .pure _

theorem Exact.takeParts : Exact takeParts := by
  refine .bind (.take _ _) fun start => ?_
  by_cases known : start = magic
  · rw [if_neg (not_not_intro known)]
    refine .bind .takeHeader fun header => ?_
    refine .bind (.traversePlain .takeEntries _) fun parts => ?_
    cases header.hasCaptures with
    | false => exact .pure _
    | true => exact .bind (.takeCaptures header) fun captures => .pure _
  · rw [if_pos known]
    exact Exact.throw .badMagic

/-- The header without what no reader looks at. -/
def Header.normal (header : Header) : Header where
  states := header.states
  flags := header.flags &&& 1
  transLength := header.transLength
  codeTransLength := if header.hasCaptures then header.codeTransLength else 0
  codeLength := if header.hasCaptures then header.codeLength else 0

theorem Header.flags_and_one (header : Header) :
    header.flags &&& 1 = if header.hasCaptures then 1 else 0 := by
  have low : (header.flags &&& 1).toNat < 2 := by
    rw [UInt32.toNat_and]
    exact Nat.and_lt_two_pow _ (by decide : (1 : UInt32).toNat < 2 ^ 1)
  by_cases flagged : header.flags &&& 1 = 0
  · simp [hasCaptures, flagged]
  · have one : header.flags &&& 1 = 1 := by
      rw [← UInt32.toNat_inj] at flagged ⊢
      change _ = 1
      change ¬ _ = 0 at flagged
      omega
    simp [hasCaptures, one]

@[simp] theorem Header.hasCaptures_normal (header : Header) :
    header.normal.hasCaptures = header.hasCaptures := by
  simp [normal, hasCaptures, UInt32.and_assoc]

theorem Header.normal_announces_iff :
    header.normal.Announces captures ↔ header.Announces captures := by
  cases captures with
  | none => simp [Announces]
  | some captures =>
    simp only [Announces, hasCaptures_normal]
    refine and_congr_right fun flagged => ?_
    simp [countsCaptures_iff, normal, flagged]

theorem Header.normal_describes_iff :
    header.normal.Describes parts captures ↔ header.Describes parts captures := by
  have counts : header.normal.Counts parts ↔ header.Counts parts := by
    simp [counts_iff, normal]
  constructor
  · exact fun described => ⟨counts.mp described.plain, normal_announces_iff.mp described.captures⟩
  · exact fun described => ⟨counts.mpr described.plain, normal_announces_iff.mpr described.captures⟩

theorem lengthWord_eq_ok_iff {field : Field} {length : Nat} {word : UInt32} :
    lengthWord field length = .ok word ↔ word.toNat = length := by
  unfold lengthWord
  split
  · rename_i fits
    rw [Except.ok.injEq, ← UInt32.toNat_inj, UInt32.toNat_ofNat_of_lt' fits]
    exact eq_comm
  · rename_i long
    have fits := word.toNat_lt
    constructor
    · rintro ⟨⟩
    · rintro rfl
      exact absurd fits long

theorem Header.normal_flags (announced : header.Announces captures) :
    header.normal.flags = if captures.isSome then 1 else 0 := by
  cases captures with
  | none =>
    have flagged : header.hasCaptures = false := announced
    simp [normal, flags_and_one, flagged]
  | some captures => simp [normal, flags_and_one, announced.1]

theorem Header.normal_lengths (announced : header.Announces captures) :
    header.normal.codeTransLength.toNat = (captures.elim 0 fun parts => parts.transCode.size) ∧
      header.normal.codeLength.toNat = (captures.elim 0 fun parts => parts.code.length) := by
  cases captures with
  | none =>
    have flagged : header.hasCaptures = false := announced
    simp [normal, flagged]
  | some captures =>
    simp [normal, announced.1, announced.2.transCode, announced.2.code]

/-- What is written is the normal form of every header that stands before the same parts. -/
theorem Header.ofTables_of_describes {tables : Tables}
    (described : header.Describes tables.parts (tables.captures.map CaptureTables.parts)) :
    Header.ofTables tables = .ok header.normal := by
  obtain ⟨codeTransLength, codeLength⟩ := normal_lengths described.captures
  unfold ofTables
  simp only [bind_eq_ok_iff, lengthWord_eq_ok_iff]
  refine ⟨header.states, described.plain.base.symm, header.transLength,
    described.plain.trans.symm, _, codeTransLength, _, codeLength, ?_⟩
  rw [← normal_flags described.captures]
  rfl

end TableLexer.Binary
