import TableLexer.Proofs.Binary.Layout
import TableLexer.Proofs.Tables.Loading
import TableLexer.Proofs.Tables.Uniform

/-! Saving and loading in the binary format. What is saved loads back, whatever follows it, and no
part of it loads. What is loaded is saved as the file it came from, up to what no reader looks
at. -/

set_option autoImplicit false

namespace TableLexer

namespace Binary

variable {tables : Tables} {header : Header}

theorem write_of_describes
    (described : header.Describes tables.parts (tables.captures.map CaptureTables.parts)) :
    write tables = .ok (magic ++ header.normal.bytes ++
      fieldBytes tables.parts (tables.captures.map CaptureTables.parts)) := by
  unfold write fieldBytes
  rw [Header.ofTables_of_describes described]
  cases tables.captures <;> simp

theorem ofBinary_eq_ok_iff {parts : PlainParts} {capture : Option CaptureParts}
    (accepted : Tables.ofParts parts capture = .ok tables) {bytes : List UInt8} :
    Tables.ofBinary bytes = .ok tables ↔ ∃ (header : Header) (rest : List UInt8),
      header.Describes parts capture ∧
        bytes = magic ++ header.bytes ++ fieldBytes parts capture ++ rest := by
  rw [Tables.ofBinary, mapError_eq_ok_iff, read]
  simp only [bind_eq_ok_iff, Prod.exists, takeParts_eq_ok_iff]
  constructor
  · rintro ⟨parts', capture', rest, ⟨header, described, same⟩, accepted'⟩
    obtain ⟨rfl, rfl, _⟩ := Tables.ofParts_eq_ok accepted
    obtain ⟨rfl, rfl, _⟩ := Tables.ofParts_eq_ok accepted'
    exact ⟨header, rest, described, same⟩
  · rintro ⟨header, rest, described, same⟩
    exact ⟨parts, capture, rest, ⟨header, described, same⟩, accepted⟩

/-- Every length a header records fits in a word. The states always do. -/
def FitsWords (tables : Tables) : Prop :=
  tables.parts.trans.size < UInt32.size ∧ ∀ captures, tables.captures = some captures →
    captures.parts.transCode.size < UInt32.size ∧ captures.parts.code.length < UInt32.size

theorem exists_word {length : Nat} (fits : length < UInt32.size) :
    ∃ word : UInt32, length = word.toNat :=
  ⟨.ofNat length, (UInt32.toNat_ofNat_of_lt' fits).symm⟩

theorem exists_describes (valid : tables.Valid) (fits : FitsWords tables) :
    ∃ header : Header,
      header.Describes tables.parts (tables.captures.map CaptureTables.parts) := by
  obtain ⟨states, base⟩ := exists_word (Nat.lt_of_le_of_lt valid.plain.states_le (by decide))
  obtain ⟨transLength, trans⟩ := exists_word fits.1
  have counts (flags codeTransLength codeLength : UInt32) :
      Header.Counts { states, flags, transLength, codeTransLength, codeLength } tables.parts := {
    base := base
    backtrack := valid.plain.backtrack_size.trans base
    fallback := valid.plain.fallback_size.trans base
    trans := trans
    check := valid.plain.check_size.trans trans }
  cases carried : tables.captures with
  | none => exact ⟨_, counts 0 0 0, by simp [Header.Announces, Header.hasCaptures]⟩
  | some captures =>
    obtain ⟨codeTransLength, transCode⟩ := exists_word (fits.2 captures carried).1
    obtain ⟨codeLength, code⟩ := exists_word (fits.2 captures carried).2
    have sizes := valid.captures captures carried
    refine ⟨_, counts 1 codeTransLength codeLength, by simp [Header.hasCaptures], ?_⟩
    exact {
      baseCode := sizes.baseCode_size.trans base
      backtrackCode := sizes.backtrackCode_size.trans base
      fallbackCode := sizes.fallbackCode_size.trans base
      transCode := transCode
      checkCode := sizes.checkCode_size.trans transCode
      code := code }

theorem write_succeeds {parts : PlainParts} {capture : Option CaptureParts}
    (accepted : Tables.ofParts parts capture = .ok tables) (fits : FitsWords tables) :
    ∃ bytes, write tables = .ok bytes := by
  obtain ⟨header, described⟩ := exists_describes (Tables.valid_of_ofParts accepted) fits
  exact ⟨_, write_of_describes described⟩

theorem fitsWords_of_write {bytes : List UInt8} (written : write tables = .ok bytes) :
    FitsWords tables := by
  unfold write Header.ofTables at written
  simp only [bind_eq_ok_iff, lengthWord_eq_ok_iff] at written
  obtain ⟨_, ⟨_, _, transLength, trans, codeTransLength, transCode, codeLength, code, _⟩, _⟩ :=
    written
  refine ⟨trans ▸ transLength.toNat_lt, fun captures carried => ?_⟩
  rw [carried] at transCode code
  change _ = captures.parts.transCode.size at transCode
  change _ = captures.parts.code.length at code
  exact ⟨transCode ▸ codeTransLength.toNat_lt, code ▸ codeLength.toNat_lt⟩

theorem written_form {parts : PlainParts} {capture : Option CaptureParts}
    (accepted : Tables.ofParts parts capture = .ok tables) {bytes : List UInt8}
    (written : write tables = .ok bytes) :
    ∃ header : Header, header.Describes parts capture ∧
      bytes = magic ++ header.bytes ++ fieldBytes parts capture := by
  obtain ⟨rfl, rfl, valid⟩ := Tables.ofParts_eq_ok accepted
  obtain ⟨header, described⟩ := exists_describes valid (fitsWords_of_write written)
  rw [write_of_describes described] at written
  exact ⟨header.normal, Header.normal_describes_iff.mpr described, (Except.ok.inj written).symm⟩

theorem ofBinary_write {parts : PlainParts} {capture : Option CaptureParts}
    (accepted : Tables.ofParts parts capture = .ok tables) {bytes : List UInt8}
    (written : write tables = .ok bytes) (rest : List UInt8) :
    Tables.ofBinary (bytes ++ rest) = .ok tables := by
  obtain ⟨header, described, rfl⟩ := written_form accepted written
  exact (ofBinary_eq_ok_iff accepted).mpr ⟨header, rest, described, rfl⟩

theorem ofBinary_cut {parts : PlainParts} {capture : Option CaptureParts}
    (accepted : Tables.ofParts parts capture = .ok tables) {bytes short : List UInt8}
    (written : write tables = .ok bytes) (before : short <+: bytes) (less : short ≠ bytes) :
    ∃ expected, Tables.ofBinary short = .error (.refused (.truncated expected)) := by
  obtain ⟨header, described, form⟩ := written_form accepted written
  have whole : takeParts bytes = .ok ((parts, capture), []) :=
    takeParts_eq_ok_iff.mpr ⟨header, described, form.trans (List.append_nil _).symm⟩
  obtain ⟨taken, all, _, cutOff⟩ := Exact.takeParts _ _ _ whole
  rw [List.append_nil] at all
  subst all
  obtain ⟨expected, missing⟩ := cutOff short before less
  refine ⟨expected, ?_⟩
  rw [Tables.ofBinary, read, missing]
  rfl

/-- What is saved loads back as the same tables, whatever follows it in the file. Every part of it
is refused for the bytes that it lacks. -/
theorem write_loads {parts : PlainParts} {capture : Option CaptureParts}
    (accepted : Tables.ofParts parts capture = .ok tables) (fits : FitsWords tables) :
    ∃ bytes, write tables = .ok bytes ∧
      (∀ rest, Tables.ofBinary (bytes ++ rest) = .ok tables) ∧
      ∀ short, short <+: bytes → short ≠ bytes →
        ∃ expected, Tables.ofBinary short = .error (.refused (.truncated expected)) := by
  obtain ⟨bytes, written⟩ := write_succeeds accepted fits
  exact ⟨bytes, written, ofBinary_write accepted written, fun _ => ofBinary_cut accepted written⟩

theorem rerunTables_fitsWords : FitsWords rerunTables := by
  have free : freeSlots.size < UInt32.size := by
    rw [freeSlots, Array.size_replicate]
    decide
  refine ⟨free, ?_⟩
  rintro captures ⟨⟩
  exact ⟨free, by decide⟩

theorem write_loads_rerun :
    Tables.ofParts rerunParts (some rerunCapture) = .ok rerunTables ∧ FitsWords rerunTables ∧
    ∃ bytes, write rerunTables = .ok bytes ∧
      Tables.ofBinary (bytes ++ [7]) = .ok rerunTables ∧
      ∃ expected,
        Tables.ofBinary bytes.dropLast = .error (.refused (.truncated expected)) := by
  obtain ⟨bytes, written, loads, cut⟩ := write_loads rerunTables_accepted rerunTables_fitsWords
  refine ⟨rerunTables_accepted, rerunTables_fitsWords, bytes, written, loads [7], ?_⟩
  refine cut _ (List.dropLast_prefix bytes) fun same => ?_
  have nothing : bytes = [] := by
    have short := congrArg List.length same
    rw [List.length_dropLast] at short
    exact List.length_eq_zero_iff.mp (by omega)
  have empty := loads []
  rw [nothing] at empty
  cases empty

/-- What is loaded is saved as the start of the file it came from, with its header in normal form.
So the same tables come from the files that agree with it but for what follows the fields and what
the normal form drops. -/
theorem write_of_ofBinary {bytes : List UInt8} (loaded : Tables.ofBinary bytes = .ok tables) :
    ∃ (header : Header) (fields rest written : List UInt8),
      bytes = magic ++ header.bytes ++ fields ++ rest ∧
      write tables = .ok written ∧
      written = magic ++ header.normal.bytes ++ fields ∧
      written.length ≤ bytes.length ∧
      ∀ other, Tables.ofBinary other = .ok tables ↔ ∃ (header' : Header) (rest' : List UInt8),
        other = magic ++ header'.bytes ++ fields ++ rest' ∧ header'.normal = header.normal := by
  obtain ⟨parts, capture, accepted⟩ := (Tables.Loaded.ofBinary loaded).accepted
  obtain ⟨header, rest, described, rfl⟩ := (ofBinary_eq_ok_iff accepted).mp loaded
  obtain ⟨rfl, rfl, _⟩ := Tables.ofParts_eq_ok accepted
  refine ⟨header, _, rest, _, rfl, write_of_describes described, rfl, ?_, ?_⟩
  · simp [Header.bytes, Words.ofUInt32]
  · intro other
    rw [ofBinary_eq_ok_iff accepted]
    constructor
    · rintro ⟨header', rest', described', rfl⟩
      refine ⟨header', rest', rfl, ?_⟩
      have made := Header.ofTables_of_describes described'
      rw [Header.ofTables_of_describes described] at made
      exact (Except.ok.inj made).symm
    · rintro ⟨header', rest', rfl, same⟩
      refine ⟨header', rest', ?_, rfl⟩
      rw [← Header.normal_describes_iff, same, Header.normal_describes_iff]
      exact described

/-- A header before `chainParts`, with two flags and two lengths that mean nothing. -/
def staleHeader : Header where
  states := 3
  flags := 6
  transLength := 257
  codeTransLength := 9
  codeLength := 1

def staleFile : List UInt8 :=
  magic ++ staleHeader.bytes ++ fieldBytes chainParts none ++ [1]

theorem staleFile_loads : Tables.ofBinary staleFile = .ok chainTables := by
  have columnCount : freeSlots.size = 257 := Array.size_replicate
  have described : staleHeader.Describes chainParts none :=
    ⟨⟨rfl, rfl, rfl, columnCount, columnCount⟩, rfl⟩
  exact (ofBinary_eq_ok_iff chainTables_accepted).mpr ⟨staleHeader, [1], described, rfl⟩

theorem write_of_ofBinary_stale :
    Tables.ofBinary staleFile = .ok chainTables ∧
    ∃ (header : Header) (fields rest written : List UInt8),
      staleFile = magic ++ header.bytes ++ fields ++ rest ∧
      write chainTables = .ok written ∧
      written = magic ++ header.normal.bytes ++ fields ∧
      written.length ≤ staleFile.length := by
  obtain ⟨header, fields, rest, written, form, saved, normal, short, _⟩ :=
    write_of_ofBinary staleFile_loads
  exact ⟨staleFile_loads, header, fields, rest, written, form, saved, normal, short⟩

end Binary

end TableLexer
