import TableLexer.Files.Tables
import TableLexer.Proofs.Tables.CaptureValidity

/-! Tables from bytes. However tables are read, they pass validation before anyone sees them. -/

set_option autoImplicit false

namespace TableLexer

/-- The ways to come by tables: from their parts, from raw fields, and from the bytes of a file in
either format. -/
inductive Tables.Loaded (tables : Tables) : Prop where
  | ofParts {parts : PlainParts} {captures : Option CaptureParts} :
      Tables.ofParts parts captures = .ok tables → Loaded tables
  | ofRaw {raw : PlainFields (List UInt8)} {captures : Option RawCaptures} :
      Tables.ofRaw raw captures = .ok tables → Loaded tables
  | ofBinary {bytes : List UInt8} : Tables.ofBinary bytes = .ok tables → Loaded tables
  | ofJson {bytes : List UInt8} : Tables.ofJson bytes = .ok tables → Loaded tables

theorem Tables.Loaded.accepted {tables : Tables} (loaded : tables.Loaded) :
    ∃ parts captures, Tables.ofParts parts captures = .ok tables := by
  cases loaded with
  | ofParts accepted => exact ⟨_, _, accepted⟩
  | ofRaw decoded =>
    simp only [Tables.ofRaw, bind_eq_ok_iff] at decoded
    obtain ⟨parts, _, captures, _, accepted⟩ := decoded
    exact ⟨parts, captures, accepted⟩
  | ofBinary read =>
    rw [Tables.ofBinary, mapError_eq_ok_iff, Binary.read] at read
    simp only [bind_eq_ok_iff] at read
    obtain ⟨⟨⟨parts, captures⟩, _⟩, _, accepted⟩ := read
    exact ⟨parts, captures, accepted⟩
  | ofJson read =>
    unfold Tables.ofJson at read
    split at read
    · exact ⟨_, _, mapError_eq_ok_iff.mp read⟩
    · cases read

theorem Tables.Loaded.valid {tables : Tables} (loaded : tables.Loaded) : tables.Valid := by
  obtain ⟨parts, captures, accepted⟩ := loaded.accepted
  exact Tables.valid_of_ofParts accepted

theorem Tables.loaded_of_ofFile {path : String} {content : Except FileError (List UInt8)}
    {tables : Tables} (read : Tables.ofFile path content = .ok tables) : tables.Loaded := by
  rw [Tables.ofFile, bind_eq_ok_iff] at read
  obtain ⟨bytes, _, read⟩ := read
  split at read
  · exact .ofJson read
  · exact .ofBinary read

end TableLexer
