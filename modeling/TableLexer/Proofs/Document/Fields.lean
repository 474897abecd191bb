import TableLexer.Proofs.Fallible
import TableLexer.Proofs.Json.Containers
import TableLexer.Tables.Document

/-! The fields of a document of tables. A field is spelled as integers of its type under its name;
fields found once each, in any object, make up the parts they came from. -/

set_option autoImplicit false

namespace TableLexer

theorem Field.name_injective {field other : Field} (same : field.name = other.name) :
    field = other := by
  cases field <;> cases other <;> first | rfl | exact absurd same (by decide)

theorem Field.name_plain (field : Field) : ∀ char ∈ field.name.toList, Json.IsPlain char := by
  apply Json.isPlain_of_all
  cases field <;> decide

theorem Field.name_ne_captures (field : Field) : field.name ≠ Document.capturesKey := by
  cases field <;> decide

namespace Document

open Json Json.Reader

def entryIntegers (entry : Field × Array Int16) : Field × Array Int :=
  (entry.1, entry.2.map Int16.toInt)

def byteIntegers (bytes : List UInt8) : Field × Array Int :=
  (.code, (bytes.map fun byte => (byte.toNat : Int)).toArray)

def plainFound (parts : PlainParts) : Found :=
  parts.toList.map entryIntegers

def captureFound (parts : CaptureParts) : Found :=
  parts.toCaptureFields.toList.map entryIntegers ++ [byteIntegers parts.code]

def foundMember (entry : Field × Array Int) : String × Json :=
  (entry.1.name, .array (entry.2.toList.map ofInt))

theorem foundMember_entryIntegers (entry : Field × Array Int16) :
    foundMember (entryIntegers entry) = member entry := by
  simp [foundMember, entryIntegers, member, ofEntries]

theorem members_eq (parts : PlainParts) :
    parts.toList.map member = (plainFound parts).map foundMember := by
  simp [plainFound, foundMember_entryIntegers]

theorem ofCaptures_eq (parts : CaptureParts) :
    ofCaptures parts = .object ((captureFound parts).map foundMember) := by
  have code : foundMember (byteIntegers parts.code) = (Field.code.name, ofBytes parts.code) := by
    simp [foundMember, byteIntegers, ofBytes]
  simp [ofCaptures, captureFound, foundMember_entryIntegers, code]

/-- The integers are of the field's type. -/
def OfType (entry : Field × Array Int) : Prop :=
  ∀ n ∈ entry.2.toList, (integerType entry.1).low ≤ n ∧ n ≤ (integerType entry.1).high

theorem ofType_entryIntegers {entry : Field × Array Int16} (entries : entry.1 ≠ .code) :
    OfType (entryIntegers entry) := by
  have type : integerType entry.1 = entryType := by
    unfold integerType
    split
    · contradiction
    · rfl
  intro n member
  simp only [entryIntegers, Array.toList_map, List.mem_map] at member
  obtain ⟨entry', _, rfl⟩ := member
  change (integerType entry.1).low ≤ entry'.toInt ∧ entry'.toInt ≤ (integerType entry.1).high
  rw [type]
  exact ⟨entry'.le_toInt, entry'.toInt_le⟩

theorem ofType_byteIntegers (bytes : List UInt8) : OfType (byteIntegers bytes) := by
  intro n member
  simp only [byteIntegers, List.mem_map] at member
  obtain ⟨byte, _, rfl⟩ := member
  have bound := byte.toNat_lt
  change (0 : Int) ≤ byte.toNat ∧ (byte.toNat : Int) ≤ 255
  omega

theorem ofType_plainFound (parts : PlainParts) : ∀ entry ∈ plainFound parts, OfType entry := by
  simp [plainFound, PlainFields.toList, ofType_entryIntegers]

theorem ofType_captureFound (parts : CaptureParts) :
    ∀ entry ∈ captureFound parts, OfType entry := by
  simp [captureFound, CaptureFields.toList, ofType_entryIntegers, ofType_byteIntegers]

theorem OfType.fits {entry : Field × Array Int} (typed : OfType entry) :
    ∀ n ∈ entry.2.toList, Fits64 n := by
  intro n member
  obtain ⟨low, high⟩ := typed n member
  have type : -(32768 : Int) ≤ (integerType entry.1).low ∧ (integerType entry.1).high ≤ 32767 := by
    unfold integerType
    split <;> decide
  have limits : (32768 : Int) ≤ signedLimit ∧ (32767 : Int) < UInt64.size := by decide
  exact ⟨by omega, by omega⟩

theorem integerOf_eq {type : IntegerType} {n : Int} (low : type.low ≤ n) (high : n ≤ type.high) :
    integerOf type (.number (.integer n)) = .ok n :=
  if_pos ⟨low, high⟩

theorem integersOf_eq {entry : Field × Array Int} (typed : OfType entry) :
    integersOf (integerType entry.1) (.array (entry.2.toList.map ofInt)) = .ok entry.2 := by
  have collected : (entry.2.toList.map ofInt).mapM (fun item =>
      integerOf (integerType entry.1) item.head) = .ok (entry.2.toList.map id) := by
    rw [List.mapM_map]
    exact mapM_eq_ok fun n member => integerOf_eq (typed n member).1 (typed n member).2
  simp only [integersOf, collected, ok_bind, List.map_id]
  exact congrArg Except.ok entry.2.toArray_toList

theorem field?_eq_ok {fields : List Field} {found : Found} {field : Field}
    (known : field ∈ fields) (fresh : field ∉ found.map Prod.fst) :
    found.field? fields field.name = .ok (some field) := by
  have named : fields.find? (fun other => other.name = field.name) = some field := by
    obtain ⟨other, same⟩ : ∃ other,
        fields.find? (fun other => other.name = field.name) = some other := by
      rw [← Option.isSome_iff_exists, List.find?_isSome]
      exact ⟨field, known, by simp⟩
    have alike := List.find?_some same
    rw [same, Field.name_injective (of_decide_eq_true alike)]
  have missing : found.lookup field = none := by
    rw [List.lookup_eq_none_iff]
    intro entry member
    simp only [bne_iff_ne, ne_eq]
    rintro rfl
    exact fresh (List.mem_map_of_mem member)
  unfold Found.field?
  rw [named]
  simp [missing]

def Found.add (found : Found) (entry : Field × Array Int) : Found :=
  entry :: found

theorem foldl_add (entries : Found) : entries.foldl Found.add [] = entries.reverse := by
  change entries.foldl (fun found entry => entry :: found) [] = _
  simp

/-- Of fields that differ, the next one was not found among those before it. -/
theorem field?_next {entries done more : Found} {entry : Field × Array Int}
    (distinct : (entries.map Prod.fst).Nodup) (split : entries = done ++ entry :: more) :
    Found.field? done.reverse (entries.map Prod.fst) entry.1.name = .ok (some entry.1) := by
  refine field?_eq_ok ?_ ?_
  · simp [split]
  · rw [split, List.map_append, List.nodup_append] at distinct
    intro found
    rw [List.map_reverse, List.mem_reverse] at found
    exact distinct.2.2 _ found _ (.head _) rfl

theorem entries_of_lookup {found : Found} {field : Field} {entries : Array Int16}
    (held : found.lookup field = some (entries.map Int16.toInt)) :
    found.entries field = .ok entries := by
  have back : Int16.ofInt ∘ Int16.toInt = id := funext Int16.ofInt_toInt
  rw [Found.entries, held]
  simp [back]

theorem bytes_of_lookup {found : Found} {field : Field} {bytes : List UInt8}
    (held : found.lookup field = some (byteIntegers bytes).2) : found.bytes field = .ok bytes := by
  rw [Found.bytes, held]
  simp [byteIntegers, Function.comp_def]

theorem plainParts_found (parts : PlainParts) :
    Found.plainParts (plainFound parts).reverse = .ok parts := by
  unfold Found.plainParts PlainFields.traverse
  simp only [bind_eq_ok_iff]
  exact ⟨parts.base, entries_of_lookup rfl, parts.backtrack, entries_of_lookup rfl,
    parts.fallback, entries_of_lookup rfl, parts.trans, entries_of_lookup rfl,
    parts.check, entries_of_lookup rfl, rfl⟩

theorem captureParts_found (parts : CaptureParts) :
    Found.captureParts (captureFound parts).reverse = .ok parts := by
  unfold Found.captureParts CaptureFields.traverse
  simp only [bind_eq_ok_iff]
  exact ⟨parts.toCaptureFields, ⟨parts.baseCode, entries_of_lookup rfl,
      parts.backtrackCode, entries_of_lookup rfl, parts.fallbackCode, entries_of_lookup rfl,
      parts.transCode, entries_of_lookup rfl, parts.checkCode, entries_of_lookup rfl, rfl⟩,
    parts.code, bytes_of_lookup rfl, rfl⟩

theorem plainParts_members (parts : PlainParts) :
    plainParts ((plainFound parts).map foundMember) = .ok parts := by
  have distinct : ((plainFound parts).map Prod.fst).Nodup := by
    change plainFieldList.Nodup
    decide
  have collected : (plainFound parts).foldl Found.add [] = (plainFound parts).reverse :=
    foldl_add (plainFound parts)
  unfold plainParts
  rw [List.foldlM_map, foldlM_eq_ok Found.add, ok_bind, collected, plainParts_found]
  intro done entry more split
  have typed := ofType_plainFound parts entry (by simp [split])
  have next := field?_next distinct split
  change Found.field? (done.foldl Found.add []) plainFieldList _ >>= _ = _
  rw [foldl_add]
  change Found.field? done.reverse plainFieldList _ = _ at next
  rw [next, ok_bind]
  change integersOf (integerType entry.1) (.array _) >>= _ = _
  rw [integersOf_eq typed]
  rfl

end Document

end TableLexer
