import Mathlib.Data.List.Basic
import TableLexer.Proofs.Fallible
import TableLexer.Tables.Raw

/-! Tables from raw fields. The bytes of an entry are the two digits of its value to the base 256,
lowest first, with the values from 32768 on standing for the negative ones. Decoding undoes
encoding and encoding undoes decoding, so raw fields make the tables that their entries make, and a
field with a byte left over is reported before anything else, the first one in declaration order. -/

set_option autoImplicit false

namespace TableLexer

namespace Words

theorem toInt_toInt16 (low high : UInt8) :
    (toInt16 low high).toInt = (low.toNat + 256 * high.toNat : Int).bmod 65536 := by
  have word : (toInt16 low high).toInt =
      (BitVec.ofNat 16 (low.toNat + 256 * high.toNat)).toInt := rfl
  rw [word, BitVec.toInt_ofNat', Int.natCast_add, Int.natCast_mul]
  rfl

/-- The bytes of each entry stand at twice its place, the low one first. -/
theorem encode_spells {entries : Array Int16} {i : Nat} {entry : Int16}
    (listed : entries[i]? = some entry) :
    ∃ low high : UInt8, (encode entries)[2 * i]? = some low ∧
      (encode entries)[2 * i + 1]? = some high ∧
      entry.toInt = (low.toNat + 256 * high.toNat : Int).bmod 65536 := by
  rw [← Array.getElem?_toList] at listed
  unfold encode
  generalize entries.toList = items at listed ⊢
  induction items generalizing i with
  | nil => simp at listed
  | cons first rest ih =>
    rw [List.flatMap_cons, ofInt16]
    cases i with
    | zero =>
      rw [List.getElem?_cons_zero, Option.some.injEq] at listed
      subst listed
      refine ⟨_, _, rfl, rfl, ?_⟩
      rw [← toInt_toInt16, toInt16_ofInt16]
    | succ i =>
      rw [List.getElem?_cons_succ] at listed
      exact ih listed

theorem decodeAfter_eq_none_iff {done : Array Int16} {bytes : List UInt8} :
    decodeAfter done bytes = none ↔ bytes.length % 2 = 1 := by
  fun_induction decodeAfter done bytes with
  | case1 => simp
  | case2 => simp
  | case3 done low high rest ih =>
    rw [ih, List.length_cons, List.length_cons]
    omega

end Words

namespace Field

variable {field : Field} {bytes : List UInt8}

theorem decode_encode (entries : Array Int16) :
    field.decode (Words.encode entries) = .ok entries :=
  decode_eq_ok_iff.mpr rfl

theorem decode_odd (odd : bytes.length % 2 = 1) :
    field.decode bytes = .error (.oddLength field bytes.length) := by
  have none : Words.decode? bytes = none := Words.decodeAfter_eq_none_iff.mpr odd
  rw [decode, none]

theorem decode_even (field : Field) (even : bytes.length % 2 = 0) :
    ∃ entries, field.decode bytes = .ok entries ∧ Words.encode entries = bytes := by
  cases found : Words.decode? bytes with
  | none =>
    have odd := Words.decodeAfter_eq_none_iff.mp found
    omega
  | some entries =>
    have spelled := Words.decode?_eq_some_iff.mp found
    exact ⟨entries, decode_eq_ok_iff.mpr spelled, spelled.symm⟩

end Field

def firstOdd (fields : List (Field × List UInt8)) : Option (Field × List UInt8) :=
  fields.find? fun (_, bytes) => bytes.length % 2 = 1

theorem exists_firstOdd {fields : List (Field × List UInt8)}
    (odd : ∃ held ∈ fields, held.2.length % 2 = 1) :
    ∃ before field bytes after, fields = before ++ (field, bytes) :: after ∧
      (∀ held ∈ before, held.2.length % 2 = 0) ∧ bytes.length % 2 = 1 ∧
      firstOdd fields = some (field, bytes) := by
  have isSome : (firstOdd fields).isSome := by simpa [firstOdd] using odd
  obtain ⟨⟨field, bytes⟩, found⟩ := Option.isSome_iff_exists.mp isSome
  obtain ⟨is_odd, before, after, split, even⟩ := List.find?_eq_some_iff_append.mp found
  refine ⟨before, field, bytes, after, split, fun held earlier => ?_, of_decide_eq_true is_odd,
    found⟩
  have := even held earlier
  simpa using this

/-- An operation that fails at the first field with a byte left over, and else succeeds. -/
def FailsAtOdd {α : Type} (fields : List (Field × List UInt8)) (outcome : Except TableError α) :
    Prop :=
  match firstOdd fields with
  | some (field, bytes) => outcome = .error (.oddLength field bytes.length)
  | none => ∃ result, outcome = .ok result

namespace FailsAtOdd

variable {α β : Type} {fields more : List (Field × List UInt8)}

theorem done (result : α) : FailsAtOdd [] (.ok result : Except TableError α) :=
  ⟨result, rfl⟩

theorem bind {outcome : Except TableError α} {next : α → Except TableError β}
    (first : FailsAtOdd fields outcome) (later : ∀ result, FailsAtOdd more (next result)) :
    FailsAtOdd (fields ++ more) (outcome >>= next) := by
  unfold FailsAtOdd firstOdd at *
  rw [List.find?_append]
  cases found : fields.find? fun (_, bytes) => bytes.length % 2 = 1 with
  | some odd =>
    rw [found] at first
    simp only [Option.some_or]
    rw [first, error_bind]
  | none =>
    rw [found] at first
    obtain ⟨result, succeeded⟩ := first
    rw [succeeded, ok_bind, Option.none_or]
    exact later result

theorem decode (field : Field) (bytes : List UInt8) :
    FailsAtOdd [(field, bytes)] (field.decode bytes) := by
  unfold FailsAtOdd firstOdd
  by_cases odd : bytes.length % 2 = 1
  · simp [odd, Field.decode_odd]
  · have even : bytes.length % 2 = 0 := by omega
    obtain ⟨entries, decoded, _⟩ := Field.decode_even field even
    simp [odd, decoded]

theorem plain (raw : PlainFields (List UInt8)) :
    FailsAtOdd raw.toList (raw.traverse Field.decode) :=
  (decode _ _).bind fun _ => (decode _ _).bind fun _ => (decode _ _).bind fun _ =>
    (decode _ _).bind fun _ => (decode _ _).bind fun _ => done _

theorem captures (raw : CaptureFields (List UInt8)) :
    FailsAtOdd raw.toList (raw.traverse Field.decode) :=
  (decode _ _).bind fun _ => (decode _ _).bind fun _ => (decode _ _).bind fun _ =>
    (decode _ _).bind fun _ => (decode _ _).bind fun _ => done _

end FailsAtOdd

def rawFields (raw : PlainFields (List UInt8)) (captures : Option RawCaptures) :
    List (Field × List UInt8) :=
  raw.toList ++ captures.elim [] fun captures => captures.toCaptureFields.toList

def RawCaptures.decode (raw : RawCaptures) : Except TableError CaptureParts := do
  let fields ← raw.toCaptureFields.traverse Field.decode
  return { toCaptureFields := fields, code := raw.code }

def decodeFields (raw : PlainFields (List UInt8)) (captures : Option RawCaptures) :
    Except TableError (PlainParts × Option CaptureParts) := do
  let parts ← raw.traverse Field.decode
  let captures ← captures.mapM RawCaptures.decode
  return (parts, captures)

theorem PlainParts.traverse_toRaw (parts : PlainParts) :
    parts.toRaw.traverse Field.decode = .ok parts := by
  simp only [PlainParts.toRaw, PlainFields.traverse, Field.decode_encode, ok_bind, pure_eq_ok]

theorem RawCaptures.decode_toRaw (parts : CaptureParts) : parts.toRaw.decode = .ok parts := by
  simp only [decode, CaptureParts.toRaw, CaptureFields.traverse, Field.decode_encode, ok_bind,
    pure_eq_ok]

theorem decodeFields_toRaw (parts : PlainParts) (captures : Option CaptureParts) :
    decodeFields parts.toRaw (captures.map CaptureParts.toRaw) = .ok (parts, captures) := by
  rw [decodeFields, PlainParts.traverse_toRaw, ok_bind]
  cases captures with
  | none => rfl
  | some captures =>
    rw [Option.map_some, Option.mapM_some, RawCaptures.decode_toRaw]
    rfl

theorem FailsAtOdd.program (raw : RawCaptures) :
    FailsAtOdd raw.toCaptureFields.toList raw.decode := by
  rw [RawCaptures.decode, ← List.append_nil raw.toCaptureFields.toList]
  exact (captures raw.toCaptureFields).bind fun _ => done _

theorem FailsAtOdd.decodeFields (raw : PlainFields (List UInt8)) (captures : Option RawCaptures) :
    FailsAtOdd (rawFields raw captures) (decodeFields raw captures) := by
  refine (plain raw).bind fun parts => ?_
  cases captures with
  | none => exact done (parts, none)
  | some captures =>
    rw [Option.mapM_some, Option.elim_some, map_eq_pure_bind, bind_assoc,
      ← List.append_nil captures.toCaptureFields.toList]
    exact (program captures).bind fun decoded => done (parts, some decoded)

namespace Tables

theorem ofRaw_eq (raw : PlainFields (List UInt8)) (captures : Option RawCaptures) :
    ofRaw raw captures =
      decodeFields raw captures >>= fun (parts, captures) => ofParts parts captures := by
  rw [decodeFields]
  simp only [bind_assoc, pure_bind]
  rfl

theorem ofRaw_toRaw (parts : PlainParts) (captures : Option CaptureParts) :
    ofRaw parts.toRaw (captures.map CaptureParts.toRaw) = ofParts parts captures := by
  rw [ofRaw_eq, decodeFields_toRaw, ok_bind]

theorem ofRaw_firstOdd {raw : PlainFields (List UInt8)} {captures : Option RawCaptures}
    {field : Field} {bytes : List UInt8}
    (found : firstOdd (rawFields raw captures) = some (field, bytes)) :
    ofRaw raw captures = .error (.oddLength field bytes.length) := by
  have failed := FailsAtOdd.decodeFields raw captures
  rw [FailsAtOdd, found] at failed
  rw [ofRaw_eq, failed, error_bind]

/-- Raw fields that spell entries, lowest byte first, have the outcome of these entries; the bytes
of a field of even length are those that its entries spell; and the first field with a byte left
over, in declaration order, is the one reported, whatever the others hold. -/
theorem ofRaw_agrees :
    (∀ (parts : PlainParts) (captures : Option CaptureParts),
      ofRaw parts.toRaw (captures.map CaptureParts.toRaw) = ofParts parts captures) ∧
    (∀ entries : Array Int16, (Words.encode entries).length = 2 * entries.size ∧
      ∀ i entry, entries[i]? = some entry → ∃ low high : UInt8,
        (Words.encode entries)[2 * i]? = some low ∧
        (Words.encode entries)[2 * i + 1]? = some high ∧
        entry.toInt = (low.toNat + 256 * high.toNat : Int).bmod 65536) ∧
    (∀ (field : Field) (bytes : List UInt8), bytes.length % 2 = 0 →
      ∃ entries, field.decode bytes = .ok entries ∧ Words.encode entries = bytes) ∧
    ∀ (raw : PlainFields (List UInt8)) (captures : Option RawCaptures),
      (∃ held ∈ rawFields raw captures, held.2.length % 2 = 1) →
      ∃ before field bytes after,
        rawFields raw captures = before ++ (field, bytes) :: after ∧
        (∀ held ∈ before, held.2.length % 2 = 0) ∧ bytes.length % 2 = 1 ∧
        ofRaw raw captures = .error (.oddLength field bytes.length) := by
  refine ⟨ofRaw_toRaw, fun entries => ?_, fun field bytes => Field.decode_even field, ?_⟩
  · exact ⟨Words.length_encode entries, fun i entry => Words.encode_spells⟩
  · intro raw captures odd
    obtain ⟨before, field, bytes, after, split, even, odd, found⟩ := exists_firstOdd odd
    exact ⟨before, field, bytes, after, split, even, odd, ofRaw_firstOdd found⟩

/-- No states, a target out of range and a program cut short, yet the first odd field decides. The
entries of an even one are written back as they stood, the low byte of each first. -/
theorem ofRaw_agrees_backtrackCode :
    ofRaw ⟨[], [0, 0], [], [255, 127], []⟩ (some ⟨⟨[], [7], [], [1, 2, 3], []⟩, [1]⟩) =
        .error (.oddLength .backtrackCode 1) ∧
      (∃ entries, Field.trans.decode [255, 127] = .ok entries ∧
        Words.encode entries = [255, 127]) ∧
      ∃ low high : UInt8, (Words.encode #[32767, -2])[2]? = some low ∧
        (Words.encode #[32767, -2])[3]? = some high ∧
        (-2 : Int16).toInt = (low.toNat + 256 * high.toNat : Int).bmod 65536 := by
  obtain ⟨-, spells, even, odd⟩ := ofRaw_agrees
  refine ⟨?_, even .trans [255, 127] rfl, (spells #[32767, -2]).2 1 (-2) rfl⟩
  obtain ⟨before, field, bytes, after, split, allEven, isOdd, failed⟩ :=
    odd ⟨[], [0, 0], [], [255, 127], []⟩ (some ⟨⟨[], [7], [], [1, 2, 3], []⟩, [1]⟩)
      ⟨(.backtrackCode, [7]), by decide, rfl⟩
  have first : firstOdd (before ++ (field, bytes) :: after) = some (field, bytes) := by
    refine List.find?_eq_some_iff_append.mpr ⟨decide_eq_true isOdd, before, after, rfl, ?_⟩
    intro held earlier
    simp [allEven held earlier]
  rw [← split] at first
  cases first
  exact failed

end Tables

end TableLexer
