import Mathlib.Data.List.Basic
import TableLexer.Proofs.Fallible
import TableLexer.Tables.Binary

/-! Readers of the binary format. What a reader takes off the front is spelled by what it returns,
so that a reader accepts exactly what a writer can have written. A reader that is cut off within
what it takes reports that bytes are missing, and nothing else. -/

set_option autoImplicit false

namespace TableLexer.Binary

variable {α β : Type} {bytes rest : List UInt8}

theorem bind_reads_iff {reader : Reader α} {onward : α → Reader β} {result : β × List UInt8} :
    (reader >>= onward) bytes = .ok result ↔
      ∃ value left, reader bytes = .ok (value, left) ∧ onward value left = .ok result := by
  change (reader bytes >>= fun (value, left) => onward value left) = _ ↔ _
  rw [bind_eq_ok_iff, Prod.exists]

theorem bind_of_ok {reader : Reader α} {value : α} (read : reader bytes = .ok (value, rest))
    (onward : α → Reader β) : (reader >>= onward) bytes = onward value rest := by
  change (reader bytes >>= fun (value, left) => onward value left) = _
  rw [read]
  rfl

theorem bind_of_error {reader : Reader α} {error : TableError}
    (failed : reader bytes = .error error) (onward : α → Reader β) :
    (reader >>= onward) bytes = .error error := by
  change (reader bytes >>= fun (value, left) => onward value left) = _
  rw [failed]
  rfl

theorem pure_reads_iff {value result : α} :
    (pure value : Reader α) bytes = .ok (result, rest) ↔ value = result ∧ bytes = rest := by
  change Except.ok (value, bytes) = .ok (result, rest) ↔ _
  simp

theorem lift_reads_iff {outcome : Except TableError α} {result : α} :
    (liftM outcome : Reader α) bytes = .ok (result, rest) ↔
      outcome = .ok result ∧ bytes = rest := by
  change (outcome >>= fun value => .ok (value, bytes)) = _ ↔ _
  simp only [bind_eq_ok_iff, Except.ok.injEq, Prod.mk.injEq]
  constructor
  · rintro ⟨_, done, rfl, rfl⟩
    exact ⟨done, rfl⟩
  · rintro ⟨done, rfl⟩
    exact ⟨result, done, rfl, rfl⟩

theorem take_eq_ok_iff {count : Nat} {expected : Section} {taken : List UInt8} :
    take count expected bytes = .ok (taken, rest) ↔
      bytes = taken ++ rest ∧ taken.length = count := by
  unfold take
  constructor
  · intro took
    split at took
    · cases took
    · cases took
      exact ⟨(List.take_append_drop count bytes).symm, List.length_take_of_le (by omega)⟩
  · rintro ⟨rfl, rfl⟩
    simp

theorem takeWord_eq_ok_iff {word : UInt32} :
    takeWord bytes = .ok (word, rest) ↔ bytes = Words.ofUInt32 word ++ rest := by
  unfold takeWord
  simp only [bind_reads_iff, take_eq_ok_iff]
  constructor
  · rintro ⟨taken, left, ⟨rfl, four⟩, read⟩
    obtain ⟨a, b, c, d, rfl⟩ : ∃ a b c d, taken = [a, b, c, d] := List.length_eq_four.mp four
    obtain ⟨rfl, rfl⟩ := pure_reads_iff.mp read
    rw [Words.ofUInt32_toUInt32]
  · rintro rfl
    refine ⟨_, rest, ⟨rfl, rfl⟩, ?_⟩
    exact pure_reads_iff.mpr ⟨Words.toUInt32_ofUInt32 word, rfl⟩

theorem takeHeader_eq_ok_iff {header : Header} :
    takeHeader bytes = .ok (header, rest) ↔ bytes = header.bytes ++ rest := by
  unfold takeHeader
  simp only [bind_reads_iff, takeWord_eq_ok_iff, pure_reads_iff, Header.bytes]
  constructor
  · rintro ⟨states, _, rfl, flags, _, rfl, transLength, _, rfl, codeTransLength, _, rfl,
      codeLength, _, rfl, rfl, rfl⟩
    simp
  · rintro rfl
    exact ⟨header.states, _, by simp, header.flags, _, rfl, header.transLength, _, rfl,
      header.codeTransLength, _, rfl, header.codeLength, _, rfl, rfl, rfl⟩

theorem takeEntries_eq_ok_iff {field : Field} {count : UInt32} {entries : Array Int16} :
    takeEntries field count bytes = .ok (entries, rest) ↔
      bytes = Words.encode entries ++ rest ∧ entries.size = count.toNat := by
  unfold takeEntries
  simp only [bind_reads_iff, take_eq_ok_iff, lift_reads_iff, Field.decode_eq_ok_iff]
  constructor
  · rintro ⟨spelled, _, ⟨rfl, length⟩, rfl, rfl⟩
    rw [Words.length_encode] at length
    exact ⟨rfl, by omega⟩
  · rintro ⟨rfl, size⟩
    refine ⟨_, _, ⟨rfl, ?_⟩, rfl, rfl⟩
    rw [Words.length_encode, size]

/-- Takes the same bytes whatever follows them, and of any part of them reports that bytes are
missing. -/
def Exact (reader : Reader α) : Prop :=
  ∀ bytes value rest, reader bytes = .ok (value, rest) →
    ∃ taken, bytes = taken ++ rest ∧
      (∀ other, reader (taken ++ other) = .ok (value, other)) ∧
      ∀ short, short <+: taken → short ≠ taken →
        ∃ expected, reader short = .error (.truncated expected)

theorem Exact.pure (value : α) : Exact (Pure.pure value : Reader α) := by
  intro bytes result rest read
  obtain ⟨rfl, rfl⟩ := pure_reads_iff.mp read
  refine ⟨[], rfl, fun other => rfl, ?_⟩
  intro short isPrefix less
  exact absurd (List.prefix_nil.mp isPrefix) less

theorem Exact.lift (outcome : Except TableError α) : Exact (liftM outcome : Reader α) := by
  intro bytes result rest read
  obtain ⟨rfl, rfl⟩ := lift_reads_iff.mp read
  refine ⟨[], rfl, fun other => rfl, ?_⟩
  intro short isPrefix less
  exact absurd (List.prefix_nil.mp isPrefix) less

theorem Exact.throw (error : TableError) : Exact (throw error : Reader α) := by
  intro bytes result rest read
  cases read

theorem Exact.take (count : Nat) (expected : Section) : Exact (take count expected) := by
  intro bytes taken rest read
  obtain ⟨rfl, rfl⟩ := take_eq_ok_iff.mp read
  refine ⟨taken, rfl, fun other => take_eq_ok_iff.mpr ⟨rfl, rfl⟩, ?_⟩
  intro short isPrefix less
  have few : short.length < taken.length := by
    refine Nat.lt_of_le_of_ne isPrefix.length_le fun same => less ?_
    exact isPrefix.eq_of_length same
  exact ⟨expected, if_pos few⟩

/-- Of a part of what two readers take in turn, the first one already misses bytes, or it is
satisfied and the second one misses some. -/
theorem Exact.bind {reader : Reader α} {onward : α → Reader β} (first : Exact reader)
    (second : ∀ value, Exact (onward value)) : Exact (reader >>= onward) := by
  intro bytes result rest read
  obtain ⟨value, left, read, continued⟩ := bind_reads_iff.mp read
  obtain ⟨taken, rfl, same, cutOff⟩ := first _ _ _ read
  obtain ⟨taken', rfl, same', cutOff'⟩ := second value _ _ _ continued
  refine ⟨taken ++ taken', (List.append_assoc _ _ _).symm, ?_, ?_⟩
  · intro other
    rw [List.append_assoc, bind_of_ok (same _)]
    exact same' other
  · intro short isPrefix less
    by_cases within : short <+: taken ∧ short ≠ taken
    · obtain ⟨expected, missing⟩ := cutOff short within.1 within.2
      exact ⟨expected, bind_of_error missing onward⟩
    · obtain ⟨part, rfl⟩ : taken <+: short := by
        refine (List.prefix_or_prefix_of_prefix isPrefix (List.prefix_append _ _)).elim ?_ id
        intro before
        rw [not_and_not_right] at within
        exact within before ▸ List.prefix_rfl
      rw [List.prefix_append_right_inj] at isPrefix
      obtain ⟨expected, missing⟩ := cutOff' part isPrefix fun all => less (all ▸ rfl)
      exact ⟨expected, (bind_of_ok (same part) onward).trans missing⟩

theorem Exact.traversePlain {visit : Field → α → Reader β}
    (each : ∀ field item, Exact (visit field item)) (fields : PlainFields α) :
    Exact (fields.traverse visit) := by
  refine .bind (each _ _) fun base => .bind (each _ _) fun backtrack => ?_
  refine .bind (each _ _) fun fallback => .bind (each _ _) fun trans => ?_
  exact .bind (each _ _) fun check => .pure _

theorem Exact.traverseCaptures {visit : Field → α → Reader β}
    (each : ∀ field item, Exact (visit field item)) (fields : CaptureFields α) :
    Exact (fields.traverse visit) := by
  refine .bind (each _ _) fun baseCode => .bind (each _ _) fun backtrackCode => ?_
  refine .bind (each _ _) fun fallbackCode => .bind (each _ _) fun transCode => ?_
  exact .bind (each _ _) fun checkCode => .pure _

theorem Exact.takeWord : Exact takeWord := by
  refine .bind (.take _ _) fun taken => ?_
  split
  · exact .pure _
  · exact .throw _

theorem Exact.takeHeader : Exact takeHeader := by
  refine .bind .takeWord fun states => .bind .takeWord fun flags => ?_
  refine .bind .takeWord fun transLength => .bind .takeWord fun codeTransLength => ?_
  exact .bind .takeWord fun codeLength => .pure _

theorem Exact.takeEntries (field : Field) (count : UInt32) : Exact (takeEntries field count) :=
  .bind (.take _ _) fun _ => .lift _

end TableLexer.Binary
