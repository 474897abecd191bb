/-! Little-endian words: a signed 16-bit entry as two bytes and an unsigned 32-bit length as
four, lowest byte first. -/

set_option autoImplicit false

namespace TableLexer.Words

def ofInt16 (entry : Int16) : List UInt8 :=
  [entry.toUInt16.toUInt8, (entry.toUInt16 >>> 8).toUInt8]

def toInt16 (low high : UInt8) : Int16 :=
  (UInt16.ofNat (low.toNat + 256 * high.toNat)).toInt16

theorem toInt16_ofInt16 (entry : Int16) :
    toInt16 entry.toUInt16.toUInt8 (entry.toUInt16 >>> 8).toUInt8 = entry := by
  have word : UInt16.ofNat (entry.toUInt16.toUInt8.toNat +
      256 * (entry.toUInt16 >>> 8).toUInt8.toNat) = entry.toUInt16 := by
    apply UInt16.toNat_inj.mp
    have bound := entry.toUInt16.toNat_lt
    simp [Nat.shiftRight_eq_div_pow]
    omega
  rw [toInt16, word]
  rfl

theorem ofInt16_toInt16 (low high : UInt8) : ofInt16 (toInt16 low high) = [low, high] := by
  have word : (toInt16 low high).toUInt16 = UInt16.ofNat (low.toNat + 256 * high.toNat) := rfl
  have low_lt := low.toNat_lt
  have high_lt := high.toNat_lt
  rw [ofInt16, word]
  congr
  · apply UInt8.toNat_inj.mp
    simp
  · apply UInt8.toNat_inj.mp
    simp [Nat.shiftRight_eq_div_pow]
    omega

def ofUInt32 (word : UInt32) : List UInt8 :=
  [word.toUInt8, (word >>> 8).toUInt8, (word >>> 16).toUInt8, (word >>> 24).toUInt8]

def toUInt32 (a b c d : UInt8) : UInt32 :=
  UInt32.ofNat (a.toNat + 256 * (b.toNat + 256 * (c.toNat + 256 * d.toNat)))

theorem toUInt32_ofUInt32 (word : UInt32) :
    toUInt32 word.toUInt8 (word >>> 8).toUInt8 (word >>> 16).toUInt8 (word >>> 24).toUInt8 =
      word := by
  apply UInt32.toNat_inj.mp
  have bound := word.toNat_lt
  simp [toUInt32, Nat.shiftRight_eq_div_pow]
  omega

theorem ofUInt32_toUInt32 (a b c d : UInt8) : ofUInt32 (toUInt32 a b c d) = [a, b, c, d] := by
  have a_lt := a.toNat_lt
  have b_lt := b.toNat_lt
  have c_lt := c.toNat_lt
  have d_lt := d.toNat_lt
  rw [ofUInt32, toUInt32]
  congr
  · apply UInt8.toNat_inj.mp
    simp
  all_goals
    apply UInt8.toNat_inj.mp
    simp [Nat.shiftRight_eq_div_pow]
    omega

def encode (entries : Array Int16) : List UInt8 :=
  entries.toList.flatMap ofInt16

theorem length_encode (entries : Array Int16) : (encode entries).length = 2 * entries.size := by
  rw [encode, List.length_flatMap, ← Array.length_toList]
  induction entries.toList with
  | nil => rfl
  | cons entry rest ih =>
    rw [List.map_cons, List.sum_cons, ih, List.length_cons]
    simp only [ofInt16, List.length_cons, List.length_nil]
    omega

/-- The entries that `bytes` hold after `done`; none when a byte is left over. -/
def decodeAfter (done : Array Int16) : List UInt8 → Option (Array Int16)
  | [] => some done
  | [_] => none
  | low :: high :: rest => decodeAfter (done.push (toInt16 low high)) rest

def decode? (bytes : List UInt8) : Option (Array Int16) :=
  decodeAfter #[] bytes

theorem decodeAfter_flatMap (done : Array Int16) (entries : List Int16) :
    decodeAfter done (entries.flatMap ofInt16) = some (done ++ entries) := by
  induction entries generalizing done with
  | nil => simp [decodeAfter]
  | cons entry rest ih =>
    have read := ih (done.push entry)
    rw [List.flatMap_cons]
    change decodeAfter (done.push (toInt16 _ _)) (rest.flatMap ofInt16) = _
    rw [toInt16_ofInt16, read]
    simp

theorem decodeAfter_eq_some_iff {done entries : Array Int16} {bytes : List UInt8} :
    decodeAfter done bytes = some entries ↔
      ∃ read : List Int16, bytes = read.flatMap ofInt16 ∧ entries = done ++ read := by
  constructor
  · intro decoded
    fun_induction decodeAfter done bytes with
    | case1 done =>
      cases decoded
      exact ⟨[], rfl, by simp⟩
    | case2 => cases decoded
    | case3 done low high rest ih =>
      obtain ⟨read, rfl, rfl⟩ := ih decoded
      refine ⟨toInt16 low high :: read, ?_, ?_⟩
      · rw [List.flatMap_cons, ofInt16_toInt16]
        rfl
      · simp
  · rintro ⟨read, rfl, rfl⟩
    exact decodeAfter_flatMap done read

theorem decode?_encode (entries : Array Int16) : decode? (encode entries) = some entries := by
  simp [decode?, encode, decodeAfter_flatMap]

theorem decode?_eq_some_iff {bytes : List UInt8} {entries : Array Int16} :
    decode? bytes = some entries ↔ bytes = encode entries := by
  constructor
  · intro decoded
    obtain ⟨read, rfl, rfl⟩ := decodeAfter_eq_some_iff.mp decoded
    simp [encode]
  · rintro rfl
    exact decode?_encode entries

end TableLexer.Words
