import Mathlib.Data.List.Basic
import TableLexer.Text.Utf8

/-! The bytes of text. Each character is encoded on its own; a character of ASCII is one byte, and
such bytes decode to the characters they came from. -/

set_option autoImplicit false

namespace TableLexer

/-- A character of one byte, whose code is that byte. -/
def IsAscii (char : Char) : Prop :=
  char.toNat < 128

instance (char : Char) : Decidable (IsAscii char) :=
  inferInstanceAs (Decidable (_ < _))

theorem isAscii_of_isDigit {char : Char} (digit : char.isDigit) : IsAscii char :=
  Nat.lt_of_le_of_lt (Char.isDigit_iff_toNat.mp digit).2 (by decide)

theorem ofUInt8_toUInt8 {char : Char} (ascii : IsAscii char) :
    Char.ofUInt8 char.toUInt8 = char := by
  have small : char.val.toNat < 128 := ascii
  apply Char.ext
  apply UInt32.toNat_inj.mp
  change char.val.toNat % 256 = char.val.toNat
  omega

theorem toNat_toUInt8 {char : Char} (ascii : IsAscii char) :
    char.toUInt8.toNat = char.toNat := by
  have small : char.val.toNat < 128 := ascii
  change char.val.toNat % 256 = char.val.toNat
  omega

namespace Utf8

theorem toList_loop (bytes : ByteArray) (index : Nat) (done : List UInt8) :
    ByteArray.toList.loop bytes index done = done.reverse ++ bytes.data.toList.drop index := by
  fun_induction ByteArray.toList.loop bytes index done with
  | case1 index done inside ih =>
    have within : index < bytes.data.toList.length := by simpa using inside
    rw [ih, List.drop_eq_getElem_cons within]
    simp [ByteArray.get!, inside]
  | case2 index done outside =>
    rw [List.drop_eq_nil_of_le (by simpa using outside), List.append_nil]

theorem encode_eq (text : String) : encode text = text.toList.flatMap String.utf8EncodeChar := by
  rw [encode, String.toUTF8_eq_toByteArray, ← String.utf8Encode_toList, ByteArray.toList,
    toList_loop, List.utf8Encode, List.toList_data_toByteArray]
  simp

theorem encode_append (text text' : String) :
    encode (text ++ text') = encode text ++ encode text' := by
  simp [encode_eq]

theorem encode_ofList {chars : List Char} (ascii : ∀ char ∈ chars, IsAscii char) :
    encode (.ofList chars) = chars.map Char.toUInt8 := by
  rw [encode_eq, String.toList_ofList]
  induction chars with
  | nil => rfl
  | cons char rest ih =>
    rw [List.forall_mem_cons] at ascii
    have size : char.utf8Size = 1 := by
      rw [Char.utf8Size_eq_one_iff, UInt32.le_iff_toNat_le]
      exact Nat.le_of_lt_succ ascii.1
    rw [List.flatMap_cons, ih ascii.2, String.utf8EncodeChar_eq_singleton size]
    rfl

theorem foldl_step_ascii {chars : List Char} (ascii : ∀ char ∈ chars, IsAscii char)
    (units : Array (Option Char)) :
    (chars.map Char.toUInt8).foldl step ⟨units, none⟩ = ⟨units ++ chars.map some, none⟩ := by
  induction chars generalizing units with
  | nil => simp
  | cons char rest ih =>
    rw [List.forall_mem_cons] at ascii
    have read : step ⟨units, none⟩ char.toUInt8 = ⟨units.push (some char), none⟩ := by
      change begin units char.toUInt8.toNat = _
      rw [toNat_toUInt8 ascii.1, begin, if_pos (id ascii.1 : char.toNat < 128), Char.ofNat_toNat]
    rw [List.map_cons, List.foldl_cons, read, ih ascii.2]
    simp

theorem decode?_ascii {chars : List Char} (ascii : ∀ char ∈ chars, IsAscii char) :
    decode? (chars.map Char.toUInt8) = some chars := by
  have units_eq : (units (chars.map Char.toUInt8)).toList = chars.map some := by
    rw [units, foldl_step_ascii ascii]
    simp [State.close]
  have collected : (chars.map some).mapM id = some (chars.map id) := by
    rw [List.mapM_map]
    exact List.mapM_pure
  rw [decode?, units_eq, collected, List.map_id]

end Utf8

end TableLexer
