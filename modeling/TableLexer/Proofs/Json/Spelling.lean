import TableLexer.Json.Value
import TableLexer.Proofs.Text.Utf8

/-! The bytes of a document. A container is spelled as its items with a comma before each but the
first, and an item is spelled the same wherever it stands. -/

set_option autoImplicit false

namespace TableLexer.Json

mutual

theorem writeAfter_eq (out : String) : ∀ json, writeAfter out json = out ++ writeAfter "" json
  | .null | .bool true | .bool false | .number _ | .text _ => by simp [writeAfter]
  | .array [] | .object [] => by simp [writeAfter]
  | .array (item :: items) => by
    unfold writeAfter
    rw [writeItemsAfter_eq, writeAfter_eq _ item, writeItemsAfter_eq (writeAfter _ item),
      writeAfter_eq ("" ++ "[") item]
    simp [String.append_assoc]
  | .object ((key, value) :: members) => by
    unfold writeAfter
    rw [writeMembersAfter_eq, writeAfter_eq _ value, writeMembersAfter_eq (writeAfter _ value),
      writeAfter_eq ("" ++ _ ++ _ ++ _) value]
    simp [String.append_assoc]

theorem writeItemsAfter_eq (out : String) :
    ∀ items, writeItemsAfter out items = out ++ writeItemsAfter "" items
  | [] => by simp [writeItemsAfter]
  | item :: items => by
    unfold writeItemsAfter
    rw [writeItemsAfter_eq, writeAfter_eq _ item, writeItemsAfter_eq (writeAfter _ item),
      writeAfter_eq ("" ++ ",") item]
    simp [String.append_assoc]

theorem writeMembersAfter_eq (out : String) :
    ∀ members, writeMembersAfter out members = out ++ writeMembersAfter "" members
  | [] => by simp [writeMembersAfter]
  | (key, value) :: members => by
    unfold writeMembersAfter
    rw [writeMembersAfter_eq, writeAfter_eq _ value, writeMembersAfter_eq (writeAfter _ value),
      writeAfter_eq ("" ++ _ ++ _ ++ _) value]
    simp [String.append_assoc]

end

def separator (isFirst : Bool) : List UInt8 :=
  if isFirst then [] else [44]

/-- Items as they stand in a container, the first of them with or without a comma. -/
def separated {α : Type} (spell : α → List UInt8) : Bool → List α → List UInt8
  | _, [] => []
  | isFirst, item :: items => separator isFirst ++ spell item ++ separated spell false items

theorem separated_map {α β : Type} (spell : β → List UInt8) (convert : α → β) (isFirst : Bool)
    (items : List α) : separated spell isFirst (items.map convert) =
      separated (fun item => spell (convert item)) isFirst items := by
  induction items generalizing isFirst with
  | nil => rfl
  | cons item items ih => simp [separated, ih]

theorem separated_append {α : Type} (spell : α → List UInt8) (isFirst : Bool)
    (items others : List α) : separated spell isFirst (items ++ others) =
      separated spell isFirst items ++ separated spell (isFirst && items.isEmpty) others := by
  induction items generalizing isFirst with
  | nil => simp [separated]
  | cons item items ih => simp [separated, ih]

def memberBytes (member : String × Json) : List UInt8 :=
  Utf8.encode (spellText member.1) ++ 58 :: member.2.write

theorem encode_writeItemsAfter (items : List Json) :
    Utf8.encode (writeItemsAfter "" items) = separated write false items := by
  induction items with
  | nil =>
    rw [writeItemsAfter]
    exact Utf8.encode_eq ""
  | cons item items ih =>
    have comma : Utf8.encode "," = [44] := Utf8.encode_eq ","
    rw [writeItemsAfter, writeItemsAfter_eq, writeAfter_eq, Utf8.encode_append,
      Utf8.encode_append, ih, String.empty_append, comma]
    rfl

theorem encode_writeMembersAfter (members : List (String × Json)) :
    Utf8.encode (writeMembersAfter "" members) = separated memberBytes false members := by
  induction members with
  | nil =>
    rw [writeMembersAfter]
    exact Utf8.encode_eq ""
  | cons member members ih =>
    have comma : Utf8.encode "," = [44] := Utf8.encode_eq ","
    have colon : Utf8.encode ":" = [58] := Utf8.encode_eq ":"
    rw [writeMembersAfter, writeMembersAfter_eq, writeAfter_eq]
    simp only [Utf8.encode_append, ih, String.empty_append, comma, colon]
    simp [separated, separator, memberBytes, write]

theorem write_array (items : List Json) :
    write (.array items) = 91 :: separated write true items ++ [93] := by
  have opening : Utf8.encode "[" = [91] := Utf8.encode_eq "["
  have closing : Utf8.encode "]" = [93] := Utf8.encode_eq "]"
  cases items with
  | nil => exact Utf8.encode_eq "[]"
  | cons item items =>
    rw [write, writeAfter, writeItemsAfter_eq, writeAfter_eq]
    simp only [Utf8.encode_append, encode_writeItemsAfter, String.empty_append, opening, closing]
    simp [separated, separator, write]

theorem write_object (members : List (String × Json)) :
    write (.object members) = 123 :: separated memberBytes true members ++ [125] := by
  have opening : Utf8.encode "\x7b" = [123] := Utf8.encode_eq "\x7b"
  have colon : Utf8.encode ":" = [58] := Utf8.encode_eq ":"
  have closing : Utf8.encode "\x7d" = [125] := Utf8.encode_eq "\x7d"
  cases members with
  | nil => exact Utf8.encode_eq "\x7b\x7d"
  | cons member members =>
    rw [write, writeAfter, writeMembersAfter_eq, writeAfter_eq]
    simp only [Utf8.encode_append, encode_writeMembersAfter, String.empty_append, opening, colon,
      closing]
    simp [separated, separator, memberBytes, write]

/-- A character that stands for itself in a string, in one byte. -/
structure IsPlain (char : Char) : Prop where
  ascii : IsAscii char
  printed : 32 ≤ char.toNat
  not_quote : char ≠ '"'
  not_backslash : char ≠ '\\'

instance (char : Char) : Decidable (IsPlain char) :=
  decidable_of_iff (IsAscii char ∧ 32 ≤ char.toNat ∧ char ≠ '"' ∧ char ≠ '\\')
    ⟨fun ⟨ascii, printed, not_quote, not_backslash⟩ => ⟨ascii, printed, not_quote, not_backslash⟩,
      fun plain => ⟨plain.ascii, plain.printed, plain.not_quote, plain.not_backslash⟩⟩

theorem isPlain_of_all {chars : List Char} (all : chars.all fun char => decide (IsPlain char)) :
    ∀ char ∈ chars, IsPlain char := by
  simpa using all

theorem escape_plain {char : Char} (plain : IsPlain char) : escape char = [char] := by
  have printed := plain.printed
  unfold escape
  split
  · exact absurd rfl plain.not_quote
  · exact absurd rfl plain.not_backslash
  · exact absurd printed (by decide)
  · exact absurd printed (by decide)
  · exact absurd printed (by decide)
  · rw [if_neg (by omega), if_neg (by omega), if_neg (by omega), if_neg (by omega)]

theorem encode_spellText {text : String} (plain : ∀ char ∈ text.toList, IsPlain char) :
    Utf8.encode (spellText text) = 34 :: text.toList.map Char.toUInt8 ++ [34] := by
  have spelled : text.toList.flatMap escape = text.toList := by
    rw [List.flatMap_congr fun char member => escape_plain (plain char member)]
    exact List.flatMap_singleton' _
  have ascii : ∀ char ∈ '"' :: text.toList ++ ['"'], IsAscii char := by
    have quote : IsAscii '"' := by decide
    simp only [List.cons_append, List.forall_mem_cons, List.forall_mem_append]
    exact ⟨quote, fun char member => (plain char member).ascii, quote, List.forall_mem_nil _⟩
  rw [spellText, spelled, Utf8.encode_ofList ascii]
  simp
  rfl

theorem memberBytes_eq {key : String} (plain : ∀ char ∈ key.toList, IsPlain char) (value : Json) :
    memberBytes (key, value) = 34 :: key.toList.map Char.toUInt8 ++ 34 :: 58 :: value.write := by
  rw [memberBytes, encode_spellText plain]
  simp

def digits (n : Nat) : List UInt8 :=
  (Nat.toDigits 10 n).map Char.toUInt8

theorem isDigit_of_mem {n : Nat} {char : Char} (member : char ∈ Nat.toDigits 10 n) :
    char.isDigit :=
  Nat.isDigit_of_mem_toDigits (by decide) (by decide) member

theorem encode_toString (n : Nat) : Utf8.encode (toString n) = digits n := by
  rw [Nat.toString_eq_ofList_toDigits]
  exact Utf8.encode_ofList fun char member => isAscii_of_isDigit (isDigit_of_mem member)

theorem write_ofInt (n : Nat) : write (ofInt n) = digits n := by
  rw [write, ofInt, writeAfter, String.empty_append]
  exact encode_toString n

theorem write_ofInt_neg (n : Nat) : write (ofInt (-(n + 1 : Nat))) = 45 :: digits (n + 1) := by
  have sign : Utf8.encode "-" = [45] := Utf8.encode_eq "-"
  rw [write, ofInt, writeAfter, String.empty_append]
  change Utf8.encode ("-" ++ toString (n + 1)) = _
  rw [Utf8.encode_append, sign, encode_toString]
  rfl

end TableLexer.Json
