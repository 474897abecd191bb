import TableLexer.Proofs.Json.Reading
import TableLexer.Proofs.Json.Spelling

/-! Integers and keys are read as they are spelled. An integer has no end of its own, so it is read
before a byte that can follow a value in a container. -/

set_option autoImplicit false

namespace TableLexer.Json.Reader

/-- What can follow a value in a container. -/
inductive Closed : List UInt8 → Prop
  | comma (rest : List UInt8) : Closed (44 :: rest)
  | bracket (rest : List UInt8) : Closed (93 :: rest)
  | brace (rest : List UInt8) : Closed (125 :: rest)

variable {rest : List UInt8}

theorem isDigit_toUInt8 {char : Char} (digit : char.isDigit) : isDigit char.toUInt8 := by
  rw [isDigit, ofUInt8_toUInt8 (isAscii_of_isDigit digit)]
  exact digit

theorem digitValue_toUInt8 {char : Char} (digit : char.isDigit) :
    digitValue char.toUInt8 = char.toNat - '0'.toNat := by
  rw [digitValue, toNat_toUInt8 (isAscii_of_isDigit digit)]

theorem isBlank_digit {byte : UInt8} (digit : isDigit byte) : isBlank byte = false := by
  unfold isDigit at digit
  rw [isBlank, Bool.eq_false_iff]
  intro blank
  simp only [Char.isWhitespace, Bool.or_eq_true, decide_eq_true_eq] at blank
  rcases blank with ((same | same) | same) | same <;>
  · rw [same] at digit
    cases digit

theorem le_ofDigitChars (chars : List Char) (start : Nat) :
    start ≤ Nat.ofDigitChars 10 chars start := by
  induction chars generalizing start with
  | nil => simp
  | cons char rest ih =>
    have later := ih (10 * start + (char.toNat - '0'.toNat))
    rw [Nat.ofDigitChars_cons]
    omega

theorem absorb_digits {chars : List Char} (all : ∀ char ∈ chars, char.isDigit) {start : Nat}
    (fits : Nat.ofDigitChars 10 chars start < UInt64.size) :
    absorb start (chars.map Char.toUInt8) = (Nat.ofDigitChars 10 chars start, 0) := by
  induction chars generalizing start with
  | nil => rfl
  | cons char rest ih =>
    rw [List.forall_mem_cons] at all
    rw [Nat.ofDigitChars_cons] at fits ⊢
    have next : start * 10 + digitValue char.toUInt8 = 10 * start + (char.toNat - '0'.toNat) := by
      rw [digitValue_toUInt8 all.1, Nat.mul_comm]
    have within := Nat.lt_of_le_of_lt (le_ofDigitChars rest _) fits
    rw [List.map_cons, absorb, next, if_pos within]
    exact ih all.2 fits

theorem absorb_number {n : Nat} (fits : n < UInt64.size) : absorb 0 (digits n) = (n, 0) := by
  have value : Nat.ofDigitChars 10 (Nat.toDigits 10 n) 0 = n := Nat.ofDigitChars_ten_toDigits
  have absorbed := absorb_digits (fun _ => isDigit_of_mem) (value.symm ▸ fits)
  rw [value] at absorbed
  exact absorbed

theorem isDigit_of_mem_digits {n : Nat} {byte : UInt8} (member : byte ∈ digits n) :
    isDigit byte := by
  obtain ⟨char, inside, rfl⟩ := List.mem_map.mp member
  exact isDigit_toUInt8 (isDigit_of_mem inside)

theorem toDigits_pos {n : Nat} (pos : 0 < n) :
    ∃ first others, Nat.toDigits 10 n = first :: others ∧ first ≠ '0' := by
  induction n using Nat.strongRecOn with
  | ind n ih =>
    rw [Nat.toDigits_eq_if (by decide)]
    split
    · rename_i single
      refine ⟨n.digitChar, [], rfl, fun zero => ?_⟩
      have value := Nat.toNat_digitChar_of_lt_ten single
      rw [zero] at value
      change 48 = _ at value
      omega
    · obtain ⟨first, others, leading, nonzero⟩ := ih (n / 10) (by omega) (by omega)
      exact ⟨first, others ++ [(n % 10).digitChar], by rw [leading]; rfl, nonzero⟩

theorem digits_pos {n : Nat} (pos : 0 < n) :
    ∃ first others, digits n = first :: others ∧ digitValue first ≠ 0 := by
  obtain ⟨first, others, leading, nonzero⟩ := toDigits_pos pos
  have digit : first.isDigit := isDigit_of_mem (leading ▸ List.mem_cons_self : first ∈ _)
  have ranged := Char.isDigit_iff_toNat.mp digit
  refine ⟨first.toUInt8, others.map Char.toUInt8, ?_, fun zero => nonzero ?_⟩
  · rw [digits, leading, List.map_cons]
  · rw [digitValue_toUInt8 digit] at zero
    exact Char.toNat_inj.mp (by omega)

theorem digits_eq_cons (n : Nat) : ∃ first others, digits n = first :: others :=
  List.exists_cons_of_ne_nil (by simp [digits])

theorem Reads.afterInteger (closed : Closed rest) (negative : Bool) (significand : Nat) :
    Reads (afterInteger negative significand 0) rest (whole negative significand) rest := by
  cases closed <;> rfl

theorem Closed.not_digit (closed : Closed rest) : rest.head?.all (!isDigit ·) := by
  cases closed <;> rfl

theorem Reads.number {n : Nat} (fits : n < UInt64.size) (closed : Closed rest) (negative : Bool) :
    Reads (number negative) (digits n ++ rest) (whole negative n) rest := by
  by_cases zero : n = 0
  · subst zero
    cases closed <;> rfl
  · obtain ⟨first, others, leading, nonzero⟩ := digits_pos (Nat.pos_of_ne_zero zero)
    have all : ∀ byte ∈ first :: others, isDigit byte := by
      intro byte member
      exact isDigit_of_mem_digits (leading ▸ member)
    rw [List.forall_mem_cons] at all
    have absorbed := absorb_number fits
    rw [leading] at absorbed ⊢
    refine .bind .next ?_
    simp only [all.1, nonzero, Bool.not_true, Bool.false_eq_true, if_false]
    refine .bind (.takeWhile all.2 closed.not_digit) ?_
    rw [absorbed]
    exact .afterInteger closed negative n

theorem Reads.head_digit {byte : UInt8} (digit : isDigit byte) {bytes : List UInt8}
    {number : Number} (reads : Reads (Reader.number false) (byte :: bytes) number rest) :
    Reads head (byte :: bytes) (.number number) rest := by
  refine .bind (.peekToken (isBlank_digit digit)) ?_
  unfold isDigit at digit
  generalize Char.ofUInt8 byte = char at digit
  split
  case h_9 =>
    rename_i same
    cases same
    rw [if_pos digit]
    exact .bind reads (.pure _)
  all_goals
    rename_i same
    cases same <;> cases digit

theorem whole_neg {n : Nat} (small : n + 1 ≤ signedLimit) :
    whole true (n + 1) = .integer (Int.negSucc n) := by
  rw [whole, if_neg (by decide), if_neg (by omega)]
  rfl

theorem Reads.head_integer {n : Int} (low : -(signedLimit : Int) ≤ n) (high : n < UInt64.size)
    (closed : Closed rest) :
    Reads head ((ofInt n).write ++ rest) (.number (.integer n)) rest := by
  obtain n | n := n
  · have fits : n < UInt64.size := Int.ofNat_lt.mp high
    have number := Reads.number fits closed false
    obtain ⟨first, others, leading⟩ := digits_eq_cons n
    have digit : isDigit first := isDigit_of_mem_digits (leading ▸ List.mem_cons_self)
    change Reads head (write (ofInt (n : Int)) ++ rest) _ rest
    rw [write_ofInt]
    rw [leading] at number ⊢
    exact .head_digit digit number
  · have small : n + 1 ≤ signedLimit := by omega
    have fits : n + 1 < UInt64.size := Nat.lt_of_le_of_lt small (by decide)
    have number := Reads.number fits closed true
    rw [whole_neg small] at number
    change Reads head (write (ofInt (-(n + 1 : Nat))) ++ rest) _ rest
    rw [write_ofInt_neg]
    exact .bind (.peekToken rfl) (.bind .skip (.bind number (.pure _)))

theorem Runs.text {chars : List Char} (plain : ∀ char ∈ chars, IsPlain char)
    (done : Array UInt8) :
    Runs textStep done (chars.map Char.toUInt8 ++ 34 :: rest) (done ++ chars.map Char.toUInt8)
      rest := by
  induction chars generalizing done with
  | nil =>
    have same : done ++ ([] : List Char).map Char.toUInt8 = done := by simp
    rw [same]
    exact .done (.bind .next (.pure _))
  | cons char chars ih =>
    rw [List.forall_mem_cons] at plain
    have step : Reads (textStep done) (char.toUInt8 :: (chars.map Char.toUInt8 ++ 34 :: rest))
        (.inl (done.push char.toUInt8)) (chars.map Char.toUInt8 ++ 34 :: rest) := by
      refine .bind .next ?_
      simp only [ofUInt8_toUInt8 plain.1.ascii]
      split
      · exact absurd rfl plain.1.not_quote
      · exact absurd rfl plain.1.not_backslash
      · have printed : ¬ char.toUInt8 < 32 := by
          rw [UInt8.lt_iff_toNat_lt, toNat_toUInt8 plain.1.ascii]
          exact Nat.not_lt.mpr plain.1.printed
        rw [if_neg printed]
        exact .pure _
    have later := ih plain.2 (done.push char.toUInt8)
    refine .more step (by simp) ?_
    simpa using later

theorem Reads.text {key : String} (plain : ∀ char ∈ key.toList, IsPlain char) :
    Reads text (key.toList.map Char.toUInt8 ++ 34 :: rest) key rest := by
  have decoded : Utf8.decode? (key.toList.map Char.toUInt8) = some key.toList :=
    Utf8.decode?_ascii fun char member => (plain char member).ascii
  have collected : ((#[] : Array UInt8) ++ key.toList.map Char.toUInt8).toList =
      key.toList.map Char.toUInt8 := by
    simp
  refine .bind (Runs.text plain #[]).repeatUntil ?_
  simp only [collected, decoded, String.ofList_toList]
  exact .pure key

end TableLexer.Json.Reader
