import TableLexer.Program.Codec

/-! Programs come from instructions that name no reserved cell, or from bytes. Their byte form is
self-delimiting: a program is read back from its bytes whatever follows them, the bytes that were
read are its own, and nothing that is appended later changes what was read. -/

set_option autoImplicit false

namespace TableLexer

theorem CellId.ofByte?_reserved : CellId.ofByte? 255 = none :=
  CellId.ofByte?_eq_none_iff.mpr rfl

def Instr.unchecked : Instr CellId → Instr UInt8
  | .copy dest src => .copy dest.toByte src.toByte
  | .mark dest => .mark dest.toByte

theorem Instr.checked?_unchecked (instr : Instr CellId) :
    instr.unchecked.checked? = some instr := by
  cases instr <;> simp [unchecked, checked?, CellId.ofByte?_toByte]

theorem Instr.unchecked_of_checked? {instr : Instr UInt8} {checked : Instr CellId}
    (passed : instr.checked? = some checked) : checked.unchecked = instr := by
  cases instr with
  | copy dest src =>
    simp only [checked?, Option.bind_eq_bind, Option.bind_eq_some_iff] at passed
    obtain ⟨dest', named, src', named', ⟨⟩⟩ := passed
    rw [unchecked, CellId.toByte_of_ofByte? named, CellId.toByte_of_ofByte? named']
  | mark dest =>
    simp only [checked?, Option.bind_eq_bind, Option.bind_eq_some_iff] at passed
    obtain ⟨dest', named, ⟨⟩⟩ := passed
    rw [unchecked, CellId.toByte_of_ofByte? named]

theorem Instr.mapM_checked?_eq_some_iff {instrs : List (Instr UInt8)} {program : Program} :
    instrs.mapM checked? = some program ↔ program.map unchecked = instrs := by
  induction instrs generalizing program with
  | nil =>
    rw [List.map_eq_nil_iff]
    constructor
    · rintro ⟨⟩
      rfl
    · rintro rfl
      rfl
  | cons instr rest ih =>
    simp only [List.mapM_cons, Option.bind_eq_bind, Option.bind_eq_some_iff, Option.pure_def,
      Option.some.injEq, ih]
    constructor
    · rintro ⟨first, passed, others, rfl, rfl⟩
      rw [List.map_cons, unchecked_of_checked? passed]
    · intro same
      obtain ⟨first, others, rfl, rfl, rfl⟩ := List.map_eq_cons_iff.mp same
      exact ⟨first, first.checked?_unchecked, others, rfl, rfl⟩

theorem Program.ofInstrs?_eq_ok_iff {instrs : List (Instr UInt8)} {program : Program} :
    ofInstrs? instrs = .ok program ↔ program.map Instr.unchecked = instrs := by
  rw [← Instr.mapM_checked?_eq_some_iff, ofInstrs?]
  cases instrs.mapM Instr.checked? <;> simp

theorem Instr.bytes_ofBytes (dest : CellId) (src : UInt8) :
    (ofBytes dest src).bytes = [dest.toByte, src] := by
  cases read : CellId.ofByte? src with
  | none => rw [ofBytes, read, bytes, CellId.ofByte?_eq_none_iff.mp read]
  | some cell => rw [ofBytes, read, bytes, CellId.toByte_of_ofByte? read]

namespace Program

theorem read_end (rest : List UInt8) : read (255 :: rest) = .ok [] := by
  cases rest with
  | nil => simp only [read, CellId.ofByte?_reserved]
  | cons byte rest => simp only [read, CellId.ofByte?_reserved]

theorem read_instr (dest : CellId) (src : UInt8) (rest : List UInt8) :
    read (dest.toByte :: src :: rest) = (read rest).map (Instr.ofBytes dest src :: ·) := by
  simp only [read, CellId.ofByte?_toByte]

theorem read_encode (program : Program) (rest : List UInt8) :
    read (program.encode ++ rest) = .ok program := by
  induction program with
  | nil => exact read_end rest
  | cons instr others ih =>
    have split : encode (instr :: others) ++ rest = instr.bytes ++ (encode others ++ rest) := by
      simp [encode]
    rw [split]
    cases instr with
    | copy dest src =>
      change read (dest.toByte :: src.toByte :: (encode others ++ rest)) = _
      rw [read_instr, ih, Instr.ofBytes, CellId.ofByte?_toByte]
      rfl
    | mark dest =>
      change read (dest.toByte :: 255 :: (encode others ++ rest)) = _
      rw [read_instr, ih, Instr.ofBytes, CellId.ofByte?_reserved]
      rfl

theorem encode_of_read {bytes : List UInt8} {program : Program}
    (found : read bytes = .ok program) : program.encode <+: bytes := by
  fun_induction read bytes generalizing program with
  | case1 => cases found
  | case2 last reserved =>
    cases found
    rw [CellId.ofByte?_eq_none_iff.mp reserved]
    exact List.prefix_refl _
  | case3 last cell named => cases found
  | case4 dest src rest reserved =>
    cases found
    rw [CellId.ofByte?_eq_none_iff.mp reserved]
    exact List.prefix_append [255] (src :: rest)
  | case5 dest src rest cell named ih =>
    cases others : read rest with
    | error flaw =>
      rw [others] at found
      cases found
    | ok tail =>
      rw [others] at found ih
      cases found
      obtain ⟨more, rfl⟩ := ih rfl
      refine ⟨more, ?_⟩
      simp [encode, Instr.bytes_ofBytes, CellId.toByte_of_ofByte? named]

theorem read_append {bytes : List UInt8} {program : Program} (found : read bytes = .ok program)
    (more : List UInt8) : read (bytes ++ more) = .ok program := by
  obtain ⟨rest, rfl⟩ := encode_of_read found
  rw [List.append_assoc]
  exact read_encode program (rest ++ more)

theorem decode_of_grown {code longer : List UInt8} (grown : code <+: longer) {offset : Nat}
    {program : Program} (found : decode code offset = .ok program) :
    decode longer offset = .ok program := by
  obtain ⟨more, rfl⟩ := grown
  rw [decode_eq_read] at found ⊢
  rw [List.drop_append]
  exact read_append found _

/-- A program is decoded from where its bytes stand, whatever surrounds them. -/
theorem decode_encode (program : Program) (before after : List UInt8) :
    decode (before ++ program.encode ++ after) before.length = .ok program := by
  rw [decode_eq_read, List.append_assoc, List.drop_left]
  exact read_encode program after

theorem decode_laid_out (code : List UInt8) (program : Program) :
    decode (code ++ program.encode) code.length = .ok program := by
  have found := decode_encode program code []
  rwa [List.append_nil] at found

theorem encode_of_decode {code : List UInt8} {offset : Nat} {program : Program}
    (found : decode code offset = .ok program) : program.encode <+: code.drop offset :=
  encode_of_read ((decode_eq_read code offset).symm.trans found)

end Program

end TableLexer
