import TableLexer.Json.Read

/-! Readers on text that they accept. What a reader takes is said by the bytes before and behind
it, so that readers in sequence are followed from one to the next. A loop is followed step by step,
and its bound is never met because each step but the last takes a byte. -/

set_option autoImplicit false

namespace TableLexer.Json

def Cursor.of (bytes : List UInt8) : Cursor :=
  { rest := bytes, left := bytes.length }

namespace Reader

variable {α β σ : Type} {bytes left rest : List UInt8}

/-- The reader accepts the start of `bytes` as `value` and leaves `rest`. -/
def Reads (reader : Reader α) (bytes : List UInt8) (value : α) (rest : List UInt8) : Prop :=
  reader (.of bytes) = .ok (value, .of rest)

theorem run_of_reads {reader : Reader α} {value : α} (reads : Reads reader bytes value rest) :
    run reader bytes = .ok value := by
  have accepted : reader { rest := bytes, left := bytes.length } = .ok (value, .of rest) := reads
  rw [run, accepted]

theorem Reads.bind {reader : Reader α} {onward : α → Reader β} {value : α} {result : β}
    (first : Reads reader bytes value left) (second : Reads (onward value) left result rest) :
    Reads (reader >>= onward) bytes result rest := by
  unfold Reads
  change (reader (.of bytes) >>= fun (value, cursor) => onward value cursor) = _
  rw [first]
  exact second

theorem Reads.pure (value : α) : Reads (Pure.pure value) bytes value bytes := rfl

theorem Reads.orStop (value : α) : Reads (orStop (.ok value)) bytes value bytes := rfl

theorem Reads.peek : Reads peek? bytes (bytes.head?.map Char.ofUInt8) bytes := rfl

theorem Reads.skip {byte : UInt8} : Reads skip (byte :: rest) () rest := rfl

theorem Reads.next {byte : UInt8} : Reads next? (byte :: rest) (some byte) rest := rfl

theorem Reads.takeWhile {belongs : UInt8 → Bool} {taken : List UInt8}
    (inside : ∀ byte ∈ taken, belongs byte) (outside : rest.head?.all (!belongs ·)) :
    Reads (takeWhile belongs) (taken ++ rest) taken rest := by
  have stops : rest.takeWhile belongs = [] ∧ rest.dropWhile belongs = rest := by
    cases rest with
    | nil => exact ⟨rfl, rfl⟩
    | cons byte rest =>
      have free : belongs byte = false := by simpa using outside
      simp [free]
  have taken_eq : (taken ++ rest).takeWhile belongs = taken := by
    rw [List.takeWhile_append_of_pos inside, stops.1, List.append_nil]
  have rest_eq : (taken ++ rest).dropWhile belongs = rest := by
    rw [List.dropWhile_append_of_pos inside, stops.2]
  change Except.ok ((taken ++ rest).takeWhile belongs, Cursor.mk ((taken ++ rest).dropWhile belongs)
    ((taken ++ rest).length - ((taken ++ rest).takeWhile belongs).length)) = _
  rw [taken_eq, rest_eq]
  simp [Cursor.of]

theorem Reads.peekToken {byte : UInt8} (solid : isBlank byte = false) :
    Reads peekToken? (byte :: rest) (some (Char.ofUInt8 byte)) (byte :: rest) := by
  have outside : (byte :: rest).head?.all (!isBlank ·) := by simpa using solid
  have nothing : Reads (Reader.takeWhile isBlank) (byte :: rest) [] (byte :: rest) :=
    .takeWhile (List.forall_mem_nil _) outside
  have skipped : Reads skipBlanks (byte :: rest) () (byte :: rest) := .bind nothing (.pure ())
  exact .bind skipped .peek

theorem Reads.peekToken_end : Reads peekToken? [] none [] := rfl

/-- A loop that accepts the start of `bytes` as `value`, step by step. -/
inductive Runs (step : σ → Reader (σ ⊕ α)) : σ → List UInt8 → α → List UInt8 → Prop
  | done {state : σ} {bytes rest : List UInt8} {value : α} :
      Reads (step state) bytes (.inr value) rest → Runs step state bytes value rest
  | more {state state' : σ} {bytes left rest : List UInt8} {value : α} :
      Reads (step state) bytes (.inl state') left → left.length < bytes.length →
      Runs step state' left value rest → Runs step state bytes value rest

theorem Runs.repeatWithin {step : σ → Reader (σ ⊕ α)} {state : σ} {value : α}
    (runs : Runs step state bytes value rest) {steps : Nat} (enough : bytes.length < steps) :
    Reads (repeatWithin step steps state) bytes value rest := by
  induction runs generalizing steps with
  | done last =>
    obtain ⟨steps, rfl⟩ : ∃ n, steps = n + 1 := ⟨steps - 1, by omega⟩
    exact .bind last (.pure _)
  | more first shrinks _ ih =>
    obtain ⟨steps, rfl⟩ : ∃ n, steps = n + 1 := ⟨steps - 1, by omega⟩
    exact .bind first (ih (by omega))

theorem Runs.repeatUntil {step : σ → Reader (σ ⊕ α)} {state : σ} {value : α}
    (runs : Runs step state bytes value rest) :
    Reads (repeatUntil step state) bytes value rest :=
  runs.repeatWithin (Nat.lt_succ_self bytes.length)

end Reader

end TableLexer.Json
