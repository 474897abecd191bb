import TableLexer.Proofs.Json.Scalars

/-! Containers are read item by item, as they are spelled. One lemma follows a loop over the items
of any container; arrays of integers and the keys of objects are read with it. -/

set_option autoImplicit false

namespace TableLexer.Json.Reader

variable {α β σ : Type} {bytes rest : List UInt8}

theorem closed_separated (spell : β → List UInt8) (items : List β) (closed : Closed bytes) :
    Closed (separated spell false items ++ bytes) := by
  cases items with
  | nil => exact closed
  | cons item items => exact .comma _

/-- A loop that takes one item at a time takes all items of a container. What a step does may
depend on the items before. -/
theorem Runs.separated {step : σ → Reader (σ ⊕ α)} {spell : β → List UInt8}
    (advance : σ → β → σ) (isFirst : σ → Bool) {items : List β} {state : σ} {value : α}
    (each : ∀ done item more, items = done ++ item :: more → ∀ left, Closed left →
      Reads (step (done.foldl advance state))
        (separator (isFirst (done.foldl advance state)) ++ (spell item ++ left))
        (.inl (advance (done.foldl advance state) item)) left)
    (later : ∀ state item, isFirst (advance state item) = false)
    (spelled : ∀ item ∈ items, spell item ≠ []) (closed : Closed bytes)
    (onward : Runs step (items.foldl advance state) bytes value rest) :
    Runs step state (Json.separated spell (isFirst state) items ++ bytes) value rest := by
  induction items generalizing state with
  | nil => exact onward
  | cons item items ih =>
    rw [List.forall_mem_cons] at spelled
    have first := each [] item items rfl _ (closed_separated spell items closed)
    have others : Runs step (advance state item)
        (Json.separated spell (isFirst (advance state item)) items ++ bytes) value rest := by
      refine ih ?_ spelled.2 onward
      intro done item' more same
      exact each (item :: done) item' more (same ▸ rfl)
    rw [later] at others
    have shrinks := List.length_pos_of_ne_nil spelled.1
    unfold Json.separated
    rw [List.append_assoc, List.append_assoc]
    refine .more first ?_ others
    simp only [List.length_append]
    omega

theorem Reads.anotherItem {byte : UInt8} (solid : isBlank byte = false)
    (starts : Char.ofUInt8 byte ≠ ']') (isFirst : Bool) :
    Reads (anotherItem isFirst) (separator isFirst ++ byte :: rest) true (byte :: rest) := by
  cases isFirst with
  | true =>
    refine .bind (.peekToken solid) ?_
    split
    · contradiction
    · rename_i same
      exact absurd (Option.some.inj same) starts
    · exact .pure true
    · contradiction
    · contradiction
  | false =>
    change Reads _ (44 :: byte :: rest) _ _
    refine .bind (.peekToken rfl) (.bind .skip (.bind (.peekToken solid) ?_))
    split
    · contradiction
    · rename_i same
      exact absurd (Option.some.inj same) starts
    · exact .pure true

theorem Reads.anotherItem_end (isFirst : Bool) :
    Reads (Reader.anotherItem isFirst) (93 :: rest) false (93 :: rest) := by
  refine .bind (.peekToken rfl) ?_
  cases isFirst <;> exact .pure false

theorem Reads.anotherKey (isFirst : Bool) :
    Reads (anotherKey isFirst) (separator isFirst ++ 34 :: rest) true (34 :: rest) := by
  cases isFirst with
  | true => exact .bind (.peekToken rfl) (.pure true)
  | false =>
    change Reads _ (44 :: 34 :: rest) _ _
    exact .bind (.peekToken rfl) (.bind .skip (.bind (.peekToken rfl) (.pure true)))

theorem Reads.anotherKey_end (isFirst : Bool) :
    Reads (Reader.anotherKey isFirst) (125 :: rest) false (125 :: rest) := by
  refine .bind (.peekToken rfl) ?_
  cases isFirst <;> exact .pure false

theorem Reads.colon : Reads colon (58 :: rest) () rest :=
  .bind (.peekToken rfl) .skip

def StartsItem (bytes : List UInt8) : Prop :=
  ∃ byte more, bytes = byte :: more ∧ isBlank byte = false ∧ Char.ofUInt8 byte ≠ ']'

theorem Reads.array {item : Reader α} {spell : β → List UInt8} {result : β → α} {items : List β}
    (starts : ∀ x ∈ items, StartsItem (spell x))
    (each : ∀ x ∈ items, ∀ left, Closed left → Reads item (spell x ++ left) (result x) left) :
    Reads (array item) (91 :: separated spell true items ++ 93 :: rest)
      (items.map result).toArray rest := by
  have loop : Runs (fun (read : Array α) => do
      if ← Reader.anotherItem read.isEmpty then return .inl (read.push (← item))
      else return .inr read) #[] (separated spell true items ++ 93 :: rest)
      (items.map result).toArray (93 :: rest) := by
    -- Whether a comma comes first is told by whether anything was read before.
    refine Runs.separated (fun read x => read.push (result x)) Array.isEmpty ?_ ?_ ?_
      (.bracket rest) ?_
    · intro done x more same left closed
      have member : x ∈ items := by simp [same]
      obtain ⟨byte, others, spelled, solid, inside⟩ := starts x member
      have read := each x member left closed
      rw [spelled] at read ⊢
      exact .bind (.anotherItem solid inside _) (.bind read (.pure _))
    · simp
    · intro x member
      obtain ⟨byte, others, spelled, _⟩ := starts x member
      rw [spelled]
      exact List.cons_ne_nil byte others
    · have collected : items.foldl (fun read x => read.push (result x)) #[] =
          (items.map result).toArray := by
        simp
      rw [collected]
      exact .done (.bind (.anotherItem_end _) (.pure _))
  exact .bind .skip (.bind loop.repeatUntil (.bind .skip (.pure _)))

def Fits64 (n : Int) : Prop :=
  -(signedLimit : Int) ≤ n ∧ n < UInt64.size

theorem startsItem_integer (n : Int) : StartsItem (ofInt n).write := by
  obtain n | n := n
  · obtain ⟨first, others, leading⟩ := digits_eq_cons n
    have digit : isDigit first := isDigit_of_mem_digits (leading ▸ List.mem_cons_self)
    refine ⟨first, others, (write_ofInt n).trans leading, isBlank_digit digit, fun same => ?_⟩
    rw [isDigit, same] at digit
    cases digit
  · exact ⟨45, _, write_ofInt_neg n, rfl, by decide⟩

theorem Reads.integers {item : Reader α} {result : Int → α} {integers : List Int}
    (each : ∀ n ∈ integers, ∀ left, Closed left →
      Reads item ((ofInt n).write ++ left) (result n) left) :
    Reads (Reader.array item) ((Json.array (integers.map ofInt)).write ++ rest)
      (integers.map result).toArray rest := by
  rw [write_array, separated_map, List.append_assoc]
  exact Reads.array (fun n _ => startsItem_integer n) each

theorem Reads.head_array {items : List Json} :
    Reads head ((Json.array items).write ++ rest) .array ((Json.array items).write ++ rest) := by
  rw [write_array]
  exact .bind (.peekToken rfl) (.pure _)

theorem Reads.head_object {members : List (String × Json)} :
    Reads head ((Json.object members).write ++ rest) .object
      ((Json.object members).write ++ rest) := by
  rw [write_object]
  exact .bind (.peekToken rfl) (.pure _)

theorem Reads.value_integers {integers : List Int} (fits : ∀ n ∈ integers, Fits64 n) (depth : Nat) :
    Reads (value (depth + 1)) ((Json.array (integers.map ofInt)).write ++ rest)
      (.array (integers.map ofInt)) rest := by
  have each : ∀ n ∈ integers, ∀ left, Closed left →
      Reads (value depth) ((ofInt n).write ++ left) (ofInt n) left := by
    intro n member left closed
    have number := Reads.head_integer (fits n member).1 (fits n member).2 closed
    cases depth <;>
    · refine .bind number ?_
      exact .pure _
  refine .bind .head_array ?_
  refine .bind (.integers each) ?_
  exact .pure _

end TableLexer.Json.Reader
