import TableLexer.Random

/-! What a draw can yield, whatever the state of its generator. Draws that are made of others yield
what these let through, so of a generator only its bounds matter. Words keep within the bounds: the
second word is asked for only when the first product leaves room below the end of the range. -/

set_option autoImplicit false

namespace TableLexer

variable {σ α β : Type}

namespace Draw

structure Yields (draw : Draw σ α) (holds : α → Prop) : Prop where
  drawn : ∀ state, holds (draw.run state).1

section

variable {draw : Draw σ α} {onward : α → Draw σ β} {holds : α → Prop} {holds' : β → Prop}

theorem Yields.pure {value : α} (known : holds value) :
    Yields (pure value : Draw σ α) holds :=
  ⟨fun _ => known⟩

theorem Yields.bind (first : draw.Yields holds)
    (next : ∀ value, holds value → (onward value).Yields holds') :
    Yields (draw >>= onward) holds' :=
  ⟨fun state => (next _ (first.drawn state)).drawn (draw.run state).2⟩

theorem Yields.mono (yields : draw.Yields holds) {weaker : α → Prop}
    (weaken : ∀ value, holds value → weaker value) : draw.Yields weaker :=
  ⟨fun state => weaken _ (yields.drawn state)⟩

theorem Yields.ite {condition : Prop} [Decidable condition] {draw' : Draw σ α}
    (first : condition → draw.Yields holds) (other : ¬ condition → draw'.Yields holds) :
    Yields (if condition then draw else draw') holds := by
  split
  · exact first ‹_›
  · exact other ‹_›

theorem times_yields (each : draw.Yields holds) (count : Nat) :
    (times count draw).Yields fun values =>
      values.length = count ∧ ∀ value ∈ values, holds value := by
  induction count with
  | zero => exact .pure ⟨rfl, List.forall_mem_nil _⟩
  | succ count ih =>
    unfold times
    apply each.bind
    intro first known
    apply ih.bind
    rintro rest ⟨length, others⟩
    exact .pure ⟨congrArg Nat.succ length, List.forall_mem_cons.mpr ⟨known, others⟩⟩

end

end Draw

theorem getD_mem {choices : List α} {index : Nat} (inside : index < choices.length)
    (other : α) : choices.getD index other ∈ choices := by
  rw [List.getD_eq_getElem?_getD, List.getElem?_eq_getElem inside]
  exact List.getElem_mem inside

namespace Generator

variable {generator : Generator σ}

/-- A number that is drawn below a bound is below it. -/
def InRange (generator : Generator σ) : Prop :=
  ∀ size, 0 < size → (generator.below size).Yields (· < size)

theorem chance_yields (threshold : UInt64) :
    (generator.chance threshold).Yields fun _ => True :=
  ⟨fun _ => trivial⟩

namespace InRange

variable (inRange : generator.InRange)

include inRange

theorem range_yields {low high : Nat} (ordered : low ≤ high) :
    (generator.range low high).Yields fun value => low ≤ value ∧ value ≤ high := by
  unfold range
  apply (inRange _ (Nat.succ_pos (high - low))).bind
  intro offset inside
  apply Draw.Yields.pure
  omega

theorem oneOf_yields {choices : List Char} (some : choices ≠ []) :
    (generator.oneOf choices).Yields (· ∈ choices) := by
  unfold oneOf
  apply (inRange _ (List.length_pos_iff.mpr some)).bind
  intro index inside
  exact .pure (getD_mem inside ' ')

end InRange

end Generator

namespace RandomWords

theorem word32_yields : word32.Yields (· < UInt32.size) :=
  ⟨fun _ => Nat.mod_lt _ (by decide)⟩

/-- A word below 2^32 times the size, in units of 2^32, is below the size, and so is its successor
when the rest of the product is large. -/
theorem high_lt {word size : Nat} (small : word < UInt32.size) (positive : 0 < size) :
    word * size / UInt32.size < size ∧
      (UInt32.size - size < word * size % UInt32.size →
        word * size / UInt32.size + 1 < size) := by
  have bound : word * size ≤ (UInt32.size - 1) * size :=
    Nat.mul_le_mul_right size (Nat.le_sub_one_of_lt small)
  have split := Nat.div_add_mod (word * size) UInt32.size
  simp only [UInt32.size] at *
  constructor
  · rw [Nat.div_lt_iff_lt_mul (by decide)]
    omega
  · intro low
    omega

theorem generator_inRange : generator.InRange := by
  intro size positive
  change (below size).Yields _
  unfold below
  apply word32_yields.bind
  intro word small
  obtain ⟨high, next⟩ := high_lt small positive
  apply Draw.Yields.ite
  · intro low
    apply word32_yields.bind
    intro second _
    apply Draw.Yields.pure
    split
    · exact next low
    · exact high
  · intro _
    exact .pure high

end RandomWords

end TableLexer
