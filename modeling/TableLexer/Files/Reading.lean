import TableLexer.Scanner

/-! Reading a file piece by piece. A read delivers some of the bytes that are next, at most as many
as it was asked for, and how many of them is not up to the reader. -/

set_option autoImplicit false

namespace TableLexer

/-- How successive reads of a number of bytes cut a content; a read asks for a byte at least. -/
structure Reading where
  pieces : Nat → List UInt8 → List (List UInt8)
  whole : ∀ size content, (pieces size content).flatten = content
  bounded : ∀ size content, ∀ piece ∈ pieces size content, piece ≠ [] ∧ piece.length ≤ max size 1

theorem cutAfter_bounded (more : Nat) (done : Array (List UInt8)) (bytes : List UInt8)
    {piece : List UInt8} (member : piece ∈ cutAfter more done bytes) :
    piece ∈ done ∨ piece ≠ [] ∧ piece.length ≤ more + 1 := by
  fun_induction cutAfter more done bytes with
  | case1 done => exact .inl (Array.mem_toList_iff.mp member)
  | case2 done first rest ih =>
    rcases ih member with earlier | later
    · rcases Array.mem_push.mp earlier with old | rfl
      · exact .inl old
      · refine .inr ⟨List.cons_ne_nil _ _, ?_⟩
        rw [List.length_cons]
        exact Nat.succ_le_succ (List.length_take_le more rest)
    · exact .inr later

def Reading.full : Reading where
  pieces := cut
  whole := cut_flatten
  bounded size content piece member := by
    rcases cutAfter_bounded (size - 1) #[] content member with nothing | ⟨nonempty, short⟩
    · cases nothing with
      | mk member => cases member
    · exact ⟨nonempty, by omega⟩

end TableLexer
