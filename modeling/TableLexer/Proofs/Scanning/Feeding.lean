import TableLexer.Proofs.Recognition.Verdict
import TableLexer.Scanner

/-! Input in pieces. A window and the pieces still to come hold one source, whatever has been asked
for already, and the calls that the window and the pieces give rise to read one list of signals: the
unread symbols, the pieces, each after a pause, and the end of the input over and over. -/

set_option autoImplicit false

namespace TableLexer

/-- A piece, as the call reads it that asked for it. -/
def Signal.ofPiece (piece : List UInt8) : List Signal :=
  .pause :: piece.map fun byte => .symbol (.byte byte)

@[simp] theorem Signal.symbols_ofPiece (piece : List UInt8) :
    symbols (ofPiece piece) = piece.map .byte := by
  have bytes := symbols_map (piece.map .byte)
  rw [List.map_map] at bytes
  exact bytes

theorem Signal.symbols_pieces (pieces : List (List UInt8)) :
    symbols (pieces.flatMap ofPiece) = pieces.flatten.map .byte := by
  induction pieces with
  | nil => rfl
  | cons piece rest ih =>
    rw [List.flatMap_cons, symbols_append, symbols_ofPiece, ih, List.flatten_cons, List.map_append]

theorem foldl_length (pieces : List (List UInt8)) (total : Nat) :
    pieces.foldl (fun total piece => total + piece.length) total =
      total + pieces.flatten.length := by
  induction pieces generalizing total with
  | nil => rfl
  | cons piece rest ih =>
    rw [List.foldl_cons, ih, List.flatten_cons, List.length_append, Nat.add_assoc]

namespace Window

/-- The window and the pieces make up the source. Once the end of the input is reported there are no
more pieces. -/
structure Holds (window : Window) (pieces : List (List UInt8)) (source : List UInt8) : Prop where
  filled : window.len = window.bytes.size
  origin : window.origin = 0
  whole : window.bytes.toList ++ pieces.flatten = source
  within : window.curr ≤ window.len
  exhausted : window.ended = true → pieces = []

def left (window : Window) (source : List UInt8) : List UInt8 :=
  source.drop window.curr

/-- Everything that calls on this window and these pieces can read. -/
def feed (window : Window) (pieces : List (List UInt8)) (rounds : Nat) : List Signal :=
  window.unread.map .symbol ++ pieces.flatMap Signal.ofPiece ++ Signal.endings rounds

namespace Holds

variable {window : Window} {piece : List UInt8} {pieces : List (List UInt8)}
  {source : List UInt8}

theorem unread_eq (holds : window.Holds pieces source) :
    window.unread = Symbol.input (window.bytes.toList.drop window.curr)
      (if window.ended then 1 else 0) :=
  unread_filled holds.filled

theorem left_eq (holds : window.Holds pieces source) :
    window.left source = window.bytes.toList.drop window.curr ++ pieces.flatten := by
  have inside : window.curr ≤ window.bytes.toList.length := by
    rw [Array.length_toList, ← holds.filled]
    exact holds.within
  rw [left, ← holds.whole, List.drop_append_of_le_length inside]

theorem left_length_le (holds : window.Holds pieces source) :
    (window.left source).length ≤
      pieces.foldl (fun total piece => total + piece.length) window.len := by
  rw [foldl_length, left, List.length_drop, ← holds.whole, List.length_append,
    Array.length_toList, holds.filled]
  omega

theorem feed_symbols (holds : window.Holds pieces source) (rounds : Nat) :
    Signal.symbols (window.feed pieces rounds) =
      Symbol.input (window.left source) (rounds + if window.ended then 1 else 0) := by
  rw [feed, Signal.symbols_append, Signal.symbols_append, Signal.symbols_map,
    Signal.symbols_pieces, Signal.symbols_endings, holds.unread_eq, Symbol.input, Symbol.input,
    holds.left_eq, List.map_append]
  cases flag : window.ended with
  | false => simp
  | true => simp [holds.exhausted flag, List.replicate_succ]

theorem refill_bytes (holds : window.Holds (piece :: pieces) source) :
    (window.refill piece).bytes.toList = window.bytes.toList ++ piece := by
  simp only [Window.refill, holds.filled, Array.toList_appendList, Array.toList_shrink,
    ← Array.length_toList, List.take_length]

theorem refill (holds : window.Holds (piece :: pieces) source) :
    (window.refill piece).Holds pieces source where
  filled := rfl
  origin := holds.origin
  whole := by
    rw [holds.refill_bytes, List.append_assoc, ← List.flatten_cons]
    exact holds.whole
  within := by
    have longer := congrArg List.length holds.refill_bytes
    rw [List.length_append, Array.length_toList, Array.length_toList, ← holds.filled] at longer
    have within := holds.within
    change window.curr ≤ (window.refill piece).bytes.size
    omega
  exhausted ended := absurd (holds.exhausted ended) (List.cons_ne_nil piece pieces)

theorem finish (holds : window.Holds [] source) : window.finish.Holds [] source where
  filled := holds.filled
  origin := holds.origin
  whole := holds.whole
  within := holds.within
  exhausted _ := rfl

theorem begun (holds : window.Holds pieces source) (entry : Entry) :
    (entry.begun window).Holds pieces source := by
  cases entry with
  | fresh state => exact ⟨holds.filled, holds.origin, holds.whole, holds.within, holds.exhausted⟩
  | resume state => exact holds

theorem withTrail (holds : window.Holds pieces source) {trail : Trail}
    (within : trail.curr ≤ window.len) (exhausted : trail.ended = true → pieces = []) :
    (window.withTrail trail).Holds pieces source :=
  ⟨holds.filled, holds.origin, holds.whole, within, exhausted⟩

theorem dry (holds : window.Holds pieces source) (nothing : window.unread = []) :
    window.curr = window.bytes.toList.length ∧ window.ended = false := by
  have within := holds.within
  rw [holds.filled, ← Array.length_toList] at within
  rw [holds.unread_eq, Symbol.input, List.append_eq_nil_iff, List.map_eq_nil_iff,
    List.drop_eq_nil_iff] at nothing
  refine ⟨Nat.le_antisymm within nothing.1, ?_⟩
  cases flag : window.ended with
  | false => rfl
  | true =>
    rw [flag] at nothing
    -- With the flag set the end of the input itself would be unread.
    exact absurd nothing.2 (List.cons_ne_nil _ _)

theorem finish_feed (holds : window.Holds [] source) (nothing : window.unread = [])
    (rounds : Nat) :
    window.finish.feed [] rounds = .symbol .endOfInput :: Signal.endings rounds := by
  have read : window.bytes.toList.drop window.curr = [] :=
    List.drop_eq_nil_of_le (Nat.le_of_eq (holds.dry nothing).1.symm)
  have last : window.finish.unread = [.endOfInput] := by
    rw [holds.finish.unread_eq]
    change Symbol.input (window.bytes.toList.drop window.curr) 1 = _
    rw [read]
    rfl
  rw [feed, last]
  rfl

theorem refill_feed (holds : window.Holds (piece :: pieces) source)
    (nothing : window.unread = []) (rounds : Nat) :
    .pause :: (window.refill piece).feed pieces rounds =
      (piece :: pieces).flatMap Signal.ofPiece ++ Signal.endings rounds := by
  obtain ⟨read, open'⟩ := holds.dry nothing
  have fresh : (window.refill piece).unread = piece.map .byte := by
    rw [holds.refill.unread_eq, holds.refill_bytes]
    change Symbol.input ((window.bytes.toList ++ piece).drop window.curr)
      (if window.ended then 1 else 0) = _
    -- All of the old window is read, so the new piece is what is unread.
    rw [read, List.drop_left, open']
    exact List.append_nil _
  rw [feed, fresh, List.map_map, List.flatMap_cons, Signal.ofPiece]
  rfl

end Holds

theorem empty_holds (pieces : List (List UInt8)) : empty.Holds pieces pieces.flatten where
  filled := rfl
  origin := rfl
  whole := rfl
  within := Nat.le_refl 0
  exhausted := nofun

theorem ofBytes_holds (bytes : List UInt8) : (ofBytes bytes).Holds [] bytes := by
  have filled := (empty_holds [bytes]).refill.finish
  rw [List.flatten_singleton] at filled
  exact filled

end Window

end TableLexer
