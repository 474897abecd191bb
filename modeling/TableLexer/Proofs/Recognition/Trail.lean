import TableLexer.Recognition.Run

/-! The part of a window that an attempt moves, and the symbols it can still read. Everything else
in a window stays as it is while an attempt runs. -/

set_option autoImplicit false

namespace TableLexer

def Symbol.width : Symbol → Nat
  | .byte _ => 1
  | .endOfInput => 0

def Symbol.room : List Symbol → Nat
  | [] => 0
  | symbol :: rest => symbol.width + room rest

@[simp] theorem Symbol.room_nil : room [] = 0 := rfl

@[simp] theorem Symbol.room_cons (symbol : Symbol) (rest : List Symbol) :
    room (symbol :: rest) = symbol.width + room rest := rfl

@[simp] theorem Symbol.room_append (first rest : List Symbol) :
    room (first ++ rest) = room first + room rest := by
  induction first with
  | nil => exact (Nat.zero_add _).symm
  | cons symbol others ih => rw [List.cons_append, room_cons, ih, room_cons, Nat.add_assoc]

theorem Symbol.endOfInput_notMem (bytes : List UInt8) : .endOfInput ∉ bytes.map Symbol.byte := by
  simp

structure Trail where
  curr : Nat
  last : Nat
  lastAction : Option ActionId
  ended : Bool
  deriving DecidableEq, Repr

namespace Trail

def start (curr : Nat) (ended : Bool) : Trail :=
  { curr, last := curr, lastAction := none, ended }

def note (trail : Trail) : Option ActionId → Trail
  | some action => { trail with last := trail.curr, lastAction := some action }
  | none => trail

/-- Reads a symbol. The end of the input is read only once the flag is set. -/
def read (trail : Trail) : Symbol → Trail
  | .byte _ => { trail with curr := trail.curr + 1 }
  | .endOfInput => { trail with ended := true }

/-- After a transition on the end of the input the flag is cleared. -/
def reopen (trail : Trail) : Symbol → Trail
  | .byte _ => trail
  | .endOfInput => { trail with ended := false }

def backUp (trail : Trail) : Trail :=
  { trail with curr := trail.last }

@[simp] theorem note_note (trail : Trail) (mark : Option ActionId) :
    (trail.note mark).note mark = trail.note mark := by
  cases mark <;> rfl

@[simp] theorem note_curr (trail : Trail) (mark : Option ActionId) :
    (trail.note mark).curr = trail.curr := by
  cases mark <;> rfl

@[simp] theorem note_ended (trail : Trail) (mark : Option ActionId) :
    (trail.note mark).ended = trail.ended := by
  cases mark <;> rfl

theorem le_note_last (trail : Trail) (mark : Option ActionId) (ordered : trail.last ≤ trail.curr) :
    trail.last ≤ (trail.note mark).last ∧ (trail.note mark).last ≤ (trail.note mark).curr := by
  cases mark with
  | none => exact ⟨Nat.le_refl _, ordered⟩
  | some action => exact ⟨ordered, Nat.le_refl _⟩

/-- As long as nothing was matched, the end of the last match is the origin of the attempt. -/
theorem note_unmatched (trail : Trail) {origin : Nat}
    (unmatched : trail.lastAction = none → trail.last = origin) (mark : Option ActionId) :
    (trail.note mark).lastAction = none → (trail.note mark).last = origin := by
  cases mark with
  | none => exact unmatched
  | some action => exact nofun

theorem note_withEnded (trail : Trail) (ended : Bool) (mark : Option ActionId) :
    ({ trail with ended } : Trail).note mark = { trail.note mark with ended } := by
  cases mark <;> rfl

theorem read_curr (trail : Trail) (symbol : Symbol) :
    (trail.read symbol).curr = trail.curr + symbol.width := by
  cases symbol <;> rfl

@[simp] theorem read_last (trail : Trail) (symbol : Symbol) :
    (trail.read symbol).last = trail.last := by
  cases symbol <;> rfl

@[simp] theorem read_lastAction (trail : Trail) (symbol : Symbol) :
    (trail.read symbol).lastAction = trail.lastAction := by
  cases symbol <;> rfl

def pass (trail : Trail) (symbol : Symbol) : Trail :=
  (trail.read symbol).reopen symbol

@[simp] theorem pass_curr (trail : Trail) (symbol : Symbol) :
    (trail.pass symbol).curr = trail.curr + symbol.width := by
  cases symbol <;> rfl

@[simp] theorem pass_last (trail : Trail) (symbol : Symbol) :
    (trail.pass symbol).last = trail.last := by
  cases symbol <;> rfl

@[simp] theorem pass_lastAction (trail : Trail) (symbol : Symbol) :
    (trail.pass symbol).lastAction = trail.lastAction := by
  cases symbol <;> rfl

@[simp] theorem pass_ended (trail : Trail) (symbol : Symbol) :
    (trail.pass symbol).ended = (trail.ended && !(Symbol.endOfInput == symbol)) := by
  cases symbol with
  | byte value => exact (Bool.and_true _).symm
  | endOfInput => exact (Bool.and_false _).symm

end Trail

namespace Window

def trail (window : Window) : Trail :=
  { curr := window.curr, last := window.last, lastAction := window.lastAction,
    ended := window.ended }

def withTrail (window : Window) (trail : Trail) : Window :=
  { window with
    curr := trail.curr, last := trail.last, lastAction := trail.lastAction, ended := trail.ended }

@[simp] theorem withTrail_trail (window : Window) : window.withTrail window.trail = window := rfl

@[simp] theorem trail_withTrail (window : Window) (trail : Trail) :
    (window.withTrail trail).trail = trail := rfl

@[simp] theorem withTrail_withTrail (window : Window) (trail trail' : Trail) :
    (window.withTrail trail).withTrail trail' = window.withTrail trail' := rfl

@[simp] theorem reopen_withTrail (window : Window) (trail : Trail) (symbol : Symbol) :
    (window.withTrail trail).reopen symbol = window.withTrail (trail.reopen symbol) := by
  cases symbol <;> rfl

def unread (window : Window) : List Symbol :=
  ((window.bytes.toList.take window.limit).drop window.curr).map .byte ++
    if window.ended then [.endOfInput] else []

theorem length_unread (window : Window) : window.unread.length = window.pending := by
  have within : window.limit ≤ window.bytes.size := Nat.min_le_right _ _
  have flag : (if window.ended then [Symbol.endOfInput] else []).length =
      if window.ended then 1 else 0 := by
    cases window.ended <;> rfl
  rw [unread, pending, List.length_append, flag, List.length_map, List.length_drop,
    List.length_take, Array.length_toList, Nat.min_eq_left within]

theorem unread_note (window : Window) (mark : Option ActionId) :
    (window.withTrail (window.trail.note mark)).unread = window.unread := by
  cases mark <;> rfl

theorem unread_byte {window : Window} (inside : window.curr < window.limit) :
    ∃ byte, window.next = .byte byte ∧
      window.unread = .byte byte :: (window.advance (.byte byte)).unread := by
  have within : window.limit ≤ window.bytes.size := Nat.min_le_right _ _
  have readable : window.curr < window.bytes.size := Nat.lt_of_lt_of_le inside within
  refine ⟨window.bytes[window.curr], by simp [next, inside], ?_⟩
  have head : (window.bytes.toList.take window.limit).drop window.curr =
      window.bytes[window.curr] ::
        (window.bytes.toList.take window.limit).drop (window.curr + 1) := by
    rw [List.drop_eq_getElem_cons (by simp; omega)]
    simp
  rw [unread, head]
  rfl

theorem unread_of_limit_le {window : Window} (outside : window.limit ≤ window.curr) :
    window.next = .endOfInput ∧
      window.unread = if window.ended then [.endOfInput] else [] := by
  have passed : ¬ window.curr < window.limit := by omega
  have nothing : (window.bytes.toList.take window.limit).drop window.curr = [] :=
    List.drop_eq_nil_of_le (by simp; omega)
  exact ⟨by simp [next, passed], by rw [unread, nothing]; rfl⟩

theorem unread_endOfInput {window : Window} {read rest : List Symbol}
    (ahead : window.unread = read ++ .endOfInput :: rest) :
    window.ended = true ∧ Symbol.endOfInput ∉ read := by
  let bytes := (window.bytes.toList.take window.limit).drop window.curr
  have plain := Symbol.endOfInput_notMem bytes
  cases flag : window.ended with
  | false =>
    rw [unread, flag, if_neg Bool.false_ne_true, List.append_nil] at ahead
    exact absurd (ahead ▸ List.mem_append_right read List.mem_cons_self) plain
  | true =>
    rw [unread, flag, if_pos rfl] at ahead
    refine ⟨rfl, fun early => plain ?_⟩
    -- Everything before the end of the input is bytes, for it stands at the very end.
    rcases List.append_eq_append_iff.mp ahead with ⟨more, shape, tail⟩ | ⟨more, shape, _⟩
    · have nothing : more = [] := by
        have lengths := congrArg List.length tail
        simp only [List.length_append, List.length_cons, List.length_nil] at lengths
        exact List.eq_nil_of_length_eq_zero (by omega)
      rw [shape, nothing, List.append_nil] at early
      exact early
    · exact shape ▸ List.mem_append_left more early

/-- Reading the next symbol moves the trail alone and leaves the rest of the symbols. -/
theorem unread_cons {window : Window} {symbol : Symbol} {rest : List Symbol}
    (ahead : window.unread = symbol :: rest) :
    window.next = symbol ∧ window.advance symbol = window.withTrail (window.trail.read symbol) ∧
      (window.withTrail (window.trail.pass symbol)).unread = rest := by
  rcases Nat.lt_or_ge window.curr window.limit with inside | outside
  · obtain ⟨byte, found, shape⟩ := unread_byte inside
    rw [shape] at ahead
    cases ahead
    exact ⟨found, rfl, rfl⟩
  · obtain ⟨found, shape⟩ := unread_of_limit_le outside
    rw [shape] at ahead
    cases flag : window.ended with
    | false =>
      rw [flag] at ahead
      cases ahead
    | true =>
      rw [flag] at ahead
      cases ahead
      refine ⟨found, ?_, ?_⟩
      · simp only [advance, withTrail, trail, Trail.read, ← flag]
      · let closed := window.withTrail (window.trail.pass .endOfInput)
        have passed : closed.limit ≤ closed.curr := outside
        exact (unread_of_limit_le passed).2

end Window

end TableLexer
