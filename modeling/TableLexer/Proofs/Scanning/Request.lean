import TableLexer.Proofs.Scanning.Attempt

/-! The answer to a request for a token. Nothing is left to recognize exactly when the source is
read to its end; otherwise the answer is that of one attempt on the bytes that are left. -/

set_option autoImplicit false

namespace TableLexer

namespace Window

/-- What waiting for input leaves: a byte to read, or the flag set at the end of the source. -/
structure Awaited (before after : Window) (pieces : List (List UInt8))
    (source : List UInt8) : Prop where
  holds : after.Holds pieces source
  curr : after.curr = before.curr
  currAt : after.currAt = before.currAt
  ready : after.curr < after.len ∧ after.ended = before.ended ∨
    after.len ≤ after.curr ∧ after.ended = true

variable {window : Window} {pieces : List (List UInt8)} {source : List UInt8}

theorem await_ready (ready : window.curr < window.len ∨ window.ended = true) :
    window.await pieces = (window, pieces) := by
  have stays : (decide (window.curr < window.len) || window.ended) = true := by
    rw [Bool.or_eq_true, decide_eq_true_eq]
    exact ready
  cases pieces <;> rw [await, if_pos stays]

theorem await_holds (holds : window.Holds pieces source) :
    window.Awaited (window.await pieces).1 (window.await pieces).2 source := by
  induction pieces generalizing window with
  | nil =>
    by_cases unread : window.curr < window.len
    · rw [await_ready (.inl unread)]
      exact ⟨holds, rfl, rfl, .inl ⟨unread, rfl⟩⟩
    · have read : window.len ≤ window.curr := Nat.le_of_not_lt unread
      cases flag : window.ended with
      | true =>
        rw [await_ready (.inr flag)]
        exact ⟨holds, rfl, rfl, .inr ⟨read, flag⟩⟩
      | false =>
        have asks : ¬ (decide (window.curr < window.len) || window.ended) = true := by
          simp [unread, flag]
        rw [await, if_neg asks]
        exact ⟨holds.finish, rfl, rfl, .inr ⟨read, rfl⟩⟩
  | cons piece rest ih =>
    -- As long as there are pieces the end of the input was not reported.
    have flag : window.ended = false := by
      cases flag : window.ended with
      | true => exact absurd (holds.exhausted flag) (List.cons_ne_nil piece rest)
      | false => rfl
    by_cases unread : window.curr < window.len
    · rw [await_ready (.inl unread)]
      exact ⟨holds, rfl, rfl, .inl ⟨unread, rfl⟩⟩
    · have asks : ¬ (decide (window.curr < window.len) || window.ended) = true := by
        simp [unread, flag]
      rw [await, if_neg asks]
      obtain ⟨holds', cursor, place, ready⟩ := ih holds.refill
      exact ⟨holds', cursor, place, ready⟩

namespace Awaited

variable {before after : Window}

theorem atEnd_iff (awaited : before.Awaited after pieces source) :
    after.atEnd = true ↔ before.left source = [] := by
  have left := awaited.holds.left_eq
  rw [Window.left, awaited.curr] at left
  rw [Window.left, left, atEnd, Bool.and_eq_true, decide_eq_true_eq, List.append_eq_nil_iff,
    List.drop_eq_nil_iff, Array.length_toList, ← awaited.holds.filled, ← awaited.curr]
  constructor
  · rintro ⟨ended, read⟩
    rw [awaited.holds.exhausted ended]
    exact ⟨read, rfl⟩
  · rintro ⟨read, _⟩
    -- Waiting ends with a byte to read or with the flag set, never with neither.
    rcases awaited.ready with ⟨unread, _⟩ | ⟨_, ended⟩
    · omega
    · exact ⟨ended, read⟩

theorem unread (awaited : before.Awaited after pieces source) (more : before.left source ≠ []) :
    after.curr < after.len ∧ after.ended = before.ended := by
  rcases awaited.ready with unread | ⟨read, ended⟩
  · exact unread
  · have finished : after.atEnd = true := by
      rw [atEnd, ended, Bool.true_and, decide_eq_true_eq]
      exact read
    exact absurd (awaited.atEnd_iff.mp finished) more

end Awaited

end Window

namespace Scanner

variable {scanner : Scanner} {observer : Observer (Array Cell)}
  {reaction : Reaction (Array Cell)} {ready : Array Cell → Prop} {source : List UInt8}
  {window : Window} {cells : Array Cell} {pieces : List (List UInt8)}

def attempted (scanner : Scanner) (reaction : Reaction (Array Cell)) (rounds : Nat)
    (window : Window) (cells : Array Cell) (pieces : List (List UInt8)) : Progress (Array Cell) :=
  scanner.tables.proceed reaction
    ((window.await pieces).1.feed (window.await pieces).2 rounds) 0
    (.start window.curr window.ended) (scanner.freshCells cells)

theorem reset_eq (valid : scanner.tables.Valid) (session : Session) :
    (if scanner.capturing then
        session.resetCells (scanner.tables.captures.elim 0 CaptureTables.cells)
      else .ok session) = .ok { session with cells := scanner.freshCells session.cells } := by
  -- A program names cells by one byte, so tables never ask for more cells than a session has.
  have few : scanner.tables.captures.elim 0 CaptureTables.cells ≤ Session.maxCells := by
    cases carried : scanner.tables.captures with
    | none => exact Nat.zero_le _
    | some captures =>
      exact Nat.le_trans (valid.captures captures carried).cells_le (by decide)
  unfold freshCells
  cases scanner.capturing with
  | false => rfl
  | true =>
    rw [if_pos rfl, if_pos rfl, Session.resetCells, if_pos few]

theorem reset_bind {β : Type} (valid : scanner.tables.Valid) (session : Session)
    (onward : Session → Except Fault β) :
    (if scanner.capturing then
        session.resetCells (scanner.tables.captures.elim 0 CaptureTables.cells) >>= onward
      else Except.ok session >>= onward) =
      onward { session with cells := scanner.freshCells session.cells } := by
  rw [← apply_ite (· >>= onward), reset_eq valid, ok_bind]

theorem nextToken_nothing (scanner : Scanner) (cells : Array Cell)
    (holds : window.Holds pieces source) (finished : window.left source = [])
    (rounds : Nat) :
    ∃ turn, scanner.nextTokenWithin rounds { window, cells } pieces = .ok turn ∧
      turn.delivery = .nothing := by
  have awaited := Window.await_holds holds
  have ended := awaited.atEnd_iff.mpr finished
  unfold nextTokenWithin
  simp only [ended, if_true]
  exact ⟨_, rfl, rfl⟩

theorem nextToken_settles (steady : scanner.Steady observer reaction ready) (cells : Array Cell)
    (holds : window.Holds pieces source) (more : window.left source ≠ []) (rounds : Nat) :
    scanner.Settles source (window.await pieces).1.beginAttempt
      (scanner.attempted reaction rounds window cells pieces)
      (scanner.nextTokenWithin (rounds + 1) { window, cells } pieces) := by
  have awaited := Window.await_holds holds
  have unread : ¬ (window.await pieces).1.atEnd = true := fun finished =>
    more (awaited.atEnd_iff.mp finished)
  have known : (Entry.fresh 0).state < scanner.tables.states := steady.valid.states_pos
  have settles := attempt_settles steady rounds known (steady.fresh cells) awaited.holds
    (Nat.le_refl _)
  have same : ((Entry.fresh 0).begun (window.await pieces).1).trail =
      .start window.curr window.ended := by
    rw [← awaited.curr, ← (awaited.unread more).2]
    rfl
  rw [same] at settles
  have asked : scanner.nextTokenWithin (rounds + 1) { window, cells } pieces =
      scanner.attempt (rounds + 1) (.fresh 0)
        { window := (window.await pieces).1, cells := scanner.freshCells cells }
        (window.await pieces).2 := by
    unfold nextTokenWithin
    simp only [if_neg unread]
    exact reset_bind steady.valid { window := (window.await pieces).1, cells } _
  rw [asked]
  exact settles

theorem deliver_eq (scanner : Scanner) (action : ActionId) (window : Window) (cells : Array Cell)
    (pieces : List (List UInt8)) (origin : window.origin = 0)
    (ordered : window.start ≤ window.curr) :
    scanner.deliver action { window, cells } pieces =
      if window.curr < wordLimit then
        .ok
          { delivery := .token
              { action, start := window.start, len := window.curr - window.start,
                captures := if scanner.capturing then cells else #[] }
            session :=
              { window :=
                  { window with
                    startsAt := { window.currAt with offset := window.start }
                    currAt := { window.currAt with offset := window.curr } }
                cells }
            pieces }
      else .error .overflow := by
  unfold deliver Window.commit
  by_cases small : window.curr < wordLimit
  · have small' : window.start < wordLimit := Nat.lt_of_le_of_lt ordered small
    simp only [if_pos small, origin, addWord, Nat.zero_add, if_pos small', Window.lexemeStart,
      subWord_of_le ordered, ok_bind, pure_eq_ok]
  · rw [if_neg small]
    by_cases small' : window.start < wordLimit
    · simp only [origin, addWord, Nat.zero_add, if_pos small', if_neg small, ok_bind, error_bind]
    · simp only [origin, addWord, Nat.zero_add, if_neg small', error_bind]

end Scanner

end TableLexer
