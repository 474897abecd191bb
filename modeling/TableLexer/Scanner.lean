import TableLexer.Session

/-! Scanning token by token. Input arrives in pieces; whenever recognition runs dry the next piece
is put at the end of the window, and the end-of-input flag is set once no piece is left. A match
of length zero ends a scan, because the next attempt would start at the same place. -/

set_option autoImplicit false

namespace TableLexer

structure Token where
  action : ActionId
  start : Nat
  len : Nat
  /-- The cells at the time of the match; empty when scanning without captures. -/
  captures : Array Cell
  deriving DecidableEq, Repr

structure Scanner where
  tables : Tables
  capturing : Bool

def Scanner.ofTables (tables : Tables) : Scanner :=
  { tables, capturing := tables.captures.isSome }

def Scanner.plain (tables : Tables) : Scanner :=
  { tables, capturing := false }

def Window.await (window : Window) : List (List UInt8) → Window × List (List UInt8)
  | [] => (if window.curr < window.len || window.ended then window else window.finish, [])
  | piece :: rest =>
    if window.curr < window.len || window.ended then (window, piece :: rest)
    else (window.refill piece).await rest

/-- What a request for a token comes to. It is endless when transitions on the end of the input
lead around a cycle of states, so that no number of calls decides the attempt. -/
inductive Delivery where
  | token (token : Token)
  | nothing
  | failed (error : LexError)
  | endless
  deriving DecidableEq, Repr

structure Turn where
  delivery : Delivery
  session : Session
  pieces : List (List UInt8)

namespace Scanner

def call (scanner : Scanner) (entry : Entry) (session : Session) :
    Except Fault (Result (Array Cell)) :=
  if scanner.capturing then scanner.tables.runCapturing entry session.window session.cells
  else scanner.tables.runPlain entry session.window session.cells

def deliver (scanner : Scanner) (action : ActionId) (session : Session)
    (pieces : List (List UInt8)) : Except Fault Turn := do
  let window ← session.window.commit
  let token : Token :=
    { action
      start := ← window.lexemeStart
      len := ← subWord window.curr window.start
      captures := if scanner.capturing then session.cells else #[] }
  return { delivery := .token token, session := { session with window }, pieces }

/-- One call, and what it comes to: a token, a failure, or a continuation in the state that asks
for input. -/
def callThen (scanner : Scanner) (entry : Entry) (session : Session)
    (pieces : List (List UInt8)) (resume : Entry → Session → Except Fault Turn) :
    Except Fault Turn := do
  let { outcome, window, memory } ← scanner.call entry session
  let session : Session := { window, cells := memory }
  match outcome with
  | .error error => return { delivery := .failed error, session, pieces }
  | .ok (.action action) => scanner.deliver action session pieces
  | .ok (.refill state) => resume (.resume state) session

def drain (scanner : Scanner) (rounds : Nat) (entry : Entry) (session : Session) :
    Except Fault Turn :=
  match rounds with
  | 0 => .ok { delivery := .endless, session, pieces := [] }
  | rounds + 1 =>
    scanner.callThen entry session [] fun entry session =>
      scanner.drain rounds entry { session with window := session.window.finish }

/-- Calls the automaton until it decides, each time after the first with the next piece, and at
most `rounds` times once no piece is left. -/
def attempt (scanner : Scanner) (rounds : Nat) (entry : Entry) (session : Session)
    (pieces : List (List UInt8)) : Except Fault Turn :=
  match pieces with
  | [] => scanner.drain rounds entry session
  | piece :: rest =>
    scanner.callThen entry session (piece :: rest) fun entry session =>
      scanner.attempt rounds entry { session with window := session.window.refill piece } rest

def nextTokenWithin (scanner : Scanner) (rounds : Nat) (session : Session)
    (pieces : List (List UInt8)) : Except Fault Turn := do
  let { window, cells } := session
  let (window, pieces) := window.await pieces
  if window.atEnd then
    return { delivery := .nothing, session := { window, cells }, pieces }
  let session : Session := { window, cells }
  let session ←
    if scanner.capturing then
      session.resetCells (scanner.tables.captures.elim 0 CaptureTables.cells)
    else .ok session
  scanner.attempt rounds (.fresh 0) session pieces

/-- Rounds enough to decide any attempt that can be decided: one to read what is there, and one
for each state that the end of the input can lead to. -/
def enoughRounds (scanner : Scanner) : Nat :=
  scanner.tables.states + 2

def nextToken (scanner : Scanner) (session : Session) (pieces : List (List UInt8)) :
    Except Fault Turn :=
  scanner.nextTokenWithin scanner.enoughRounds session pieces

end Scanner

inductive Ending where
  | complete
  /-- No token is recognized; the location is that of the last token's end. -/
  | failed (error : LexError) (location : Location)
  | fault (fault : Fault)
  | endless
  deriving DecidableEq, Repr

structure Scan (β : Type) where
  reports : Array β
  ending : Ending

namespace Scanner

variable {β : Type}

def scanAfter (scanner : Scanner) (report : Window → Token → Except Fault β) (tokens : Nat)
    (reports : Array β) (session : Session) (pieces : List (List UInt8)) : Scan β :=
  match tokens with
  | 0 => { reports, ending := .endless }
  | tokens + 1 =>
    match scanner.nextToken session pieces with
    | .error fault => { reports, ending := .fault fault }
    | .ok { delivery, session, pieces } =>
      match delivery with
      | .nothing => { reports, ending := .complete }
      | .failed error => { reports, ending := .failed error session.window.currAt }
      | .endless => { reports, ending := .endless }
      | .token token =>
        match report session.window token with
        | .error fault => { reports, ending := .fault fault }
        | .ok line =>
          if token.len = 0 then { reports := reports.push line, ending := .complete }
          else scanner.scanAfter report tokens (reports.push line) session pieces

/-- Scans a session to the end of the pieces. Every token but the last takes a byte, so there
are no more tokens than bytes, and one. -/
def scanWith (scanner : Scanner) (report : Window → Token → Except Fault β) (session : Session)
    (pieces : List (List UInt8)) : Scan β :=
  let bytes := pieces.foldl (fun total piece => total + piece.length) session.window.len
  scanner.scanAfter report (bytes + 2) #[] session pieces

def scan (scanner : Scanner) (pieces : List (List UInt8)) : Scan Token :=
  scanner.scanWith (fun _ token => .ok token) .empty pieces

end Scanner

def cutAfter (more : Nat) (done : Array (List UInt8)) (bytes : List UInt8) :
    List (List UInt8) :=
  match bytes with
  | [] => done.toList
  | first :: rest => cutAfter more (done.push (first :: rest.take more)) (rest.drop more)
termination_by bytes.length
decreasing_by
  exact Nat.lt_succ_of_le (Nat.le_trans (Nat.le_of_eq List.length_drop) (Nat.sub_le _ _))

/-- Pieces of `size` bytes, the last one possibly shorter; size zero counts as one. -/
def cut (size : Nat) (bytes : List UInt8) : List (List UInt8) :=
  cutAfter (size - 1) #[] bytes

theorem cutAfter_flatten (more : Nat) (done : Array (List UInt8)) (bytes : List UInt8) :
    (cutAfter more done bytes).flatten = done.toList.flatten ++ bytes := by
  fun_induction cutAfter more done bytes with
  | case1 done => simp
  | case2 done first rest ih =>
    rw [ih]
    simp [List.take_append_drop]

theorem cut_flatten (size : Nat) (bytes : List UInt8) : (cut size bytes).flatten = bytes := by
  simp [cut, cutAfter_flatten]

def Tables.scanBytes (tables : Tables) (bytes : List UInt8) : Scan Token :=
  (Scanner.ofTables tables).scan [bytes]

def Tables.scanPieces (tables : Tables) (bytes : List UInt8) (size : Nat) : Scan Token :=
  (Scanner.ofTables tables).scan (cut size bytes)

end TableLexer
