import TableLexer.Proofs.Machine.Call
import TableLexer.Proofs.Scanning.Stages
import TableLexer.Proofs.Tables.Loading

/-! No use of loaded tables meets a fault. A call by any code on any window runs in range and
without overflow, and a scan whose input fits in memory makes such calls only, whatever its
pieces. -/

set_option autoImplicit false

namespace TableLexer

namespace Scanner

variable {scanner : Scanner} {observer : Observer (Array Cell)}
  {reaction : Reaction (Array Cell)} {ready : Array Cell → Prop} {source : List UInt8}

structure Due (scanner : Scanner) (ready : Array Cell → Prop) (source : List UInt8)
    (entry : Entry) (session : Session) (pieces : List (List UInt8)) : Prop where
  inside : entry.state < scanner.tables.states
  prepared : ready session.cells
  holds : session.window.Holds pieces source
  started : (entry.begun session.window).start ≤ (entry.begun session.window).last
  ordered : (entry.begun session.window).last ≤ (entry.begun session.window).curr

/-- A stage that a scan of the source can come to: one before a call or one without a fault. -/
def Sound (scanner : Scanner) (ready : Array Cell → Prop) (source : List UInt8) : Stage → Prop
  | .calling entry session pieces _ => scanner.Due ready source entry session pieces
  | .ended scan => ∀ fault, scan.ending ≠ .fault fault

theorem request_sound (steady : scanner.Steady observer reaction ready) (tokens : Array Token)
    {session : Session} {pieces : List (List UInt8)}
    (holds : session.window.Holds pieces source) :
    scanner.Sound ready source (scanner.request tokens session pieces) := by
  obtain ⟨window, cells⟩ := session
  have awaited := Window.await_holds holds
  have known : (Entry.fresh 0).state < scanner.tables.states := steady.valid.states_pos
  have due : scanner.Due ready source (.fresh 0)
      { window := (window.await pieces).1, cells := scanner.freshCells cells }
      (window.await pieces).2 :=
    ⟨known, steady.fresh cells, awaited.holds, Nat.le_refl _, Nat.le_refl _⟩
  unfold request
  simp only
  by_cases finished : (window.await pieces).1.atEnd = true
  · rw [if_pos finished]
    exact nofun
  · rw [if_neg finished]
    rw [reset_eq steady.valid]
    exact due

theorem deliver_sound (steady : scanner.Steady observer reaction ready) (tokens : Array Token)
    (action : ActionId) {session : Session} {pieces : List (List UInt8)}
    (holds : session.window.Holds pieces source) (small : source.length < wordLimit)
    (ordered : session.window.start ≤ session.window.curr) :
    scanner.Sound ready source
      (scanner.settle tokens (scanner.deliver action session pieces)) := by
  have offset : session.window.curr < wordLimit := by
    have within := holds.within
    have whole := congrArg List.length holds.whole
    rw [List.length_append, Array.length_toList, ← holds.filled] at whole
    omega
  obtain ⟨window, cells⟩ := session
  rw [deliver_eq scanner action window cells pieces holds.origin ordered, if_pos offset]
  simp only [settle]
  split
  · intro fault faulty
    cases faulty
  · exact request_sound steady _
      ⟨holds.filled, holds.origin, holds.whole, holds.within, holds.exhausted⟩

theorem advance_sound (steady : scanner.Steady observer reaction ready)
    (small : source.length < wordLimit) {stage : Stage}
    (sound : scanner.Sound ready source stage) :
    scanner.Sound ready source (scanner.advance stage) := by
  cases stage with
  | ended scan => exact sound
  | calling entry session pieces tokens =>
    obtain ⟨window, cells⟩ := session
    obtain ⟨inside, prepared, holds, started, ordered⟩ := sound
    obtain ⟨grown, _, _⟩ := scanner.tables.proceed_bounds reaction (window.unread.map .symbol)
      entry.state (entry.begun window).trail cells ordered
    -- The call is an attempt on what is unread now, and it stays within the window.
    generalize made : scanner.tables.proceed reaction (window.unread.map .symbol) entry.state
      (entry.begun window).trail cells = first at grown
    obtain ⟨called, prepared', dried⟩ := call_eq steady inside prepared made
    obtain ⟨leaves, ordered'⟩ := call_leaves holds ordered made
    have started' : (entry.begun window).start ≤ first.trail.last := Nat.le_trans started grown
    rw [advance, called]
    unfold goOn
    simp only [Progress.result]
    cases came : first.outcome with
    | error error =>
      intro fault faulty
      cases faulty
    | ok step =>
      cases step with
      | action action =>
        exact deliver_sound steady tokens action leaves.holds small
          (Nat.le_trans started' ordered')
      | refill stopped =>
        obtain ⟨_, known, _⟩ := dried stopped came
        cases pieces with
        | nil => exact ⟨known, prepared', leaves.holds.finish, started', ordered'⟩
        | cons piece rest => exact ⟨known, prepared', leaves.holds.refill, started', ordered'⟩

theorem stage_sound (steady : scanner.Steady observer reaction ready)
    (pieces : List (List UInt8)) (small : pieces.flatten.length < wordLimit) (calls : Nat) :
    scanner.Sound ready pieces.flatten (scanner.stage pieces calls) := by
  induction calls with
  | zero =>
    have holds : Session.empty.window.Holds pieces pieces.flatten := Window.empty_holds pieces
    exact request_sound steady #[] holds
  | succ calls ih =>
    rw [stage, Function.iterate_succ_apply']
    exact advance_sound steady small ih

end Scanner

namespace Machine

def Agrees (turned : Except Fault (Turned (Array Cell)))
    (returned : Except Fault (Result (Array Cell))) : Prop :=
  ∃ answer result, returned = .ok result ∧
    turned = .ok (.answered answer result.window result.memory) ∧ answer.Means result.outcome

def callPlain (tables : Tables) (code : Int32) (window : Window) (cells : Array Cell) :
    Except Fault (Turned (Array Cell)) :=
  call tables .silent (window.pending + 1) code window cells

def callCapturing (tables : Tables) (code : Int32) (window : Window) (cells : Array Cell) :
    Except Fault (Turned (Array Cell)) :=
  match tables.captures with
  | some captures => call tables (observer captures) (window.pending + 1) code window cells
  | none => .ok (.answered (.failed .missingCaptures) window cells)

def callOf (scanner : Scanner) (code : Int32) (session : Session) :
    Except Fault (Turned (Array Cell)) :=
  if scanner.capturing then callCapturing scanner.tables code session.window session.cells
  else callPlain scanner.tables code session.window session.cells

variable {tables : Tables}

theorem callPlain_agrees (valid : tables.Valid) (code : Int32) (window : Window)
    (cells : Array Cell) (fits : window.bytes.size < wordLimit) :
    Agrees (callPlain tables code window cells)
      (tables.runPlain (.ofCode code.toInt) window cells) :=
  call_run valid (Observer.silent_follows tables) (Observer.silent_follows tables) rfl code fits

theorem callCapturing_agrees (valid : tables.Valid) (code : Int32) (window : Window)
    (cells : Array Cell) (fits : window.bytes.size < wordLimit) :
    Agrees (callCapturing tables code window cells)
      (tables.runCapturing (.ofCode code.toInt) window cells) := by
  unfold callCapturing Tables.runCapturing
  cases carried : tables.captures with
  | none => exact ⟨.failed .missingCaptures, _, rfl, rfl, rfl⟩
  | some captures =>
    exact call_run valid (observer_follows valid carried)
      (CaptureTables.observer_follows valid carried) rfl code fits

theorem callOf_agrees {scanner : Scanner} (valid : scanner.tables.Valid) (code : Int32)
    (session : Session) (fits : session.window.bytes.size < wordLimit) :
    Agrees (callOf scanner code session) (scanner.call (.ofCode code.toInt) session) := by
  unfold callOf Scanner.call
  cases scanner.capturing with
  | false => exact callPlain_agrees valid code session.window session.cells fits
  | true => exact callCapturing_agrees valid code session.window session.cells fits

/-- What a scan does next is done without a fault: its call in machine arithmetic, by the code of
its entry, or its end. -/
def Safe (scanner : Scanner) : Stage → Prop
  | .calling entry session _ _ =>
    ∃ code : Int32, code.toInt = entry.code ∧
      Agrees (callOf scanner code session) (scanner.call entry session)
  | .ended scan => ∀ fault, scan.ending ≠ .fault fault

theorem code_exists {entry : Entry} (small : entry.state < maxStates) :
    ∃ code : Int32, code.toInt = entry.code := by
  simp only [maxStates] at small
  cases entry with
  | fresh state =>
    simp only [Entry.state] at small
    exact ⟨.ofInt state, Int32.toInt_ofInt_of_le (by omega) (by omega)⟩
  | resume state =>
    simp only [Entry.state] at small
    exact ⟨.ofInt (-state - 1), Int32.toInt_ofInt_of_le (by omega) (by omega)⟩

theorem safe_of_sound {scanner : Scanner} {ready : Array Cell → Prop} {source : List UInt8}
    (valid : scanner.tables.Valid) (small : source.length < wordLimit) {stage : Stage}
    (sound : scanner.Sound ready source stage) : Safe scanner stage := by
  cases stage with
  | ended scan => exact sound
  | calling entry session pieces tokens =>
    obtain ⟨code, same⟩ := code_exists (Nat.lt_of_lt_of_le sound.inside valid.states_le)
    have whole := congrArg List.length sound.holds.whole
    rw [List.length_append, Array.length_toList] at whole
    have fits : session.window.bytes.size < wordLimit := by omega
    have agrees := callOf_agrees valid code session fits
    rw [same, Entry.ofCode_code] at agrees
    exact ⟨code, same, agrees⟩

/-- Loaded tables cannot crash: not a call, on any window and by any code, and not a scan of
pieces that make up less than half of the address space. -/
theorem loaded_tables_safe (loaded : tables.Loaded) :
    (∀ (code : Int32) (window : Window) (cells : Array Cell), window.bytes.size < wordLimit →
      Agrees (callPlain tables code window cells)
        (tables.runPlain (.ofCode code.toInt) window cells) ∧
      Agrees (callCapturing tables code window cells)
        (tables.runCapturing (.ofCode code.toInt) window cells)) ∧
    ∀ scanner, scanner = .plain tables ∨ scanner = .ofTables tables →
      ∀ pieces : List (List UInt8), pieces.flatten.length < 2 ^ 63 →
        (∀ calls, Safe scanner (scanner.stage pieces calls)) ∧
        ∀ fault, (scanner.scan pieces).ending ≠ .fault fault := by
  have valid := loaded.valid
  refine ⟨fun code window cells fits => ⟨callPlain_agrees valid code window cells fits,
    callCapturing_agrees valid code window cells fits⟩, ?_⟩
  intro scanner chosen pieces half
  have small : pieces.flatten.length < wordLimit := Nat.lt_trans half (by decide)
  have same : scanner.tables = tables := by rcases chosen with rfl | rfl <;> rfl
  obtain ⟨observer, reaction, ready, steady⟩ := Scanner.exists_steady valid chosen
  have sound := Scanner.stage_sound steady pieces small
  refine ⟨fun calls => safe_of_sound (same ▸ valid) small (sound calls), ?_⟩
  intro fault failed
  -- A scan that reports a fault is not endless, so some stage of it ends with this fault.
  have ends : (scanner.scan pieces).ending ≠ .endless := by
    rw [failed]
    exact nofun
  obtain ⟨calls, scan, ended⟩ : ∃ calls scan, scanner.stage pieces calls = .ended scan :=
    (Scanner.halts_iff steady pieces).1.mpr ends
  have reported := (Scanner.halts_iff steady pieces).2 calls scan ended
  have last := sound calls
  rw [ended, reported] at last
  exact last fault failed

theorem rerunTables_safe :
    rerunTables.Loaded ∧
    Agrees (callPlain rerunTables Int32.minValue (.ofBytes [97, 98]) #[])
      (rerunTables.runPlain (.ofCode Int32.minValue.toInt) (.ofBytes [97, 98]) #[]) ∧
    Agrees (callCapturing rerunTables (-2) (.ofBytes [97, 98]) #[some 7])
      (rerunTables.runCapturing (.ofCode (-2 : Int32).toInt) (.ofBytes [97, 98]) #[some 7]) ∧
    (∀ calls, Safe (.ofTables rerunTables)
      ((Scanner.ofTables rerunTables).stage [[97], [98]] calls)) ∧
    ((Scanner.ofTables rerunTables).scan [[97], [98]]).ending ≠ .fault .overflow := by
  have loaded : rerunTables.Loaded := .ofParts rerunTables_accepted
  have fits : (Window.ofBytes [97, 98]).bytes.size < wordLimit := by decide
  obtain ⟨calls, scans⟩ := loaded_tables_safe loaded
  obtain ⟨stages, ending⟩ := scans (.ofTables rerunTables) (.inr rfl) [[97], [98]] (by decide)
  exact ⟨loaded, (calls Int32.minValue _ #[] fits).1, (calls (-2) _ #[some 7] fits).2, stages,
    ending .overflow⟩

end Machine

end TableLexer
