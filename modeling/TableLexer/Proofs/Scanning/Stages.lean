import Mathlib.Logic.Function.Iterate
import TableLexer.Proofs.Scanning.Lexemes

/-! A scan call by call. Its stages stand between two calls of the automaton, and nothing bounds
their number. A scan that ends as a stage ends as `scan` says, and one that `scan` calls endless
makes one call after another. -/

set_option autoImplicit false

namespace TableLexer

/-- Where a scan stands: it has these tokens and makes this call next, or it has ended. -/
inductive Stage where
  | calling (entry : Entry) (session : Session) (pieces : List (List UInt8))
      (tokens : Array Token)
  | ended (scan : Scan Token)

/-- Puts the next piece at the end of the window, or sets the flag when there is none. -/
def Session.supply (session : Session) :
    List (List UInt8) → Session × List (List UInt8)
  | [] => ({ session with window := session.window.finish }, [])
  | piece :: rest => ({ session with window := session.window.refill piece }, rest)

namespace Scanner

def request (scanner : Scanner) (tokens : Array Token) (session : Session)
    (pieces : List (List UInt8)) : Stage :=
  let { window, cells } := session
  let (window, pieces) := window.await pieces
  if window.atEnd then .ended { reports := tokens, ending := .complete }
  else
    let session : Session := { window, cells }
    let reset :=
      if scanner.capturing then
        session.resetCells (scanner.tables.captures.elim 0 CaptureTables.cells)
      else .ok session
    match reset with
    | .error fault => .ended { reports := tokens, ending := .fault fault }
    | .ok session => .calling (.fresh 0) session pieces tokens

def settle (scanner : Scanner) (tokens : Array Token) (answer : Except Fault Turn) : Stage :=
  match answer with
  | .error fault => .ended { reports := tokens, ending := .fault fault }
  | .ok { delivery, session, pieces } =>
    match delivery with
    | .nothing => .ended { reports := tokens, ending := .complete }
    | .failed error =>
      .ended { reports := tokens, ending := .failed error session.window.currAt }
    | .endless => .ended { reports := tokens, ending := .endless }
    | .token token =>
      if token.len = 0 then .ended { reports := tokens.push token, ending := .complete }
      else scanner.request (tokens.push token) session pieces

def goOn (scanner : Scanner) (tokens : Array Token) (pieces : List (List UInt8))
    (returned : Except Fault (Result (Array Cell))) : Stage :=
  match returned with
  | .error fault => scanner.settle tokens (.error fault)
  | .ok { outcome, window, memory } =>
    let session : Session := { window, cells := memory }
    match outcome with
    | .error error => scanner.settle tokens (.ok { delivery := .failed error, session, pieces })
    | .ok (.action action) => scanner.settle tokens (scanner.deliver action session pieces)
    | .ok (.refill state) =>
      .calling (.resume state) (session.supply pieces).1 (session.supply pieces).2 tokens

def advance (scanner : Scanner) : Stage → Stage
  | .ended scan => .ended scan
  | .calling entry session pieces tokens =>
    scanner.goOn tokens pieces (scanner.call entry session)

def stage (scanner : Scanner) (pieces : List (List UInt8)) (calls : Nat) : Stage :=
  scanner.advance^[calls] (scanner.request #[] .empty pieces)

/-- Some number of calls brings a scan that starts from this session to its end. -/
def HaltsFrom (scanner : Scanner) (session : Session) (pieces : List (List UInt8)) : Prop :=
  ∃ calls scan, scanner.advance^[calls] (scanner.request #[] session pieces) = .ended scan

def Halts (scanner : Scanner) (pieces : List (List UInt8)) : Prop :=
  scanner.HaltsFrom .empty pieces

def Reaches (scanner : Scanner) (before after : Stage) : Prop :=
  ∃ calls, scanner.advance^[calls] before = after

def Lasts (scanner : Scanner) (bound : Nat) (stage : Stage) : Prop :=
  ∀ calls ≤ bound, ∀ scan, scanner.advance^[calls] stage ≠ .ended scan

def Undecided (answer : Except Fault Turn) : Prop :=
  ∃ turn, answer = .ok turn ∧ turn.delivery = .endless

theorem fault_decided (fault : Fault) : ¬ Undecided (.error fault) := by
  rintro ⟨_, ⟨⟩, _⟩

theorem turn_decided {turn : Turn} (decided : turn.delivery ≠ .endless) :
    ¬ Undecided (.ok turn) := by
  rintro ⟨_, ⟨⟩, endless⟩
  exact decided endless

variable {scanner : Scanner} {before after : Stage} {entry : Entry} {session : Session}
  {pieces : List (List UInt8)} {tokens : Array Token} {rounds bound : Nat}

theorem Reaches.refl (stage : Stage) : scanner.Reaches stage stage := ⟨0, rfl⟩

theorem Reaches.of_advance (reaches : scanner.Reaches (scanner.advance before) after) :
    scanner.Reaches before after := by
  obtain ⟨calls, arrived⟩ := reaches
  exact ⟨calls + 1, by rw [Function.iterate_succ_apply, arrived]⟩

theorem Reaches.trans {last : Stage} (reaches : scanner.Reaches before after)
    (onward : scanner.Reaches after last) : scanner.Reaches before last := by
  obtain ⟨calls, rfl⟩ := reaches
  obtain ⟨more, rfl⟩ := onward
  exact ⟨more + calls, Function.iterate_add_apply _ more calls before⟩

theorem iterate_ended (scanner : Scanner) (calls : Nat) (scan : Scan Token) :
    scanner.advance^[calls] (.ended scan) = .ended scan :=
  Function.iterate_fixed rfl calls

theorem ended_unique {scan scan' : Scan Token} (first : scanner.Reaches before (.ended scan))
    (second : scanner.Reaches before (.ended scan')) : scan = scan' := by
  obtain ⟨calls, arrived⟩ := first
  obtain ⟨calls', arrived'⟩ := second
  have later := congrArg scanner.advance^[calls'] arrived
  have later' := congrArg scanner.advance^[calls] arrived'
  rw [iterate_ended, ← Function.iterate_add_apply] at later later'
  rw [Nat.add_comm, later] at later'
  cases later'
  rfl

theorem Lasts.of_advance (entry : Entry) (session : Session) (pieces : List (List UInt8))
    (tokens : Array Token)
    (lasts : scanner.Lasts bound (scanner.advance (.calling entry session pieces tokens))) :
    scanner.Lasts (bound + 1) (.calling entry session pieces tokens) := by
  intro calls within scan
  cases calls with
  | zero => exact nofun
  | succ calls =>
    rw [Function.iterate_succ_apply]
    exact lasts calls (Nat.le_of_succ_le_succ within) scan

theorem Lasts.of_reaches (reaches : scanner.Reaches before after)
    (lasts : ∀ bound, scanner.Lasts bound after) (bound : Nat) : scanner.Lasts bound before := by
  intro calls _ scan ended
  obtain ⟨steps, arrived⟩ := reaches
  -- Once ended, a scan stays so, hence it would also have ended after more calls.
  have later := congrArg scanner.advance^[steps] ended
  rw [iterate_ended, ← Function.iterate_add_apply, Nat.add_comm, Function.iterate_add_apply,
    arrived] at later
  exact lasts calls calls (Nat.le_refl _) scan later

theorem deliver_decided (action : ActionId) :
    ¬ Undecided (scanner.deliver action session pieces) := by
  rintro ⟨turn, answered, endless⟩
  simp only [deliver, bind_eq_ok_iff, pure_eq_ok, Except.ok.injEq] at answered
  obtain ⟨_, _, _, _, _, _, rfl⟩ := answered
  cases endless

/-- A call decides a request whatever would come next, or it asks for more. -/
theorem callThen_advance (scanner : Scanner) (entry : Entry) (session : Session)
    (pieces : List (List UInt8)) (tokens : Array Token) :
    (∃ answer, (∀ resume, scanner.callThen entry session pieces resume = answer) ∧
      ¬ Undecided answer ∧
      scanner.advance (.calling entry session pieces tokens) = scanner.settle tokens answer) ∨
    ∃ state session', (∀ resume, scanner.callThen entry session pieces resume =
        resume (.resume state) session') ∧
      scanner.advance (.calling entry session pieces tokens) =
        .calling (.resume state) (session'.supply pieces).1 (session'.supply pieces).2 tokens := by
  rw [advance]
  unfold callThen
  cases scanner.call entry session with
  | error fault =>
    exact .inl ⟨.error fault, fun _ => rfl, fault_decided fault, rfl⟩
  | ok result =>
    obtain ⟨outcome, window, memory⟩ := result
    cases outcome with
    | error error => exact .inl ⟨_, fun _ => rfl, turn_decided nofun, rfl⟩
    | ok step =>
      cases step with
      | action action => exact .inl ⟨_, fun _ => rfl, deliver_decided action, rfl⟩
      | refill state => exact .inr ⟨state, { window, cells := memory }, fun _ => rfl, rfl⟩

/-- The calls of a request bring the scan to what follows the answer, or to ever more calls. -/
structure Follows (scanner : Scanner) (rounds : Nat) (before : Stage) (tokens : Array Token)
    (answer : Except Fault Turn) : Prop where
  decided : ¬ Undecided answer → scanner.Reaches before (scanner.settle tokens answer)
  undecided : Undecided answer → scanner.Lasts rounds before

theorem Follows.of_decided {answer : Except Fault Turn} (decided : ¬ Undecided answer)
    (reaches : scanner.Reaches before (scanner.settle tokens answer)) :
    scanner.Follows rounds before tokens answer :=
  ⟨fun _ => reaches, fun undecided => absurd undecided decided⟩

theorem drain_follows (rounds : Nat) (entry : Entry) (session : Session) (tokens : Array Token) :
    scanner.Follows rounds (.calling entry session [] tokens) tokens
      (scanner.drain rounds entry session) := by
  induction rounds generalizing entry session with
  | zero =>
    refine ⟨fun decided => absurd ⟨_, rfl, rfl⟩ decided, fun _ calls within => ?_⟩
    rw [Nat.le_zero.mp within]
    exact nofun
  | succ rounds ih =>
    rw [drain]
    rcases callThen_advance scanner entry session [] tokens with
      ⟨answer, called, decided, onward⟩ | ⟨state, session', called, onward⟩
    · rw [called]
      exact .of_decided decided (.of_advance (onward ▸ .refl _))
    · rw [called]
      have later := ih (.resume state) { session' with window := session'.window.finish }
      exact ⟨fun decided => .of_advance (onward ▸ later.decided decided),
        fun undecided => .of_advance _ _ _ _ (onward ▸ later.undecided undecided)⟩

theorem attempt_follows (rounds : Nat) (entry : Entry) (session : Session)
    (pieces : List (List UInt8)) (tokens : Array Token) :
    scanner.Follows rounds (.calling entry session pieces tokens) tokens
      (scanner.attempt rounds entry session pieces) := by
  induction pieces generalizing entry session with
  | nil => exact drain_follows rounds entry session tokens
  | cons piece rest ih =>
    rw [attempt]
    rcases callThen_advance scanner entry session (piece :: rest) tokens with
      ⟨answer, called, decided, onward⟩ | ⟨state, session', called, onward⟩
    · rw [called]
      exact .of_decided decided (.of_advance (onward ▸ .refl _))
    · rw [called]
      have later := ih (.resume state) { session' with window := session'.window.refill piece }
      refine ⟨fun decided => .of_advance (onward ▸ later.decided decided), fun undecided => ?_⟩
      have lasts : scanner.Lasts (rounds + 1) (.calling entry session (piece :: rest) tokens) :=
        .of_advance _ _ _ _ (onward ▸ later.undecided undecided)
      exact fun calls within => lasts calls (Nat.le_succ_of_le within)

theorem request_follows (scanner : Scanner) (rounds : Nat) (tokens : Array Token)
    (session : Session) (pieces : List (List UInt8)) :
    scanner.Follows rounds (scanner.request tokens session pieces) tokens
      (scanner.nextTokenWithin rounds session pieces) := by
  unfold request nextTokenWithin
  obtain ⟨window, cells⟩ := session
  simp only
  by_cases finished : (window.await pieces).1.atEnd = true
  · rw [if_pos finished, if_pos finished]
    exact .of_decided (turn_decided nofun) (.refl _)
  · rw [if_neg finished, if_neg finished]
    let count := scanner.tables.captures.elim 0 CaptureTables.cells
    cases scanner.capturing with
    | false => exact attempt_follows rounds _ _ _ tokens
    | true =>
      rw [if_pos rfl, if_pos rfl]
      cases Session.resetCells { window := (window.await pieces).1, cells } count with
      | error fault => exact .of_decided (fault_decided fault) (.refl _)
      | ok session => exact attempt_follows rounds _ session _ tokens

theorem scanAfter_reaches (tokens : Nat) (reports : Array Token) (session : Session)
    (pieces : List (List UInt8))
    (finite : (scanner.scanAfter (fun _ token => .ok token) tokens reports session
      pieces).ending ≠ .endless) :
    scanner.Reaches (scanner.request reports session pieces)
      (.ended (scanner.scanAfter (fun _ token => .ok token) tokens reports session pieces)) := by
  induction tokens generalizing reports session pieces with
  | zero => exact absurd rfl finite
  | succ tokens ih =>
    have followed := request_follows scanner scanner.enoughRounds reports session pieces
    change scanner.Follows _ _ reports (scanner.nextToken session pieces) at followed
    cases answered : scanner.nextToken session pieces with
    | error fault =>
      rw [answered] at followed
      rw [scanAfter_fault answered]
      exact followed.decided (fault_decided fault)
    | ok turn =>
      obtain ⟨delivery, session', pieces'⟩ := turn
      rw [answered] at followed
      rw [scanAfter_turn answered] at finite ⊢
      cases delivery with
      | endless => exact absurd rfl finite
      | nothing => exact followed.decided (turn_decided nofun)
      | failed error => exact followed.decided (turn_decided nofun)
      | token token =>
        have settled := followed.decided (turn_decided nofun)
        rw [settle] at settled
        simp only at finite settled ⊢
        -- An empty token ends the scan; any other is followed by the next request.
        by_cases empty : token.len = 0
        · rw [if_pos empty] at settled ⊢
          exact settled
        · rw [if_neg empty] at finite settled ⊢
          exact settled.trans (ih _ _ _ finite)

section

variable {observer : Observer (Array Cell)} {reaction : Reaction (Array Cell)}
  {ready : Array Cell → Prop} {source : List UInt8} {window : Window}

theorem scanAfter_lasts (steady : scanner.Steady observer reaction ready) (cells : Array Cell)
    (holds : window.Holds pieces source) {budget : Nat}
    (enough : (window.left source).length < budget) (reports : Array Token)
    (endless : (scanner.scanAfter (fun _ token => .ok token) budget reports { window, cells }
      pieces).ending = .endless) (bound : Nat) :
    scanner.Lasts bound (scanner.request reports { window, cells } pieces) := by
  induction budget generalizing window cells pieces reports bound with
  | zero => exact absurd enough (Nat.not_lt_zero _)
  | succ budget ih =>
    by_cases finished : window.left source = []
    · obtain ⟨turn, answered, nothing⟩ :=
        scanner.nextToken_nothing cells holds finished scanner.enoughRounds
      rw [scanAfter_turn answered, nothing] at endless
      cases endless
    have answers : scanner.Answers source window (scanner.tables.verdict (window.left source))
        (scanner.attempted reaction (scanner.tables.states + 1) window cells pieces)
        (scanner.nextToken { window, cells } pieces) :=
      nextToken_answers steady holds finished (Nat.le_succ scanner.tables.states)
    unfold Answers at answers
    cases verdict : scanner.tables.verdict (window.left source) with
    | endless =>
      simp only [verdict] at answers
      have undecided : Undecided (scanner.nextTokenWithin (bound + 1) { window, cells } pieces) :=
        nextToken_endless steady holds cells answers bound
      have lasts := (request_follows scanner (bound + 1) reports _ _).undecided undecided
      exact fun calls within => lasts calls (Nat.le_succ_of_le within)
    | stuck =>
      simp only [verdict] at answers
      obtain ⟨turn, answered, failed, _⟩ := answers
      rw [scanAfter_turn answered, failed] at endless
      cases endless
    | lexeme action length =>
      simp only [verdict] at answers
      by_cases small : window.curr + length < wordLimit
      · rw [if_pos small] at answers
        obtain ⟨turn, answered, delivers⟩ := answers
        rw [scanAfter_turn answered, delivers.delivery] at endless
        simp only at endless
        by_cases empty : length = 0
        · rw [if_pos empty] at endless
          cases endless
        · rw [if_neg empty] at endless
          have fewer : (turn.session.window.left source).length < budget := by
            rw [Window.left, List.length_drop, delivers.curr]
            rw [Window.left, List.length_drop] at enough
            have positive := List.length_pos_iff.mpr finished
            rw [Window.left, List.length_drop] at positive
            omega
          -- The token is handed out, and from there on the scan never ends.
          have followed := request_follows scanner scanner.enoughRounds reports
            { window, cells } pieces
          change scanner.Follows _ _ reports (scanner.nextToken _ pieces) at followed
          rw [answered] at followed
          have finite : turn.delivery ≠ .endless := by simp [delivers.delivery]
          have settled := followed.decided (turn_decided finite)
          simp only [settle, delivers.delivery, if_neg empty] at settled
          exact .of_reaches settled
            (ih turn.session.cells delivers.holds fewer _ endless) bound
      · rw [if_neg small] at answers
        rw [scanAfter_fault answers] at endless
        cases endless

/-- A scan halts unless it is endless, and then with what `scanWith` reports. -/
theorem haltsFrom_iff (steady : scanner.Steady observer reaction ready) (session : Session)
    (holds : session.window.Holds pieces source) :
    (scanner.HaltsFrom session pieces ↔
      (scanner.scanWith (fun _ token => .ok token) session pieces).ending ≠ .endless) ∧
      ∀ calls scan, scanner.advance^[calls] (scanner.request #[] session pieces) = .ended scan →
        scan = scanner.scanWith (fun _ token => .ok token) session pieces := by
  let reported := scanner.scanWith (fun _ token => .ok token) session pieces
  have finite : reported.ending ≠ .endless →
      scanner.Reaches (scanner.request #[] session pieces) (.ended reported) :=
    scanAfter_reaches _ #[] session pieces
  have lasts (endless : reported.ending = .endless) (calls : Nat) (scan : Scan Token)
      (ended : scanner.advance^[calls] (scanner.request #[] session pieces) = .ended scan) :
      False := by
    have enough : (session.window.left source).length <
        pieces.foldl (fun total piece => total + piece.length) session.window.len + 2 :=
      Nat.lt_add_right 1 (Nat.lt_succ_of_le holds.left_length_le)
    exact scanAfter_lasts steady session.cells holds enough #[] endless calls calls
      (Nat.le_refl _) scan ended
  refine ⟨⟨?_, ?_⟩, ?_⟩
  · rintro ⟨calls, scan, ended⟩ endless
    exact lasts endless calls scan ended
  · intro ends
    obtain ⟨calls, ended⟩ := finite ends
    exact ⟨calls, _, ended⟩
  · intro calls scan ended
    by_cases endless : reported.ending = .endless
    · exact (lasts endless calls scan ended).elim
    · exact ended_unique ⟨calls, ended⟩ (finite endless)

theorem halts_iff (steady : scanner.Steady observer reaction ready)
    (pieces : List (List UInt8)) :
    (scanner.Halts pieces ↔ (scanner.scan pieces).ending ≠ .endless) ∧
      ∀ calls scan, scanner.stage pieces calls = .ended scan → scan = scanner.scan pieces :=
  haltsFrom_iff steady .empty (Window.empty_holds pieces)

end

end Scanner

end TableLexer
