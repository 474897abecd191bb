import Mathlib.Algebra.GroupWithZero.Nat
import TableLexer.Proofs.Scanning.Pieces
import TableLexer.Proofs.Tables.Loading

/-! Tokens tile the input. Each one starts where the one before it ends, and a scan that fails does
so at the end of the last one, before the end of the input. -/

set_option autoImplicit false

namespace TableLexer

/-- The tokens follow each other from `start` to `stop`; only the last one may be empty. -/
inductive Tiles : Nat → List Token → Nat → Prop where
  | done {start : Nat} : Tiles start [] start
  | empty {start : Nat} {token : Token} :
      token.start = start → token.len = 0 → Tiles start [token] start
  | next {start stop : Nat} {token : Token} {rest : List Token} :
      token.start = start → 0 < token.len → Tiles (start + token.len) rest stop →
      Tiles start (token :: rest) stop

namespace Tiles

variable {start stop : Nat} {tokens : List Token}

theorem head_start (tiles : Tiles start tokens stop) {token : Token}
    (first : tokens.head? = some token) : token.start = start := by
  cases tiles with
  | done => cases first
  | empty starts _ =>
    cases first
    exact starts
  | next starts _ _ =>
    cases first
    exact starts

theorem stop_eq (tiles : Tiles start tokens stop) :
    stop = start + (tokens.map Token.len).sum := by
  induction tiles with
  | done => rfl
  | empty _ nothing => simp [nothing]
  | next _ _ _ ih => rw [ih, List.map_cons, List.sum_cons, Nat.add_assoc]

theorem consecutive (tiles : Tiles start tokens stop) :
    tokens.IsChain fun token next => next.start = token.start + token.len := by
  induction tiles with
  | done => exact .nil
  | empty _ _ => exact .singleton _
  | @next start stop token rest starts _ onward ih =>
    cases rest with
    | nil => exact .singleton _
    | cons second rest => exact .cons_cons (starts ▸ onward.head_start rfl) ih

theorem nonempty_before_last (tiles : Tiles start tokens stop) :
    ∀ token ∈ tokens.dropLast, 0 < token.len := by
  induction tiles with
  | done => simp
  | empty _ _ => simp
  | @next start stop token rest _ positive _ ih =>
    intro other member
    cases rest with
    | nil => simp at member
    | cons second rest =>
      rw [List.dropLast_cons_cons, List.mem_cons] at member
      rcases member with rfl | later
      · exact positive
      · exact ih other later

theorem of_bare (tiles : Tiles start (tokens.map Token.bare) stop) : Tiles start tokens stop := by
  induction tokens generalizing start with
  | nil =>
    cases tiles
    exact .done
  | cons token rest ih =>
    rw [List.map_cons] at tiles
    generalize others : rest.map Token.bare = bare at tiles
    cases tiles with
    | empty starts nothing =>
      rw [List.map_eq_nil_iff.mp others]
      exact .empty starts nothing
    | next starts positive onward => exact .next starts positive (ih (others ▸ onward))

end Tiles

namespace Tables

variable {tables : Tables}

theorem tokenize_complete (start : Nat) (bytes : List UInt8)
    (complete : (tables.tokenize start bytes).2 = .complete) :
    ∃ stop, Tiles start (tables.tokenize start bytes).1 stop ∧
      ((∀ token ∈ (tables.tokenize start bytes).1, token.len ≠ 0) →
        stop = start + bytes.length) := by
  fun_induction tables.tokenize start bytes with
  | case1 start => exact ⟨start, .done, fun _ => rfl⟩
  | case2 => cases complete
  | case3 => cases complete
  | case4 start first rest action found small token =>
    exact ⟨start, .empty rfl rfl, fun nonempty => absurd rfl (nonempty token List.mem_cons_self)⟩
  | case5 start first rest action length found small token more later ih =>
    obtain ⟨stop, tiles, all⟩ := ih complete
    refine ⟨stop, .next rfl (Nat.pos_of_ne_zero more) tiles, ?_⟩
    intro nonempty
    have within := verdict_length_le found
    rw [all fun token member => nonempty token (List.mem_cons_of_mem _ member),
      List.length_drop]
    omega
  | case6 => cases complete

theorem tokenize_failed (start : Nat) (bytes : List UInt8) {error : LexError}
    {location : Location} (failed : (tables.tokenize start bytes).2 = .failed error location) :
    ∃ stop, Tiles start (tables.tokenize start bytes).1 stop ∧ error = .emptyToken stop ∧
      stop < start + bytes.length := by
  fun_induction tables.tokenize start bytes with
  | case1 => cases failed
  | case2 => cases failed
  | case3 start first rest stuck =>
    cases failed
    exact ⟨start, .done, rfl, Nat.lt_add_of_pos_right (Nat.succ_pos _)⟩
  | case4 => cases failed
  | case5 start first rest action length found small token more later ih =>
    obtain ⟨stop, tiles, same, inside⟩ := ih failed
    have within := verdict_length_le found
    refine ⟨stop, .next rfl (Nat.pos_of_ne_zero more) tiles, same, ?_⟩
    rw [List.length_drop] at inside
    omega
  | case6 => cases failed

theorem tokenize_located (start : Nat) (bytes : List UInt8) {error : LexError}
    {location : Location} (failed : (tables.tokenize start bytes).2 = .failed error location) :
    ∃ offset, error = .emptyToken offset ∧
      location = { Location.start "" with offset := offset } := by
  fun_induction tables.tokenize start bytes with
  | case1 => cases failed
  | case2 => cases failed
  | case3 start first rest stuck =>
    cases failed
    exact ⟨start, rfl, rfl⟩
  | case4 => cases failed
  | case5 start first rest action length found small token more later ih => exact ih failed
  | case6 => cases failed

theorem tokenize_fault (start : Nat) (bytes : List UInt8) {cause : Fault}
    (fault : (tables.tokenize start bytes).2 = .fault cause) :
    wordLimit ≤ start + bytes.length := by
  fun_induction tables.tokenize start bytes with
  | case1 => cases fault
  | case2 => cases fault
  | case3 => cases fault
  | case4 => cases fault
  | case5 start first rest action length found small token more later ih =>
    have beyond := ih fault
    have within := verdict_length_le found
    rw [List.length_drop] at beyond
    omega
  | case6 start first rest action length found large =>
    have within := verdict_length_le found
    omega

end Tables

structure Tiling (tokens : List Token) (length : Nat) : Prop where
  first : ∀ token, tokens.head? = some token → token.start = 0
  consecutive : tokens.IsChain fun token next => next.start = token.start + token.len
  nonempty : ∀ token ∈ tokens.dropLast, 0 < token.len
  covered : (∀ token ∈ tokens, token.len ≠ 0) → (tokens.map Token.len).sum = length

namespace Scanner

variable {tables : Tables} {scanner : Scanner}

/-- The tokens of a scan that comes to its end tile the input. A scan that fails does so with an
empty token where the last token ends, which is before the end of the input. -/
theorem scan_tiles (loaded : tables.Loaded)
    (chosen : scanner = .plain tables ∨ scanner = .ofTables tables)
    (pieces : List (List UInt8)) :
    ((scanner.scan pieces).ending = .complete →
      Tiling (scanner.scan pieces).reports.toList pieces.flatten.length) ∧
    ∀ error location, (scanner.scan pieces).ending = .failed error location →
      error = .emptyToken ((scanner.scan pieces).reports.toList.map Token.len).sum ∧
        ((scanner.scan pieces).reports.toList.map Token.len).sum < pieces.flatten.length := by
  obtain ⟨bare, ending⟩ := scan_tokenize loaded.valid chosen pieces
  rw [ending]
  constructor
  · intro complete
    obtain ⟨stop, tiles, all⟩ := tables.tokenize_complete 0 pieces.flatten complete
    rw [← bare] at tiles all
    have placed := tiles.of_bare
    refine ⟨fun _ => placed.head_start, placed.consecutive, placed.nonempty_before_last, ?_⟩
    intro nonempty
    have stops := all (List.forall_mem_map.mpr nonempty)
    have sum := placed.stop_eq
    omega
  · intro error location failed
    obtain ⟨stop, tiles, same, inside⟩ := tables.tokenize_failed 0 pieces.flatten failed
    rw [← bare] at tiles
    have sum := tiles.of_bare.stop_eq
    rw [Nat.zero_add] at sum inside
    exact ⟨sum ▸ same, sum ▸ inside⟩

theorem rerunTables_tile :
    rerunTables.Loaded ∧ (Scanner.ofTables rerunTables = .plain rerunTables ∨
      Scanner.ofTables rerunTables = .ofTables rerunTables) ∧
    ((Scanner.ofTables rerunTables).scan [[97], [98]]).ending = .complete ∧
      Tiling ((Scanner.ofTables rerunTables).scan [[97], [98]]).reports.toList 2 := by
  have loaded : rerunTables.Loaded := .ofParts rerunTables_accepted
  have complete : ((Scanner.ofTables rerunTables).scan [[97], [98]]).ending = .complete := by
    decide +kernel
  exact ⟨loaded, .inr rfl, complete, (scan_tiles loaded (.inr rfl) [[97], [98]]).1 complete⟩

end Scanner

end TableLexer
