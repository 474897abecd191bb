import TableLexer.Command.LexFile
import TableLexer.Proofs.Binary.RoundTrip
import TableLexer.Proofs.Command.World
import TableLexer.Proofs.Sample.Tables
import TableLexer.Proofs.Scanning.Boundaries
import TableLexer.Proofs.Scanning.Tiling

/-! Scanning a file. What is printed are the tokens of a plain scan of the whole content, a line for
each, and nothing of it tells how large the pieces were in which the content was read. -/

set_option autoImplicit false

namespace TableLexer

namespace LexFile

variable {tables : Tables}

def contentLine (named : Bool) (content : List UInt8) (token : Token) : String :=
  padLeft 8 (toString token.start) ++ " " ++ actionName named token.action ++ " " ++
    Quoted.quote (Utf8.decodeLossy ((content.drop token.start).take token.len))

def printed (named : Bool) (content : List UInt8) (tokens : List Token) : String :=
  String.join (tokens.map fun token => contentLine named content token ++ "\n")

theorem tokenText_eq {window : Window} {pieces : List (List UInt8)} {content : List UInt8}
    {token : Token} (holds : window.Holds pieces content)
    (ends : token.start + token.len = window.curr) :
    tokenText window token =
      .ok (Utf8.decodeLossy ((content.drop token.start).take token.len)) := by
  have inside : token.start + token.len ≤ window.bytes.toList.length := by
    rw [ends, Array.length_toList, ← holds.filled]
    exact holds.within
  have enough : token.len ≤ (window.bytes.toList.drop token.start).length := by
    rw [List.length_drop]
    omega
  have same : (window.bytes.extract token.start (token.start + token.len)).toList =
      (content.drop token.start).take token.len := by
    rw [Array.toList_extract, List.extract_eq_take_drop, Nat.add_sub_cancel_left, ← holds.whole,
      List.drop_append_of_le_length (Nat.le_trans (Nat.le_add_right _ _) inside),
      List.take_append_of_le_length enough]
  rw [tokenText, if_pos (Array.length_toList ▸ inside), same]

theorem tokenLine_reports (named : Bool) (content : List UInt8) :
    Scanner.Reports (tokenLine named) content (contentLine named content) := by
  intro window pieces token holds ends
  rw [tokenLine, tokenText_eq holds ends]
  rfl

theorem scanFile_eq (valid : tables.Valid) (named : Bool) (path : String)
    (pieces : List (List UInt8)) :
    (scanFile tables named path pieces).reports.toList =
        ((Scanner.plain tables).scan [pieces.flatten]).reports.toList.map
          (contentLine named pieces.flatten) ∧
      (scanFile tables named path pieces).ending =
        ((Scanner.plain tables).scan [pieces.flatten]).ending.inFile path := by
  obtain ⟨observer, reaction, ready, steady⟩ := Scanner.exists_steady valid (.inr rfl)
  have holds : (Window.empty.named path).Holds pieces pieces.flatten :=
    ⟨rfl, rfl, rfl, Nat.le_refl 0, nofun⟩
  obtain ⟨found, scanned, bare, _⟩ :=
    Scanner.scanWith_reports (tokenLine_reports named pieces.flatten) steady
      { Session.empty with window := Window.empty.named path } holds rfl rfl
  have same : found.map (contentLine named pieces.flatten) =
      (found.map Token.bare).map (contentLine named pieces.flatten) := by
    rw [List.map_map]
    rfl
  rw [scanFile, scanned, Scanner.plain_scan_eq valid, same, bare]
  exact ⟨rfl, rfl⟩

end LexFile

/-- The world asks for this file to be scanned with these tables: those in a file that a setting
names, or else those of the sample grammar, whose actions have names. -/
structure World.Poses (world : World) (path : String) (content : List UInt8) (tables : Tables)
    (named : Bool) : Prop where
  argument : world.arguments.head? = some path
  content : world.files.read path = .ok content
  chosen : match world.settings.lookup "LEX_TABLES" with
    | some file => Tables.ofFile file (world.files.read file) = .ok tables ∧ named = false
    | none => Sample.tables = .ok tables ∧ named = true

namespace World.Poses

variable {world : World} {path : String} {content : List UInt8} {tables : Tables} {named : Bool}
  (poses : world.Poses path content tables named)

include poses

theorem valid : tables.Valid := by
  have chosen := poses.chosen
  split at chosen
  · exact (Tables.loaded_of_ofFile chosen.1).valid
  · obtain ⟨lines, interner, packed, built⟩ := Sample.automaton.built_of_tables chosen.1
    exact built.valid

theorem chooseTables_carryOut :
    Command.carryOut LexFile.chooseTables world = (.ok (tables, named), world) := by
  have chosen := poses.chosen
  rw [LexFile.chooseTables, Command.carryOut_ask, World.run_setting]
  cases setting : world.settings.lookup "LEX_TABLES" with
  | none =>
    simp only [setting] at chosen ⊢
    obtain ⟨loaded, rfl⟩ := chosen
    rw [loaded]
    rfl
  | some file =>
    simp only [setting] at chosen ⊢
    obtain ⟨loaded, rfl⟩ := chosen
    rw [Command.carryOut_ask, World.run_readFile, loaded]
    rfl

end World.Poses

namespace LexFile

variable {world : World} {path : String} {content : List UInt8} {tables : Tables} {named : Bool}

theorem conclude_carryOut (path : String) (pieces : List (List UInt8)) (started : Nat)
    (scan : Scan String) (world : World) :
    ∃ after, (conclude path (.ok pieces) started scan).carryOut world =
        (result path scan.ending, after) ∧
      after.out = world.out ++ String.join (scan.reports.toList.map (· ++ "\n")) ∧
      ∀ failure, result path scan.ending = .error failure → after.err = world.err := by
  have lines := Command.carryOut_printLines scan.reports.toList world
  rw [Array.toArray_toList] at lines
  rw [conclude, Command.carryOut_bind lines]
  cases result path scan.ending with
  | error failure =>
    rw [Command.carryOut_bind_failed (Command.carryOut_orFail_error id failure _)]
    exact ⟨_, rfl, rfl, fun _ _ => rfl⟩
  | ok done =>
    rw [Command.carryOut_bind (Command.carryOut_orFail id done _),
      Command.carryOut_bind (Command.carryOut_orFail _ pieces _), Command.carryOut_ask,
      World.run_milliseconds, Command.carryOut_printNote]
    exact ⟨_, rfl, rfl, nofun⟩

theorem command_carryOut (poses : world.Poses path content tables named) :
    ∃ after, Command.carryOut command world =
        (result path (((Scanner.plain tables).scan [content]).ending.inFile path), after) ∧
      after.out = world.out ++
        printed named content ((Scanner.plain tables).scan [content]).reports.toList ∧
      ∀ failure, result path (((Scanner.plain tables).scan [content]).ending.inFile path) =
        .error failure → after.err = world.err := by
  -- All that the command asks of its world before it scans is as posed; the size of a read is the
  -- one thing left open, and the pieces make up the content at any size.
  rw [command, Command.carryOut_ask, World.run_arguments]
  simp only [poses.argument]
  rw [Command.carryOut_bind (Command.carryOut_numericSetting _ _ _ _),
    Command.carryOut_bind poses.chooseTables_carryOut]
  generalize ((world.settings.lookup "LEX_CHUNK").bind (readUnsigned? wordLimit)).getD
    standardPiece = size
  simp only
  rw [Command.carryOut_ask, World.run_openFile, FileTree.canOpen_of_read poses.content,
    Command.carryOut_bind (Command.carryOut_orFail _ _ _), Command.carryOut_ask,
    World.run_milliseconds, Command.carryOut_ask, World.run_readPieces, poses.content]
  have scanned := scanFile_eq poses.valid named path (world.reading.pieces size content)
  have concluded := conclude_carryOut path (world.reading.pieces size content) 0
    (scanFile tables named path (world.reading.pieces size content)) world
  rw [scanned.1, scanned.2, world.reading.whole, List.map_map] at concluded
  exact concluded

def emptyTokenReport (path : String) (offset : Nat) : String :=
  "Error: " ++ (path ++ ":" ++ toString offset) ++ "\n\nCaused by:\n    " ++
    (LexError.emptyToken offset).message ++ "\n"

/-- A run of the command as a scan of the content demands it: the lines of the tokens, and an exit
with zero or with a report of the place where no token is recognized. -/
structure Prints (world : World) (path : String) (named : Bool) (content : List UInt8)
    (scan : Scan Token) (exit : UInt32 × World) : Prop where
  lines : exit.2.out = world.out ++ printed named content scan.reports.toList
  complete : scan.ending = .complete → exit.1 = 0
  failed : ∀ error location, scan.ending = .failed error location →
    ∃ offset, error = .emptyToken offset ∧ exit.1 = 1 ∧
      exit.2.err = world.err ++ emptyTokenReport path offset

theorem command_prints (poses : world.Poses path content tables named) :
    (Command.runIn command world).1 = Command.exitCode
        (result path (((Scanner.plain tables).scan [content]).ending.inFile path)) ∧
      Prints world path named content ((Scanner.plain tables).scan [content])
        (Command.runIn command world) := by
  obtain ⟨after, came, out, err⟩ := command_carryOut poses
  rw [Command.runIn_eq came]
  refine ⟨rfl, out, ?_, ?_⟩
  · intro complete
    rw [complete]
    rfl
  · intro error location failed
    have whole := Scanner.plain_scan_eq poses.valid content
    rw [whole] at failed
    obtain ⟨offset, rfl, rfl⟩ := Tables.tokenize_located 0 content failed
    rw [whole, failed] at err ⊢
    refine ⟨offset, rfl, rfl, ?_⟩
    have reported := Failure.report_within (path ++ ":" ++ toString offset)
      (LexError.emptyToken offset).message
    rw [emptyTokenReport, ← reported, ← err _ rfl]
    rfl

theorem plain_scan_ending (valid : tables.Valid) (small : content.length < wordLimit)
    (halts : (Scanner.plain tables).Halts [content]) :
    ((Scanner.plain tables).scan [content]).ending = .complete ∨
      ∃ error location,
        ((Scanner.plain tables).scan [content]).ending = .failed error location := by
  rw [Scanner.halts_iff_tokenize valid (.inl rfl), List.flatten_singleton] at halts
  rw [Scanner.plain_scan_eq valid content]
  cases ending : (tables.tokenize 0 content).2 with
  | complete => exact .inl rfl
  | failed error location => exact .inr ⟨error, location, rfl⟩
  | fault cause =>
    have large := Tables.tokenize_fault 0 content ending
    omega
  | endless => exact absurd ending halts

variable {other : World}

/-- The same file scanned with the same tables gives the same lines and the same exit code, however
large the pieces are that a setting asks for and that the reads deliver. The lines are those of the
tokens that a plain scan of the content finds, and the command ends as that scan does. -/
theorem command_agrees (poses : world.Poses path content tables named)
    (poses' : other.Poses path content tables named) :
    (Command.runIn command other).1 = (Command.runIn command world).1 ∧
    (other.out = world.out →
      (Command.runIn command other).2.out = (Command.runIn command world).2.out) ∧
    Prints world path named content ((Scanner.plain tables).scan [content])
      (Command.runIn command world) ∧
    ((Scanner.plain tables).Halts [content] → content.length < wordLimit →
      ((Scanner.plain tables).scan [content]).ending = .complete ∨
        ∃ error location,
          ((Scanner.plain tables).scan [content]).ending = .failed error location) := by
  obtain ⟨code, prints⟩ := command_prints poses
  obtain ⟨code', prints'⟩ := command_prints poses'
  refine ⟨code'.trans code.symm, ?_, prints, fun halts small =>
    plain_scan_ending poses.valid small halts⟩
  intro blank
  rw [prints.lines, prints'.lines, blank]

def chainWorld (setting : String) : World where
  arguments := ["x"]
  settings := [("LEX_TABLES", "t"), ("LEX_CHUNK", setting)]
  files := { directories := #[[("t", .file Binary.staleFile), ("x", .file [97, 98])]] }
  out := ""
  err := ""

theorem splitOn_letter {name separator : String} (proper : separator ≠ "")
    (nonempty : ¬ String.Pos.Raw.atEnd name 0)
    (other : String.Pos.Raw.get name 0 ≠ String.Pos.Raw.get separator 0)
    (single : String.Pos.Raw.atEnd name (String.Pos.Raw.next name 0))
    (same : String.Pos.Raw.extract name 0 (String.Pos.Raw.next name 0) = name) :
    name.splitOn separator = [name] := by
  have next : String.Pos.Raw.next name (String.Pos.Raw.unoffsetBy 0 0) =
      String.Pos.Raw.next name 0 := rfl
  rw [String.splitOn, if_neg (by simpa using proper), String.splitOnAux, if_neg nonempty,
    if_neg (by simpa using other), String.splitOnAux, next, if_pos single]
  simp [same]

theorem chainWorld_poses (setting : String) :
    (chainWorld setting).Poses "x" [97, 98] chainTables false := by
  have lone : Path.names "t" = ["t"] :=
    splitOn_letter (by decide) (by decide) (by decide) (by decide) (by decide +kernel)
  have lone' : Path.names "x" = ["x"] :=
    splitOn_letter (by decide) (by decide) (by decide) (by decide) (by decide +kernel)
  have tables : (chainWorld setting).files.read "t" = .ok Binary.staleFile :=
    FileTree.read_name lone (by decide) (by decide) (by simp) rfl
  have text : (chainWorld setting).files.read "x" = .ok [97, 98] :=
    FileTree.read_name lone' (by decide) (by decide) (by simp) rfl
  have binary : Path.extension? "t" ≠ some "json" := by
    have undotted : "t".splitOn "." = ["t"] :=
      splitOn_letter (by decide) (by decide) (by decide) (by decide) (by decide +kernel)
    simp [Path.extension?, Path.fileName, lone, undotted]
  have loaded : Tables.ofFile "t" (.ok Binary.staleFile) = .ok chainTables :=
    (if_neg binary).trans Binary.staleFile_loads
  exact ⟨rfl, text, tables.symm ▸ loaded, rfl⟩

/-- Reads of no bytes are reads of one byte, and a size that is no number is the standard one. -/
theorem chainWorld_agree :
    (chainWorld "0").Poses "x" [97, 98] chainTables false ∧
    (chainWorld "many").Poses "x" [97, 98] chainTables false ∧
    (Command.runIn command (chainWorld "0")).1 = 0 ∧
    (Command.runIn command (chainWorld "many")).1 = 0 ∧
    (Command.runIn command (chainWorld "0")).2.out =
      "       0 #5 \"a\"\n       1 #5 \"b\"\n" ∧
    (Command.runIn command (chainWorld "many")).2.out =
      (Command.runIn command (chainWorld "0")).2.out := by
  have poses := chainWorld_poses "0"
  have poses' := chainWorld_poses "many"
  obtain ⟨code, out, prints, _⟩ := command_agrees poses poses'
  have complete : ((Scanner.plain chainTables).scan [[97, 98]]).ending = .complete := by
    decide +kernel
  have tokens : ((Scanner.plain chainTables).scan [[97, 98]]).reports =
      #[{ action := 5, start := 0, len := 1, captures := #[] },
        { action := 5, start := 1, len := 1, captures := #[] }] := by
    decide +kernel
  have exit := prints.complete complete
  have lines := prints.lines
  rw [tokens] at lines
  refine ⟨poses, poses', exit, code.trans exit, lines.trans ?_, out rfl⟩
  decide +kernel

end LexFile

end TableLexer
