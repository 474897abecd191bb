import TableLexer.Command.Host
import TableLexer.Sample.Grammar
import TableLexer.Sample.Source
import TableLexer.Scanner
import TableLexer.Text.Quoted
import TableLexer.Text.Utf8

/-! The command that scans random or given sources in three ways and compares the tokens: in one
piece, in pieces cut at random places, and without captures. -/

set_option autoImplicit false

namespace TableLexer.Fuzz

variable {m : Type → Type} [Monad m] [Host m]

/-- Cuts `bytes` into pieces of at most `most` bytes, empty ones among them. After `draws` pieces
the rest is one piece. -/
def cutAtRandom (most : Nat) : (draws : Nat) → (done : Array (List UInt8)) →
    (bytes : List UInt8) → Draw RandomWords (List (List UInt8))
  | 0, done, bytes => return (done.push bytes).toList
  | draws + 1, done, bytes => do
    if bytes.isEmpty then return done.toList
    else
      let size ← RandomWords.generator.range 0 most
      cutAtRandom most draws (done.push (bytes.take size)) (bytes.drop size)

/-- Pieces are drawn with 32 bits. -/
def largestPiece (setting : Nat) : Nat :=
  min (max setting 1) (UInt32.size - 1)

def sameToken (withCaptures : Bool) (first second : Token) : Bool :=
  first.action = second.action && first.start = second.start && first.len = second.len &&
    (!withCaptures || first.captures = second.captures)

def divergence? (withCaptures : Bool) (first second : Array Token) : Option Nat :=
  let shared := min first.size second.size
  match (first.zip second).findIdx? fun (a, b) => !sameToken withCaptures a b with
  | some i => some i
  | none => if first.size = second.size then none else some shared

def cellText (cell : Cell) : String :=
  match cell with
  | some position => "Some(" ++ toString position ++ ")"
  | none => "None"

def tokenText (source : List UInt8) (token : Option Token) : String :=
  match token with
  | none => "None"
  | some token =>
    let text := Utf8.decodeLossy ((source.drop token.start).take token.len)
    "Some((" ++ toString token.action ++ ", " ++ toString token.start ++ ", " ++
      toString token.len ++ ", " ++ Quoted.quote text ++ ", [" ++
      ", ".intercalate (token.captures.toList.map cellText) ++ "]))"

def padZero (width n : Nat) : String :=
  let digits := toString n
  String.ofList (List.replicate (width - digits.length) '0') ++ digits

/-- The tokens around a place where two scans differ, side by side. -/
def contextLines (source : List UInt8) (first second : Array Token) (place : Nat) :
    List String :=
  let low := place - 2
  let high := min (place + 3) (max first.size second.size)
  ("--- context tokens [" ++ toString low ++ ".." ++ toString high ++ ") ---") ::
    (List.range (high - low)).map fun i =>
      let a := tokenText source first[low + i]?
      let b := tokenText source second[low + i]?
      (if a = b then "✅" else "❌") ++ " #" ++ padZero 6 (low + i) ++ " A=" ++ a ++ "  B=" ++ b

def tokensOf (scan : Scan Token) : Command m (Array Token) :=
  match scan.ending with
  | .failed error _ => throw (.plain error.message)
  | _ => return scan.reports

def compare (name : String) (withCaptures : Bool) (source : List UInt8)
    (first second : Array Token) : Command m Unit :=
  match divergence? withCaptures first second with
  | none => pure ()
  | some place => do
    (contextLines source first second place).forM printNote
    throw (.plain (name ++ " diverges at token " ++ toString place))

def check (tables : Tables) (source : List UInt8) (words : RandomWords) (most : Nat) :
    Command m Unit := do
  let t0 ← liftM (Host.milliseconds : m Nat)
  let whole ← tokensOf (tables.scanBytes source)
  let t1 ← liftM (Host.milliseconds : m Nat)
  let draws := 4 * source.length + 64
  let pieces := (cutAtRandom (largestPiece most) draws #[] source words).1
  let chunked ← tokensOf ((Scanner.ofTables tables).scan pieces)
  let t2 ← liftM (Host.milliseconds : m Nat)
  let plain ← tokensOf ((Scanner.plain tables).scan [source])
  let t3 ← liftM (Host.milliseconds : m Nat)
  printNote ("[fuzz] whole " ++ toString (t1 - t0) ++ " ms | chunked (" ++
    toString pieces.length ++ " pieces) " ++ toString (t2 - t1) ++ " ms | plain " ++
    toString (t3 - t2) ++ " ms | tokens = " ++ toString whole.size)
  compare "chunked scan" true source whole chunked
  compare "plain engine" false source whole plain

structure Options where
  length : Nat
  rounds : Nat
  seed : Nat
  most : Nat
  saveIn : Option String

def save (directory : String) (seed round : Nat) (source : List UInt8) : Command m Unit := do
  let name := "case_s" ++ toString seed ++ "_i" ++ toString round ++ "_n" ++
    toString source.length ++ ".txt"
  let path := Path.join directory name
  orFail (.during ("write " ++ path) FileError.message)
    (← liftM (Host.writeFile path source : m (Except FileError Unit)))
  printNote ("[save] wrote " ++ path)

def makeSources (options : Options) (draw : Draw RandomWords (List Char)) :
    (rounds : Nat) → (done : Array (List UInt8)) → (words : RandomWords) →
      Command m (Array (List UInt8))
  | 0, done, _ => return done
  | rounds + 1, done, words => do
    let (text, words) := draw words
    let source := Utf8.encode (String.ofList text)
    printNote ("[fuzz] iter " ++ toString done.size ++ ": generated " ++
      toString source.length ++ " bytes")
    match options.saveIn with
    | some directory => save directory options.seed done.size source
    | none => pure ()
    makeSources options draw rounds (done.push source) words

def checkAll (tables : Tables) (options : Options) : (round : Nat) →
    (sources : List (List UInt8)) → Command m Unit
  | _, [] => pure ()
  | round, source :: rest => do
    let words := RandomWords.seeded
      (UInt64.ofNat options.seed ^^^ (UInt64.ofNat round * 0x9E3779B97F4A7C15))
    let context := "iter " ++ toString round ++ " (seed " ++ toString options.seed ++ ")"
    tryCatch (check tables source words options.most) fun failure =>
      throw (failure.within context)
    checkAll tables options (round + 1) rest

def replay (tables : Tables) (path : String) (seed most : Nat) : Command m Unit := do
  let source ← orFail (.during ("read " ++ path) FileError.message)
    (← liftM (Host.readFile path : m (Except FileError (List UInt8))))
  printNote ("[replay] " ++ path ++ " (" ++ toString source.length ++ " bytes)")
  check tables source (RandomWords.seeded (UInt64.ofNat seed)) most

def checkRandom (tables : Tables) (options : Options) : Command m Unit := do
  printNote ("[fuzz] len=" ++ toString options.length ++ " iters=" ++ toString options.rounds ++
    " seed=" ++ toString options.seed ++ " max_chunk=" ++ toString options.most)
  match options.saveIn with
  | some directory =>
    orFail (.during ("create " ++ directory) FileError.message)
      (← liftM (Host.makeDirectories directory : m (Except FileError Unit)))
  | none => pure ()
  let sources ←
    if options.rounds = 0 then pure #[]
    else match Sample.source? options.length with
      | .error _ => throw (.plain "no room for a source")
      | .ok draw =>
        makeSources options draw options.rounds #[]
          (RandomWords.seeded (UInt64.ofNat options.seed))
  checkAll tables options 0 sources.toList
  printNote "[fuzz] all iterations matched ✅"

def command : Command m Unit := do
  let tables ← orFail (fun error => .plain error.message) Sample.tables
  let most ← numericSetting "FUZZ_MAX_CHUNK" wordLimit 64
  let seed ← numericSetting "FUZZ_SEED" wordLimit 42
  match ← liftM (Host.setting? "FUZZ_INPUT" : m (Option String)) with
  | some path => replay tables path seed most
  | none =>
    let saving ← liftM (Host.setting? "FUZZ_SAVE" : m (Option String))
    let directory ← liftM (Host.setting? "FUZZ_DIR" : m (Option String))
    let length ← numericSetting "FUZZ_LEN" wordLimit 100000
    let rounds ← numericSetting "FUZZ_ITERS" wordLimit 3
    let saveIn := if saving = some "1" then some (directory.getD "fuzz-cases") else none
    checkRandom tables { length, rounds, seed, most, saveIn }

end TableLexer.Fuzz
