import TableLexer.Fault
import TableLexer.Random

/-! Random sources that the sample grammar scans without an error. A source is a run of
identifiers, numbers, blanks, comments and operators. Numbers often end in a point without a
fraction, so that the automaton has to back up. -/

set_option autoImplicit false

namespace TableLexer.Sample

def letters : List Char :=
  "abcdefghijklmnopqrstuvwxyzABCDEFGHIJKLMNOPQRSTUVWXYZ_".toList

def decimals : List Char :=
  "0123456789".toList

def blanks : List Char :=
  [' ', '\t', '\r', '\n']

def commentChars : List Char :=
  "abcdefghijklmnopqrstuvwxyzABCDEFGHIJKLMNOPQRSTUVWXYZ0123456789 +-*/&|![]\x7b\x7d()<>=.$".toList

def operators : List (List Char) :=
  [['('], [')'], ['+'], ['-'], ['*'], ['/'], ['.'], ['='], ['=', '=']]

/-- Six in ten. -/
def letterChance : UInt64 := 11068046444225730560

/-- One in four. -/
def spaceChance : UInt64 := 4611686018427387904

section

variable {σ : Type} (generator : Generator σ)

def identChar : Draw σ Char := do
  if ← generator.chance letterChance then generator.oneOf letters else generator.oneOf decimals

def ident : Draw σ (List Char) := do
  let length ← generator.range 1 12
  let first ← generator.oneOf letters
  return first :: (← Draw.times (length - 1) (identChar generator))

def number : Draw σ (List Char) := do
  let integer ← Draw.times (← generator.range 1 8) (generator.oneOf decimals)
  match ← generator.below 4 with
  | 0 => return integer ++ '.' :: (← Draw.times (← generator.range 1 4) (generator.oneOf decimals))
  | 1 => return integer ++ ['.']
  | _ => return integer

def white : Draw σ (List Char) := do
  Draw.times (← generator.range 1 8) (generator.oneOf blanks)

def lineComment : Draw σ (List Char) := do
  let text ← Draw.times (← generator.range 0 40) (generator.oneOf commentChars)
  return '/' :: '/' :: text ++ ['\n']

def operator : Draw σ (List Char) := do
  let mark := operators.getD (← generator.below operators.length) []
  if ← generator.chance spaceChance then return mark ++ [' '] else return mark

def lexemeRun : Draw σ (List Char) := do
  let roll ← generator.below 100
  if roll < 25 then ident generator
  else if roll < 45 then number generator
  else if roll < 60 then white generator
  else if roll < 67 then lineComment generator
  else operator generator

def sourceAfter (target : Nat) : (runs : Nat) → (done : Array Char) → Draw σ (Array Char)
  | 0, done => return done
  | runs + 1, done => do
    if target ≤ done.size then return done
    else sourceAfter target runs (done ++ (← lexemeRun generator))

/-- At least `target` characters. Every run has one, so `target` runs are enough. -/
def source (target : Nat) : Draw σ (List Char) := do
  return (← sourceAfter generator target target #[]).toList

def maxText : Nat := 9223372036854775807

/-- `source`, when there is room for the target and an eighth more. -/
def sourceFrom? (target : Nat) : Except Fault (Draw σ (List Char)) :=
  if wordLimit ≤ target + target / 8 then .error .overflow
  else if maxText < target + target / 8 then .error .capacity
  else .ok (source generator target)

end

def source? (target : Nat) : Except Fault (Draw RandomWords (List Char)) :=
  sourceFrom? RandomWords.generator target

end TableLexer.Sample
