import TableLexer.Automaton.Basic
import TableLexer.Automaton.Build
import TableLexer.Automaton.Interning
import TableLexer.Automaton.Packing
import TableLexer.Bytes.Words
import TableLexer.Command.BuildTables
import TableLexer.Command.Fuzz
import TableLexer.Command.Host
import TableLexer.Command.LexFile
import TableLexer.Command.ShowSample
import TableLexer.Fault
import TableLexer.Files.Path
import TableLexer.Files.Reading
import TableLexer.Files.Tables
import TableLexer.Files.Tree
import TableLexer.Json.Flaw
import TableLexer.Json.Number
import TableLexer.Json.Read
import TableLexer.Json.Reader
import TableLexer.Json.Skip
import TableLexer.Json.Text
import TableLexer.Json.Value
import TableLexer.Main
import TableLexer.Numeric.Double
import TableLexer.Numeric.Rounding
import TableLexer.Numeric.Shortest
import TableLexer.Program.Basic
import TableLexer.Program.Codec
import TableLexer.Proofs.Automaton.Acceptance
import TableLexer.Proofs.Automaton.Addresses
import TableLexer.Proofs.Automaton.Build
import TableLexer.Proofs.Automaton.Capacity
import TableLexer.Proofs.Automaton.Compiling
import TableLexer.Proofs.Automaton.Frequency
import TableLexer.Proofs.Automaton.Interning
import TableLexer.Proofs.Automaton.Layout
import TableLexer.Proofs.Automaton.Packing
import TableLexer.Proofs.Automaton.Provenance
import TableLexer.Proofs.Automaton.Reading
import TableLexer.Proofs.Automaton.Rejection
import TableLexer.Proofs.Binary.Layout
import TableLexer.Proofs.Binary.Reading
import TableLexer.Proofs.Binary.RoundTrip
import TableLexer.Proofs.Command.LexFile
import TableLexer.Proofs.Command.World
import TableLexer.Proofs.Document.Fields
import TableLexer.Proofs.Document.RoundTrip
import TableLexer.Proofs.Fallible
import TableLexer.Proofs.Json.Containers
import TableLexer.Proofs.Json.Reading
import TableLexer.Proofs.Json.Scalars
import TableLexer.Proofs.Json.Spelling
import TableLexer.Proofs.Machine.Call
import TableLexer.Proofs.Machine.Decoding
import TableLexer.Proofs.Machine.Safety
import TableLexer.Proofs.Machine.Words
import TableLexer.Proofs.Program.Assignment
import TableLexer.Proofs.Program.Effect
import TableLexer.Proofs.Program.Encoding
import TableLexer.Proofs.Program.Execution
import TableLexer.Proofs.Program.Terminated
import TableLexer.Proofs.Recognition.Answer
import TableLexer.Proofs.Recognition.EndOfInput
import TableLexer.Proofs.Recognition.InPlace
import TableLexer.Proofs.Recognition.Lexeme
import TableLexer.Proofs.Recognition.LongestMatch
import TableLexer.Proofs.Recognition.Position
import TableLexer.Proofs.Recognition.Progress
import TableLexer.Proofs.Recognition.Reaction
import TableLexer.Proofs.Recognition.Suspension
import TableLexer.Proofs.Recognition.Trail
import TableLexer.Proofs.Recognition.Turns
import TableLexer.Proofs.Recognition.Verdict
import TableLexer.Proofs.Sample.Cells
import TableLexer.Proofs.Sample.Draws
import TableLexer.Proofs.Sample.Generated
import TableLexer.Proofs.Sample.Language
import TableLexer.Proofs.Sample.Reference
import TableLexer.Proofs.Sample.Scan
import TableLexer.Proofs.Sample.Tables
import TableLexer.Proofs.Sample.Words
import TableLexer.Proofs.Scanning.Attempt
import TableLexer.Proofs.Scanning.Boundaries
import TableLexer.Proofs.Scanning.Captures
import TableLexer.Proofs.Scanning.Feeding
import TableLexer.Proofs.Scanning.Halting
import TableLexer.Proofs.Scanning.Lexemes
import TableLexer.Proofs.Scanning.Noninterference
import TableLexer.Proofs.Scanning.Pieces
import TableLexer.Proofs.Scanning.Request
import TableLexer.Proofs.Scanning.Reruns
import TableLexer.Proofs.Scanning.Stages
import TableLexer.Proofs.Scanning.Tiling
import TableLexer.Proofs.Session.Failure
import TableLexer.Proofs.Session.Ordered
import TableLexer.Proofs.Session.Reachable
import TableLexer.Proofs.Session.Requests
import TableLexer.Proofs.Tables.CaptureValidity
import TableLexer.Proofs.Tables.Entries
import TableLexer.Proofs.Tables.Loading
import TableLexer.Proofs.Tables.RawFields
import TableLexer.Proofs.Tables.Uniform
import TableLexer.Proofs.Tables.Validity
import TableLexer.Proofs.Tables.Views
import TableLexer.Proofs.Tables.WellFormed
import TableLexer.Proofs.Text.Utf8
import TableLexer.Random
import TableLexer.Recognition.Entry
import TableLexer.Recognition.Observer
import TableLexer.Recognition.Run
import TableLexer.Sample.Grammar
import TableLexer.Sample.Kind
import TableLexer.Sample.Source
import TableLexer.Scanner
import TableLexer.Session
import TableLexer.Symbol
import TableLexer.Tables.Binary
import TableLexer.Tables.Document
import TableLexer.Tables.Error
import TableLexer.Tables.Fields
import TableLexer.Tables.Lookup
import TableLexer.Tables.Raw
import TableLexer.Tables.Validation
import TableLexer.Text.Numeral
import TableLexer.Text.Printable
import TableLexer.Text.Quoted
import TableLexer.Text.Utf8
import TableLexer.Window
