import LazyPeg.Session
import LazyPeg.Source.Tokens
import LazyPeg.Csv.CommandLine
import LazyPeg.Main
import LazyPeg.Parser.Handles
import LazyPeg.Proofs.Reading.Basic
import LazyPeg.Proofs.Reading.Bounds
import LazyPeg.Proofs.Reading.Depth
import LazyPeg.Proofs.Store.Force
import LazyPeg.Proofs.Simulation.Follows
import LazyPeg.Proofs.Simulation.Terms
import LazyPeg.Proofs.Medium.Watched
import LazyPeg.Proofs.Building.Alike
import LazyPeg.Proofs.Session.Sound
import LazyPeg.Proofs.Session.Reaches
import LazyPeg.Proofs.Session.Parse
import LazyPeg.Proofs.Session.Demand
import LazyPeg.Proofs.Session.Memo
import LazyPeg.Proofs.Reading.Answers
import LazyPeg.Proofs.Cut.Basic
import LazyPeg.Proofs.Cut.Parsers
import LazyPeg.Proofs.Csv.PlainCharacter
import LazyPeg.Proofs.Csv.Written
import LazyPeg.Proofs.Csv.Parse
import LazyPeg.Proofs.Csv.Accepts
import LazyPeg.Proofs.Csv.Writing
import LazyPeg.Proofs.Csv.Lines
import LazyPeg.Proofs.Reader.Groups
import LazyPeg.Proofs.Reader.Spelling
import LazyPeg.Proofs.Reader.Decoding
import LazyPeg.Proofs.Reader.Borders
import LazyPeg.Proofs.Reader.Segments
import LazyPeg.Proofs.Reader.Calls
import LazyPeg.Proofs.Reader.Fetching
import LazyPeg.Proofs.Store.Readers
import LazyPeg.Proofs.Simulation.Verdict
import LazyPeg.Proofs.Session.Readers
import LazyPeg.Proofs.Session.Run
import LazyPeg.Proofs.Reading.Nodes
import LazyPeg.Proofs.Building.Nodes
import LazyPeg.Proofs.Reading.Anchored
import LazyPeg.Proofs.Session.Places
import LazyPeg.Proofs.Reading.Guarded
import LazyPeg.Proofs.Session.Guarded
import LazyPeg.Proofs.Session.Report
import LazyPeg.Proofs.Csv.Header
import LazyPeg.Proofs.Csv.Rejects
import LazyPeg.Proofs.Csv.Program
import LazyPeg.Proofs.Reading.Lossless
import LazyPeg.Proofs.Session.Lossless
import LazyPeg.Proofs.Reading.Translated
import LazyPeg.Proofs.Session.Translated
import LazyPeg.Proofs.Simulation.Plain
import LazyPeg.Proofs.Building.Plain
import LazyPeg.Proofs.Session.Plain
import LazyPeg.Proofs.Handles.Settled
import LazyPeg.Proofs.Simulation.Calls
import LazyPeg.Proofs.Session.Misuse
import LazyPeg.Proofs.Reading.Matches
import LazyPeg.Proofs.Session.Local
import LazyPeg.Proofs.Reading.Repetition
import LazyPeg.Proofs.Session.Repetition
import LazyPeg.Proofs.Reading.Separated
import LazyPeg.Proofs.Session.Separated
import LazyPeg.Proofs.Session.Factoring
import LazyPeg.Proofs.Simulation.Bind
import LazyPeg.Proofs.Reading.Rows
import LazyPeg.Proofs.Session.Bind
import LazyPeg.Proofs.Reading.Lookahead
import LazyPeg.Proofs.Session.Agreement
import LazyPeg.Proofs.Session.Lookahead
import LazyPeg.Proofs.Reading.Scanning
import LazyPeg.Proofs.Session.Scanning
import LazyPeg.Proofs.Reading.Splitting
import LazyPeg.Proofs.Session.Splitting
import LazyPeg.Proofs.Reading.Recursion
import LazyPeg.Proofs.Session.Recursion
import LazyPeg.Proofs.Reading.Exhausted
import LazyPeg.Proofs.Session.Exhausted
import LazyPeg.Proofs.Simulation.Regrouped
import LazyPeg.Proofs.Reading.Committed
import LazyPeg.Proofs.Session.Regrouped
import LazyPeg.Proofs.Pattern.Cutting
import LazyPeg.Proofs.Pattern.Escapes
import LazyPeg.Proofs.Pattern.Classes
import LazyPeg.Proofs.Pattern.Groups
import LazyPeg.Proofs.Pattern.Alternation
import LazyPeg.Proofs.Pattern.Stretches
import LazyPeg.Proofs.Pattern.Items
import LazyPeg.Proofs.Pattern.Anchoring
import LazyPeg.Proofs.Session.Matching
import LazyPeg.Proofs.Reading.Shortcuts
import LazyPeg.Proofs.Session.Shortcuts
import LazyPeg.Proofs.Reading.Nested
import LazyPeg.Proofs.Session.Nested
