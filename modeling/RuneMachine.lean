import RuneMachine.Codec.Charset
import RuneMachine.Codec.Decoder
import RuneMachine.Codec.Encoding
import RuneMachine.Codec.Handler
import RuneMachine.Codec.Sighting
import RuneMachine.Fault.Basic
import RuneMachine.Fault.Location
import RuneMachine.Machine.Act
import RuneMachine.Machine.Bench
import RuneMachine.Machine.Journal
import RuneMachine.Machine.Pass
import RuneMachine.Machine.Policy
import RuneMachine.Machine.World
import RuneMachine.Number.Binary64
import RuneMachine.Number.Shortest
import RuneMachine.Proofs.Codec.Pieces
import RuneMachine.Proofs.Codec.RoundTrip
import RuneMachine.Proofs.Machine.Ahead
import RuneMachine.Proofs.Machine.Alike
import RuneMachine.Proofs.Machine.Bench
import RuneMachine.Proofs.Machine.Exits
import RuneMachine.Proofs.Machine.Finish
import RuneMachine.Proofs.Machine.History
import RuneMachine.Proofs.Machine.Latch
import RuneMachine.Proofs.Machine.Located
import RuneMachine.Proofs.Machine.Locations
import RuneMachine.Proofs.Machine.Log
import RuneMachine.Proofs.Machine.Marker
import RuneMachine.Proofs.Machine.Relay
import RuneMachine.Proofs.Machine.Reports
import RuneMachine.Proofs.Machine.Sentinel
import RuneMachine.Proofs.Reader.Bounds
import RuneMachine.Proofs.Reader.Calls
import RuneMachine.Proofs.Reader.Decoding
import RuneMachine.Proofs.Reader.Demand
import RuneMachine.Proofs.Reader.Ending
import RuneMachine.Proofs.Reader.Holdings
import RuneMachine.Proofs.Reader.Ledger
import RuneMachine.Proofs.Reader.Ordinary
import RuneMachine.Proofs.Reader.Readings
import RuneMachine.Proofs.Reader.Stack
import RuneMachine.Proofs.Tokenizer.Answers
import RuneMachine.Proofs.Tokenizer.AsciiWords
import RuneMachine.Proofs.Tokenizer.Blocks
import RuneMachine.Proofs.Tokenizer.Calls
import RuneMachine.Proofs.Tokenizer.Course
import RuneMachine.Proofs.Tokenizer.Deliveries
import RuneMachine.Proofs.Tokenizer.Demand
import RuneMachine.Proofs.Tokenizer.Finds
import RuneMachine.Proofs.Tokenizer.Iterations
import RuneMachine.Proofs.Tokenizer.Places
import RuneMachine.Proofs.Tokenizer.Positions
import RuneMachine.Proofs.Tokenizer.Progress
import RuneMachine.Proofs.Tokenizer.Reference
import RuneMachine.Proofs.Tokenizer.Resumption
import RuneMachine.Proofs.Tokenizer.Scans
import RuneMachine.Proofs.Tokenizer.Sharing
import RuneMachine.Proofs.Tokenizer.Trailing
import RuneMachine.Proofs.Tokenizer.Words
import RuneMachine.Reader
import RuneMachine.Rules.Mapper
import RuneMachine.Rules.Program
import RuneMachine.Rules.Workshop
import RuneMachine.Scanner
import RuneMachine.Source
import RuneMachine.Text.Basic
import RuneMachine.Text.Quoted
import RuneMachine.Text.Space
import RuneMachine.Text.Unprintable
import RuneMachine.Tokenizer.Basic
import RuneMachine.Tokenizer.Options
import RuneMachine.Value
