import Accumulator.Main
import Accumulator.Proofs.Memory
import Accumulator.Proofs.Effect
import Accumulator.Proofs.Step
import Accumulator.Proofs.Run
import Accumulator.Proofs.Decode
import Accumulator.Proofs.Refinement
import Accumulator.Proofs.Counting
import Accumulator.Proofs.Faults
import Accumulator.Proofs.Budget
import Accumulator.Proofs.Calls
import Accumulator.Proofs.Lifecycle
import Accumulator.Proofs.Trail
import Accumulator.Proofs.LastWriter
import Accumulator.Proofs.Reads
import Accumulator.Proofs.Placement
import Accumulator.Proofs.Requests
import Accumulator.Proofs.Reload
import Accumulator.Proofs.Encoding
import Accumulator.Proofs.Digits
import Accumulator.Proofs.Token
import Accumulator.Proofs.Listing
import Accumulator.Proofs.Program
import Accumulator.Proofs.Stopped
import Accumulator.Proofs.Resume
import Accumulator.Proofs.Session
import Accumulator.Proofs.Settings
import Accumulator.Proofs.Override
import Accumulator.Proofs.Pieces
import Accumulator.Proofs.Opcodes
import Accumulator.Proofs.Scan
import Accumulator.Proofs.Variants
import Accumulator.Proofs.TraceOutcome
import Accumulator.Proofs.ProgramCounter
import Accumulator.Proofs.Tally
import Accumulator.Proofs.Loops
import Accumulator.Proofs.StraightLine
import Accumulator.Proofs.Fibonacci
import Accumulator.Proofs.CheckedMap
import Accumulator.Proofs.EndOfMemory
import Accumulator.Proofs.Loading
import Accumulator.Proofs.Joining
import Accumulator.Proofs.Numeral
import Accumulator.Proofs.HexText
import Accumulator.Proofs.NumberSyntax
import Accumulator.Proofs.RangeSyntax
import Accumulator.Proofs.Executions
import Accumulator.Proofs.Spelling
import Accumulator.Proofs.TraceLines
import Accumulator.Proofs.JsonToken
import Accumulator.Proofs.JsonText
import Accumulator.Proofs.SettingsText
import Accumulator.Proofs.Shifts
import Accumulator.Proofs.Lines
import Accumulator.Proofs.Dump
import Accumulator.Proofs.Report
import Accumulator.Proofs.Hundredths
import Accumulator.Proofs.Shown
import Accumulator.Proofs.Violations
import Accumulator.Proofs.StrictRun
import Accumulator.Proofs.Safety
