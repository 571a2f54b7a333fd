import Tandem.Action
import Tandem.Bytes.LittleEndian
import Tandem.Bytes.Scalar
import Tandem.CommandLine.Number
import Tandem.CommandLine.Options
import Tandem.CommandLine.Reader
import Tandem.CommandLine.Session
import Tandem.Crosscheck
import Tandem.Engine.Basic
import Tandem.Engine.Config
import Tandem.Engine.Journal
import Tandem.Fault
import Tandem.Image
import Tandem.Instruction.Basic
import Tandem.Instruction.Condition
import Tandem.Instruction.Decoding
import Tandem.Instruction.Encoding
import Tandem.Instruction.Opcode
import Tandem.Instruction.Printer
import Tandem.Instruction.Target
import Tandem.Listing
import Tandem.Machine.Basic
import Tandem.Machine.Execute
import Tandem.Machine.Printer
import Tandem.Machine.Progress
import Tandem.Machine.Sequential
import Tandem.Machine.Trace
import Tandem.Proofs.Iteration
import Tandem.Proofs.Respects
import Tandem.Proofs.Stack.Cells
import Tandem.Proofs.Stack.Simulation
import Tandem.Sample
import Tandem.Stack.Basic
import Tandem.Stack.Frame
import Tandem.Text.Column
import Tandem.Text.Duration
import Tandem.Text.Numeral
import Tandem.Threaded.Code
import Tandem.Threaded.Dispatch
import Tandem.Threaded.Linking
import Tandem.Value
import Tandem.Main
import Tandem.Proofs.Machine.Similar
import Tandem.Proofs.Threaded.Table
import Tandem.Proofs.Instruction.Extent
import Tandem.Proofs.Threaded.Faithful
import Tandem.Proofs.Stack.Unwinding
import Tandem.Proofs.Machine.Completed
import Tandem.Proofs.Machine.Prepare
import Tandem.Proofs.Stack.Words
import Tandem.Proofs.Machine.Sequential
import Tandem.Proofs.Threaded.Dispatch
import Tandem.Proofs.Threaded.Agreement
import Tandem.Proofs.Machine.Twins
import Tandem.Proofs.Threaded.Twins
import Tandem.Proofs.Mirror
import Tandem.Proofs.Engine.History
import Tandem.Proofs.Machine.Calls
import Tandem.Proofs.Machine.Faults
import Tandem.Proofs.Threaded.Headers
import Tandem.Proofs.Engine.Agreement
import Tandem.Proofs.Machine.Accounts
import Tandem.Proofs.Machine.Returns
import Tandem.Proofs.Machine.Flows
import Tandem.Proofs.Threaded.Nesting
import Tandem.Proofs.Threaded.Integrity
import Tandem.Proofs.Machine.Discipline
import Tandem.Proofs.Threaded.Overflow
import Tandem.Proofs.Balance
import Tandem.Proofs.Threaded.Chart
import Tandem.Proofs.Stack.Reference
import Tandem.Proofs.Machine.Failed
import Tandem.Proofs.Machine.Remains
import Tandem.Proofs.Machine.Transfers
import Tandem.Proofs.Capacity
import Tandem.Proofs.Context
import Tandem.Proofs.Engine.Capacity
import Tandem.Proofs.Instruction.Inverse
import Tandem.Proofs.Machine.Latch
import Tandem.Proofs.Boundary
import Tandem.Proofs.Ending
import Tandem.Proofs.Ledger
import Tandem.Proofs.Fusion
import Tandem.Proofs.Stack.Contracts
import Tandem.Proofs.Machine.Contracts
import Tandem.Proofs.Engine.Settings
import Tandem.Proofs.Engine.Halting
import Tandem.Proofs.Sample.Basic
import Tandem.Proofs.Sample.Fibonacci
import Tandem.Proofs.Sample.Countdown
import Tandem.Proofs.CommandLine.Session
import Tandem.Proofs.Stack.Frames
import Tandem.Proofs.Text.Numeral
import Tandem.Proofs.Instruction.Printer
import Tandem.Proofs.Listing.Sweep
import Tandem.Proofs.Listing.Text
import Tandem.Proofs.Listing.Tiling
import Tandem.Proofs.Extension
import Tandem.Proofs.Threaded.Extension
import Tandem.Proofs.Engine.Extension
