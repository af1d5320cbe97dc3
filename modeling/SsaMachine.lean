import SsaMachine.CommandLine.Arguments
import SsaMachine.CommandLine.Response
import SsaMachine.Constant.Basic
import SsaMachine.Constant.Materialize
import SsaMachine.Decimal.Binary
import SsaMachine.Decimal.Layout
import SsaMachine.Decimal.Reading
import SsaMachine.Decimal.Shortest
import SsaMachine.Draft.Body
import SsaMachine.Draft.Program
import SsaMachine.Engine.Basic
import SsaMachine.Engine.Entry
import SsaMachine.Fault
import SsaMachine.Id
import SsaMachine.Log.Basic
import SsaMachine.Log.Directive
import SsaMachine.Log.Level
import SsaMachine.Machine.Execute
import SsaMachine.Machine.Frame
import SsaMachine.Machine.Operand
import SsaMachine.Machine.Phi
import SsaMachine.Machine.State
import SsaMachine.Machine.Step
import SsaMachine.Main
import SsaMachine.Memory.Cells
import SsaMachine.Memory.Globals
import SsaMachine.Native.Basic
import SsaMachine.Native.Registry
import SsaMachine.Native.Sink
import SsaMachine.Operator.Basic
import SsaMachine.Operator.Eval
import SsaMachine.Pattern.Basic
import SsaMachine.Pattern.Bracket
import SsaMachine.Pattern.Options
import SsaMachine.Pattern.Reading
import SsaMachine.Pattern.Symbol
import SsaMachine.Pattern.Usable
import SsaMachine.Program.Basic
import SsaMachine.Program.Defect
import SsaMachine.Program.Instr
import SsaMachine.Program.Verify
import SsaMachine.Sample
import SsaMachine.Text.Alphabetic
import SsaMachine.Text.Blank
import SsaMachine.Text.ControlSequence
import SsaMachine.Text.Extender
import SsaMachine.Text.Numeric
import SsaMachine.Text.Quoted
import SsaMachine.Text.Unprintable
import SsaMachine.Ty
import SsaMachine.Value.Basic
import SsaMachine.Value.FloatNum
import SsaMachine.Value.Text
import SsaMachine.Word.Basic
import SsaMachine.Word.IntType
import SsaMachine.Proofs.Instruction
import SsaMachine.Proofs.Life
import SsaMachine.Proofs.Blame
import SsaMachine.Proofs.Session
import SsaMachine.Proofs.Soundness
import SsaMachine.Proofs.Dominance
import SsaMachine.Proofs.GlobalStore
import SsaMachine.Proofs.Location
import SsaMachine.Proofs.Drafting
import SsaMachine.Proofs.Confinement
import SsaMachine.Proofs.Isolation
import SsaMachine.Proofs.Lockstep
import SsaMachine.Proofs.Rewriting
import SsaMachine.Proofs.Purity
import SsaMachine.Proofs.Termination
import SsaMachine.Proofs.ParallelCopy
import SsaMachine.Proofs.SingleAssignment
import SsaMachine.Proofs.Arithmetic
import SsaMachine.Proofs.Literals
import SsaMachine.Proofs.Applicability
import SsaMachine.Proofs.Admission
import SsaMachine.Proofs.RoundTrip
import SsaMachine.Proofs.Fibonacci
import SsaMachine.Proofs.Aliasing
import SsaMachine.Proofs.Transcript
import SsaMachine.Proofs.StringOrder
import SsaMachine.Proofs.Output
import SsaMachine.Proofs.ControlFlow
