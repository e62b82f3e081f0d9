import Brainfuck.Activity.Batch
import Brainfuck.Activity.Dialogue
import Brainfuck.Main
import Brainfuck.Proofs.PartnerTable
import Brainfuck.Proofs.Structured
import Brainfuck.Proofs.Comments
import Brainfuck.Proofs.Failure
import Brainfuck.Proofs.Matched
import Brainfuck.Proofs.Sequence
import Brainfuck.Proofs.Policy
import Brainfuck.Proofs.Memory
import Brainfuck.Proofs.Rerun
import Brainfuck.Proofs.Batch
import Brainfuck.Proofs.Process
import Brainfuck.Proofs.Prompt
import Brainfuck.Proofs.Classic
import Brainfuck.Proofs.Checked
import Brainfuck.Proofs.Output
import Brainfuck.Proofs.Safety
import Brainfuck.Proofs.EndOfInput
import Brainfuck.Proofs.Paste
import Brainfuck.Proofs.Limits
import Brainfuck.Proofs.Ring
import Brainfuck.Proofs.Toggles
import Brainfuck.Proofs.Assignments
import Brainfuck.Proofs.Numeral
import Brainfuck.Proofs.Reading
import Brainfuck.Proofs.Resolution
import Brainfuck.Proofs.Window
import Brainfuck.Proofs.Beyond
import Brainfuck.Proofs.RoundTrip
import Brainfuck.Proofs.Course
import Brainfuck.Proofs.ZeroTest
import Brainfuck.Proofs.Duration
import Brainfuck.Proofs.Answers
import Brainfuck.Proofs.Mirror
import Brainfuck.Proofs.Spans
import Brainfuck.Proofs.Painted
