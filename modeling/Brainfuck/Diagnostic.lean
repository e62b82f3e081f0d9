import Brainfuck.Program
import Brainfuck.Fault
import Brainfuck.Text.Blank

/-! The report of a fault in a run: what failed, where in the program it stood, and what the program
had written by then. -/

namespace Brainfuck

structure Diagnostic where
  position : Nat
  window : String
  output : String
  fault : Fault
  deriving DecidableEq, Repr

namespace Diagnostic

/-- The number of characters shown before the position; as many are shown from it on. -/
def margin : Nat := 14

def blanks (count : Nat) : List Char := List.replicate count ' '

/-- The program around a position, with blanks where it has no characters, so that the position
falls in the column that `margin` gives.  Each white-space character shows as a blank. -/
def windowChars (program : Program) (position : Nat) : List Char :=
  let start := position - margin
  let stop := min (position + margin) program.size
  blanks (margin - (position - start)) ++
    ((program.extract (min start stop) stop).toList.map fun c =>
      if Text.isBlank c then ' ' else c) ++
    blanks (position + margin - max stop position)

def of (program : Program) (position : Nat) (output : String) (fault : Fault) : Diagnostic where
  position
  window := String.ofList (windowChars program position)
  output
  fault

def message (diagnostic : Diagnostic) : String := diagnostic.fault.message

/-- The four lines of the report, without a line feed after the last. -/
def display (diagnostic : Diagnostic) : String :=
  s!"{diagnostic.window}\n" ++
  s!"Error at      ^      char index {diagnostic.position}\n" ++
  s!"  message: {diagnostic.message}\n" ++
  s!"   output: {diagnostic.output}"

end Diagnostic
end Brainfuck
