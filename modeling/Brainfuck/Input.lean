import Brainfuck.Run
import Brainfuck.Text.Line

/-! Reading for `,` from lines.  One line answers a read; a user at a terminal is prompted for it
and asked again until a line can be decoded or input ends. -/

namespace Brainfuck.Input

open Text

def prompt : CellFormat → String
  | .character => "Please provide a single character for ',' input:\n"
  | .numeric => "Please provide a 1 or 2-digit number for ',' input:\n"

/-- The prompt, or nothing where nobody would see it. -/
def invitation (format : CellFormat) (interactive : Bool) : String :=
  if interactive then prompt format else ""

def answer (line : Line) : Answer :=
  match line.text? with
  | some text => .ok (chomp text)
  | none => .error Line.notText

inductive Verdict
  /-- The line ends the read, with a value or a fault. -/
  | final (value : Except Fault UInt32)
  /-- The user is told so and asked for another line. -/
  | rejected (notice : String)

/-- The faults for which a user may try again. -/
def isMistake : Fault → Bool
  | .inputLength _ => true
  | .notDigits => true
  | _ => false

/-- Judges a line; the end of input is always final. -/
def judge (format : CellFormat) (interactive : Bool) (line : Line) : Verdict :=
  match format.read (answer line) with
  | .ok value => .final (.ok value)
  | .error fault =>
    if isMistake fault && interactive && !line.isEmpty then
      .rejected s!"{fault.message}. Please try again.\n"
    else .final (.error fault)

structure Reading where
  value : Except Fault UInt32
  /-- All that was written to the user meanwhile. -/
  prompted : String
  rest : List Line

/-- Reads a value from lines, after `prompted` was written. -/
def readAfter (format : CellFormat) (interactive : Bool) (prompted : String) :
    List Line → Reading
  | [] => ⟨format.read (answer []), prompted ++ invitation format interactive, []⟩
  | line :: rest =>
    let prompted := prompted ++ invitation format interactive
    match judge format interactive line with
    | .final value => ⟨value, prompted, rest⟩
    | .rejected notice => readAfter format interactive (prompted ++ notice) rest

def read (format : CellFormat) (interactive : Bool) (lines : List Line) : Reading :=
  readAfter format interactive "" lines

/-- Answers each read with the next line, and with the empty text when none is left. -/
def feed : Feed (List Line)
  | [] => (answer [], [])
  | line :: rest => (answer line, rest)

end Brainfuck.Input
