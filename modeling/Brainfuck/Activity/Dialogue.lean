import Brainfuck.Highlight
import Brainfuck.Activity

/-! The command and its user at a terminal.  The user answers each question with an entry, and with
the end of input when there is none left. -/

namespace Brainfuck

/-- What a user does when asked. -/
inductive Entry
  /-- Types a line. -/
  | text (line : String)
  /-- Presses the interrupt key. -/
  | interrupt
  deriving DecidableEq, Repr

/-- Where a user is asked. -/
inductive Place
  /-- At the line editor, with the texts to the left and to the right of the line. -/
  | editor (left right : String)
  /-- For the input of a program. -/
  | input
  deriving DecidableEq, Repr

/-- A question and its answer. -/
structure Exchange where
  place : Place
  /-- The line as the editor shows it. -/
  painted : Option String
  /-- What is written from the answer to the next question. -/
  shown : String
  deriving DecidableEq, Repr

structure Dialogue where
  /-- What is written before the first question. -/
  startup : String
  exchanges : List Exchange
  status : ExitStatus
  /-- The number of entries not made. -/
  untyped : Nat
  deriving DecidableEq, Repr

namespace Dialogue

def reply : Option Entry → Reply
  | some (.text line) => .line (Text.Line.ofString (line ++ "\n"))
  | some .interrupt => .interrupt
  | none => .line []

def place : Activity → Place
  | .prompting _ session => .editor session.promptTexts.1 session.promptTexts.2
  | _ => .input

/-- The line as it shows at a place. -/
def painted : Place → Option Entry → Option String
  | .editor .., some (.text line) => some (highlight line)
  | _, _ => none

/-- Executes until the activity waits or has ended, after `written`. -/
def settle (host : Host) : (fuel : Nat) → Activity × Array Piece →
    Option (Activity × Array Piece)
  | 0, (activity, written) => if activity.isExecuting then none else some (activity, written)
  | fuel + 1, (activity, written) =>
    if activity.isExecuting then
      let (activity, pieces) := activity.step host
      settle host fuel (activity, written ++ pieces)
    else some (activity, written)

/-- Lets the user answer until the activity has ended, at most `rounds` times. -/
def converse (host : Host) (fuel : Nat) : (rounds : Nat) → Activity → List Entry →
    Option (List Exchange × ExitStatus × Nat)
  | 0, activity, entries => activity.status?.map fun status => ([], status, entries.length)
  | rounds + 1, activity, entries =>
    match activity.status? with
    | some status => some ([], status, entries.length)
    | none => do
      let entry := entries.head?
      let (next, pieces) := activity.reply host (reply entry)
      let (next, written) ← settle host fuel (next, pieces.toArray)
      let place := place activity
      let (exchanges, ending) ← converse host fuel rounds next entries.tail
      return (⟨place, painted place entry, Piece.shown written⟩ :: exchanges, ending)

/-- The dialogue that follows a first move. -/
def follow (host : Host) (fuel : Nat) (start : Move) (entries : List Entry) :
    Option Dialogue := do
  let (activity, written) ← settle host fuel (start.1, start.2.toArray)
  let (exchanges, status, untyped) ← converse host fuel fuel activity entries
  return { startup := Piece.shown written, exchanges, status, untyped }

end Dialogue
end Brainfuck
