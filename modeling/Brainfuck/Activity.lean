import Brainfuck.Command
import Brainfuck.Config
import Brainfuck.Input
import Brainfuck.Session
import Brainfuck.Style
import Brainfuck.Usage

/-! What the command does, from one moment to the next: it executes a program, waits for a line that
the program reads, waits for a line at the prompt, or has ended.  `step` is a move that it makes by
itself, and `reply` one that a line or an interrupt makes it do.  Every move yields what is written
meanwhile. -/

namespace Brainfuck

open Text

/-- Which of the standard streams are terminals. -/
structure Terminals where
  input : Bool
  error : Bool
  deriving DecidableEq, Repr

/-- Whether a user sees prompts and can answer them. -/
def Terminals.interactive (terminals : Terminals) : Bool := terminals.input && terminals.error

inductive Stream
  | output
  | error
  deriving DecidableEq, Repr

structure Piece where
  stream : Stream
  text : String
  deriving DecidableEq, Repr

/-- What the command has around it as long as it lasts. -/
structure Host where
  /-- The name that the command was called by. -/
  command : String := "brain"
  terminals : Terminals
  /-- The memory that there is for tapes. -/
  allocator : Allocator := .ample

/-- A line in a style, which shows on a terminal alone. -/
def Piece.styled (terminals : Terminals) (style : Style) (text : String) : Piece :=
  ⟨.error, (if terminals.error then style.paint text else text) ++ "\n"⟩

/-- Texts as they show where both streams are one terminal. -/
def Piece.shown (pieces : Array Piece) : String := String.join (pieces.toList.map (·.text))

def Piece.textOf (stream : Stream) (pieces : Array Piece) : String :=
  Piece.shown (pieces.filter (·.stream == stream))

@[simp] theorem Piece.textOf_nil (stream : Stream) : textOf stream #[] = "" := rfl

@[simp] theorem Piece.textOf_cons (stream : Stream) (piece : Piece) (pieces : List Piece) :
    textOf stream (piece :: pieces).toArray =
      (if piece.stream = stream then piece.text else "") ++ textOf stream pieces.toArray := by
  by_cases same : piece.stream = stream <;> simp [textOf, shown, same]

@[simp] theorem Piece.textOf_append (stream : Stream) (pieces : Array Piece) (more : List Piece) :
    textOf stream (pieces ++ more) = textOf stream pieces ++ textOf stream more.toArray := by
  simp [textOf, shown]

inductive ExitStatus
  | code (code : Nat)
  /-- An interrupt that was not handled. -/
  | interrupted
  deriving DecidableEq, Repr

/-- On whose behalf a program runs. -/
inductive Owner
  /-- The program is all there is to do. -/
  | command
  /-- The prompt takes lines again after the program, unless input has ended. -/
  | prompt (mode : PromptMode) (session : Session) (inputEnded : Bool)

inductive Activity
  | executing (machine : Machine) (owner : Owner)
  /-- The program waits for a line for its `,`. -/
  | reading (machine : Machine) (owner : Owner)
  /-- The prompt waits for a line. -/
  | prompting (mode : PromptMode) (session : Session)
  | ended (status : ExitStatus)

inductive Reply
  | line (line : Line)
  | interrupt

/-- The activity after a move, and what was written meanwhile. -/
abbrev Move := Activity × List Piece

namespace Activity

def exit (code : Nat) : Activity := .ended (.code code)

def isExecuting : Activity → Bool
  | executing .. => true
  | _ => false

def status? : Activity → Option ExitStatus
  | ended status => some status
  | _ => none

/-- The report of an error; at the prompt it goes without the name of the command. -/
def report (host : Host) (owner : Owner) (error : RunError) : List Piece :=
  let header := match owner with
    | .command => s!"{host.command}: {error.header}"
    | .prompt .. => error.header
  let details := match error with
    | .configuration _ => []
    | .execution diagnostic => [⟨.error, diagnostic.display ++ "\n"⟩]
  Piece.styled host.terminals .error header :: details

def afterProgram (failed : Bool) : Owner → Activity
  | .command => exit (if failed then 1 else 0)
  | .prompt _ _ true => exit 0
  | .prompt mode session false => .prompting mode session

/-- Ends the output of a program with a line feed and reports its error. -/
def finish (host : Host) (owner : Owner) (error : Option RunError) : Move :=
  (afterProgram error.isSome owner,
    ⟨.output, "\n"⟩ :: (error.map (report host owner)).getD [])

def execute (host : Host) (owner : Owner) (settings : Settings) (code : String) : Move :=
  match Machine.create host.allocator (Program.ofString code) settings with
  | .ok machine => (.executing machine owner, [])
  | .error fault => finish host owner (some (.configuration fault))

/-- Executes one instruction; a program that asks for a line or has halted stops executing. -/
def step (host : Host) : Activity → Move
  | executing machine owner =>
    if machine.halted then
      match machine.result with
      | .ok _ => finish host owner none
      | .error diagnostic => finish host owner (some (.execution diagnostic))
    else if machine.asks then
      let invitation := Input.invitation machine.settings.input host.terminals.interactive
      (.reading machine owner, [⟨.error, invitation⟩])
    else
      let count := machine.log.fragments.size
      let machine := machine.step
      let fragments := machine.log.fragments.extract count
      (.executing machine owner, fragments.toList.map fun text => ⟨.output, text⟩)
  | activity => (activity, [])

def obey (host : Host) (mode : PromptMode) (inputEnded : Bool) : Action × Session → Move
  | (.run code, session) =>
    execute host (.prompt mode session inputEnded) session.settings code
  | (.message text, session) =>
    (afterProgram false (.prompt mode session inputEnded),
      if mode = .editor ∨ host.terminals.error then [Piece.styled host.terminals .notice text]
      else [])
  | (.quit, _) => (exit 0, [])
  | (.nothing, session) => (afterProgram false (.prompt mode session inputEnded), [])

/-- Takes a line at the prompt.  The end of input closes the session; at the editor it leaves a
paste in progress unused. -/
def takeLine (host : Host) (mode : PromptMode) (session : Session) (line : Line) : Move :=
  match line, mode with
  | [], .editor => (exit 0, [⟨.output, "\n"⟩])
  | [], .bare => obey host mode true session.close
  | line, mode =>
    match line.text? with
    | some text => obey host mode false (session.handle text)
    | none => (exit 1, [⟨.error, s!"{host.command}: REPL error: {Line.notText}\n"⟩])

def takeReply (host : Host) : Activity → Line → Move
  | reading machine owner, line =>
    let format := machine.settings.input
    let interactive := host.terminals.interactive
    match Input.judge format interactive line with
    | .final value => (.executing (machine.supply value) owner, [])
    | .rejected notice =>
      (.reading machine owner,
        [⟨.error, notice ++ Input.invitation format interactive⟩])
  | prompting mode session, line => takeLine host mode session line
  | activity, _ => (activity, [])

/-- Ends a wait by an interrupt.  The prompt handles interrupts, also for the programs it runs. -/
def interrupt : Activity → Move
  | prompting .editor _ => (exit 0, [⟨.output, "\n"⟩])
  | prompting .bare _ => (exit 0, [])
  | reading _ (.prompt ..) => (exit 0, [])
  | reading _ .command => (.ended .interrupted, [])
  | activity => (activity, [])

def reply (host : Host) (activity : Activity) : Reply → Move
  | .line line => activity.takeReply host line
  | .interrupt => activity.interrupt

end Activity
end Brainfuck
