import Brainfuck.Settings
import Brainfuck.Text.Blank

/-! A session at the prompt: what each line asks for, the settings that lines change, and the
program that is gathered while lines are pasted. -/

namespace Brainfuck

open Text

/-- What a line that begins with a colon can ask for. -/
inductive Directive
  | paste
  | togglePolicy
  | toggleInput
  | toggleOutput
  | help
  | quit
  deriving DecidableEq, Repr

def Directive.ofString? : String → Option Directive
  | ":paste" => some paste
  | ":mode" => some togglePolicy
  | ":numin" => some toggleInput
  | ":numout" => some toggleOutput
  | ":help" => some help
  | ":quit" => some quit
  | ":exit" => some quit
  | _ => none

inductive Action
  | run (code : String)
  | message (text : String)
  | quit
  | nothing
  deriving DecidableEq, Repr

/-- The lines pasted so far, and how many blank ones they end with. -/
structure Paste where
  code : String := ""
  blankRun : Nat := 0
  deriving DecidableEq, Repr

structure Session where
  settings : Settings
  paste : Option Paste := none
  deriving DecidableEq, Repr

namespace Session

def help : String :=
  "Enter single-line code to run it, or:\n" ++
  "  :paste    paste multi-line code; two blank lines in a row run it\n" ++
  "  :mode     toggle classic / default interpretation mode\n" ++
  "  :numin    toggle numeric input mode\n" ++
  "  :numout   toggle numeric output mode\n" ++
  "  :help     show this help\n" ++
  "  :quit     quit (Ctrl+C also quits)"

def pasteNotice : String :=
  "Entering multiline input mode.\nEnter two blank lines in a row to interpret."

/-- What a line editor shows to the left and to the right of the line. -/
def promptTexts (session : Session) : String × String :=
  if session.paste.isSome then ("", "")
  else
    let settings := session.settings
    ("🧠", s!"{settings.policy.name} {settings.input.name}/{settings.output.name}")

def obey (session : Session) : Directive → Action × Session
  | .paste => (.message pasteNotice, { session with paste := some {} })
  | .togglePolicy =>
    let policy := session.settings.policy.toggle
    (.message s!"Changed interpretation mode to '{policy.name}'",
      { session with settings.policy := policy })
  | .toggleInput =>
    let input := session.settings.input.toggle
    (.message s!"Changed input mode to '{input.name}'", { session with settings.input := input })
  | .toggleOutput =>
    let output := session.settings.output.toggle
    (.message s!"Changed output mode to '{output.name}'",
      { session with settings.output := output })
  | .help => (.message help, session)
  | .quit => (.quit, session)

/-- Takes a line of a paste, which the second of two blank lines ends. -/
def gather (session : Session) (paste : Paste) (line : String) : Action × Session :=
  let blankRun := if allBlank line then paste.blankRun + 1 else 0
  if 2 ≤ blankRun then (.run paste.code, { session with paste := none })
  else (.nothing, { session with paste := some ⟨paste.code ++ line ++ "\n", blankRun⟩ })

/-- Takes a line outside a paste. -/
def interpret (session : Session) (line : String) : Action × Session :=
  let word := trim line
  match Directive.ofString? word with
  | some directive => session.obey directive
  | none =>
    if word.isEmpty then (.nothing, session)
    else if word.toList.head? = some ':' then
      (.message s!"Unknown command {word}; type :help for a list", session)
    else (.run line, session)

/-- Takes a line, with or without its line end. -/
def handle (session : Session) (line : String) : Action × Session :=
  let line := chomp line
  match session.paste with
  | some paste => session.gather paste line
  | none => session.interpret line

/-- Takes the end of input, which ends a paste as two blank lines do. -/
def close (session : Session) : Action × Session :=
  match session.paste with
  | none => (.nothing, session)
  | some _ =>
    match session.handle "" with
    | (.nothing, session) => session.handle ""
    | ended => ended

variable {session : Session} {line : String}

theorem handle_of_paste {paste : Paste} (pasting : session.paste = some paste) :
    session.handle line = session.gather paste (chomp line) := by
  simp only [handle, pasting]

theorem handle_of_outside (outside : session.paste = none) :
    session.handle line = session.interpret (chomp line) := by
  simp only [handle, outside]

/-- Only directives change a session. -/
theorem interpret_snd : (session.interpret line).2 =
    (Directive.ofString? (trim line)).elim session fun directive => (session.obey directive).2 := by
  simp only [interpret]
  cases Directive.ofString? (trim line) with
  | some directive => rfl
  | none =>
    simp only [Option.elim_none]
    split
    · rfl
    · split <;> rfl

end Session
end Brainfuck
