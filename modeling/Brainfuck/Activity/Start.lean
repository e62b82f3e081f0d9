import Brainfuck.Activity

/-! How the command begins: from its arguments and what it finds around it. -/

namespace Brainfuck

/-- The reason for which a file cannot be read. -/
inductive FileError
  | missing
  | directory
  | notDirectory
  | nameTooLong
  | notText
  | other (reason : String)
  deriving DecidableEq, Repr

def FileError.message : FileError → String
  | missing => "No such file or directory (os error 2)"
  | directory => "Is a directory (os error 21)"
  | notDirectory => "Not a directory (os error 20)"
  | nameTooLong => "File name too long (os error 36)"
  | notText => Text.Line.notText
  | other reason => reason

/-- What the command finds around it. -/
structure Environment where
  host : Host
  /-- The mode of the prompt that the surroundings ask for. -/
  promptMode : Option String := none
  /-- The contents of the configuration file, if there is one. -/
  config : Option (List UInt8) := none
  /-- The order in which the assignments of the configuration file come up. -/
  order : Config.Order := .byKey
  /-- What a warning is logged as: a message and its fields, or nothing where logging is off. -/
  log : (message : String) → (fields : List (String × String)) → String
  /-- The reason for which interrupts cannot be handled, if they cannot. -/
  handlerError : Option String := none
  fileContents : String → Except FileError (List UInt8)

namespace Environment

/-- The text of the configuration file. -/
def configText? (environment : Environment) : Option String :=
  environment.config.bind Text.Line.text?

/-- The settings in force before the command line has its say. -/
def settings (environment : Environment) : Settings :=
  match environment.configText? with
  | some content => Config.settings content
  | none => {}

/-- The assignments of the configuration file that are of no use. -/
def ignored (environment : Environment) : List Config.Assignment :=
  match environment.configText? with
  | some content => Config.ignored content
  | none => []

/-- The warnings that the configuration file gives, one for each assignment of no use. -/
def warnings (environment : Environment) : List Piece :=
  (environment.order.arrange environment.ignored).map fun assignment =>
    ⟨.error, environment.log "ignoring config entry"
      [("key", assignment.key), ("value", assignment.value)]⟩

/-- The text of a file. -/
def readText (environment : Environment) (path : String) : Except FileError String := do
  let bytes ← environment.fileContents path
  match Text.Line.text? bytes with
  | some text => return text
  | none => .error .notText

end Environment

namespace PromptMode

/-- The mode of the prompt.  An option outranks the surroundings, and these outrank the choice by
whether lines come from a terminal.  An editor needs a terminal. -/
def select (choice : Option PromptMode) (environment : Environment) : Except String PromptMode :=
  let editor (advice : String) : Except String PromptMode :=
    if environment.host.terminals.input then .ok .editor
    else .error s!"cannot start editor: stdin is not a TTY (use {advice})"
  match choice, environment.promptMode with
  | some .bare, _ => .ok .bare
  | some .editor, _ => editor "--bare or BRAIN_REPL_MODE=bare"
  | none, some name =>
    let word := String.ofList ((Text.trimChars name.toList).map Char.toLower)
    if word = "bare" then .ok .bare
    else if word = "editor" then editor "BRAIN_REPL_MODE=bare"
    else .error s!"invalid BRAIN_REPL_MODE value: {name}, must be 'bare' or 'editor'"
  | none, none => .ok (if environment.host.terminals.input then .editor else .bare)

end PromptMode

namespace Activity

/-- Ends with a complaint. -/
def refuse (host : Host) (complaint : String) : Move :=
  (exit 1, [⟨.error, s!"{host.command}: {complaint}\n"⟩])

/-- Ends with a usage text. -/
def showUsage (text : String) (code : Nat) : Move := (exit code, [⟨.error, text⟩])

/-- Runs a program with the settings that the configuration file and the command line give. -/
def startProgram (environment : Environment) (overrides : Overrides) (code : String) : Move :=
  let settings := overrides.apply environment.settings
  let (activity, pieces) := execute environment.host .command settings code
  (activity, environment.warnings ++ pieces)

/-- Runs code given as words or as a file, but not as both. -/
def startRun (environment : Environment) (file : Option String) (words : List String)
    (overrides : Overrides) : Move :=
  let command := environment.host.command
  match file, words with
  | none, [] => showUsage (Usage.run command) 2
  | none, words => startProgram environment overrides (String.join words)
  | some path, [] =>
    match environment.readText path with
    | .ok code => startProgram environment overrides code
    | .error error => refuse environment.host s!"failed to read code file as UTF-8: {error.message}"
  | some _, _ :: _ =>
    (exit 2, [
      ⟨.error, s!"{command}: cannot use positional code together with --file\n"⟩,
      ⟨.error, Usage.run command⟩])

/-- Starts the prompt; an editor greets the user. -/
def startPrompt (environment : Environment) (choice : Option PromptMode)
    (overrides : Overrides) : Move :=
  match PromptMode.select choice environment with
  | .error complaint => refuse environment.host complaint
  | .ok mode =>
    match environment.handlerError with
    | some reason => refuse environment.host s!"failed to set ctrl+c handler: {reason}"
    | none =>
      let greeting : List Piece :=
        if mode = .editor ∧ environment.host.terminals.error then
          [⟨.error, s!"\n{Session.help}\n"⟩]
        else []
      (.prompting mode { settings := overrides.apply environment.settings },
        environment.warnings ++ greeting)

def startCommand (environment : Environment) : Command → Move
  | .usage => showUsage (Usage.top environment.host.command) 0
  | .run true _ _ _ => showUsage (Usage.run environment.host.command) 0
  | .run false file words overrides => startRun environment file words overrides
  | .repl true _ _ => showUsage (Usage.repl environment.host.command) 0
  | .repl false choice overrides => startPrompt environment choice overrides

/-- The first move.  Arguments outside the grammars are refused. -/
def start (environment : Environment) (arguments : List String) : Move :=
  match Command.parse arguments with
  | some command => startCommand environment command
  | none => (exit 2, [⟨.error, Usage.badArguments⟩])

end Activity
end Brainfuck
