import Brainfuck.Settings
import Brainfuck.Text.Count

/-! The command line.  Each subcommand has a grammar, which is the list of its options and whether
it takes words of code.  An option is given once at most, by its long name or its letter; letters
can share one argument.  Code starts at the first argument that is no option and runs to the end. -/

namespace Brainfuck

inductive CommandOption
  | help
  | classic
  | strict
  | numericInput
  | numericOutput
  | memory
  | file
  | bare
  | editor
  deriving DecidableEq, Repr

namespace CommandOption

def long : CommandOption → String
  | help => "help"
  | classic => "classic"
  | strict => "strict"
  | numericInput => "numin"
  | numericOutput => "numout"
  | memory => "memory"
  | file => "file"
  | bare => "bare"
  | editor => "editor"

def letter? : CommandOption → Option Char
  | help => some 'h'
  | classic => some 'c'
  | strict => some 's'
  | memory => some 'm'
  | file => some 'f'
  | _ => none

def takesValue : CommandOption → Bool
  | memory | file => true
  | _ => false

def conflicts : CommandOption → CommandOption → Bool
  | classic, strict | strict, classic | bare, editor | editor, bare => true
  | _, _ => false

end CommandOption

structure Grammar where
  options : List CommandOption
  takesWords : Bool

/-- An option given, with its value if it takes one. -/
structure Given where
  option : CommandOption
  value : String := ""
  deriving DecidableEq, Repr

/-- What one argument is to a grammar. -/
inductive Argument
  /-- Options, complete. -/
  | options (given : List Given)
  /-- Options, of which the last has its value in the next argument. -/
  | expects (given : List Given) (last : CommandOption)
  | word
  | unknown

def Argument.isWord : Argument → Bool
  | word => true
  | _ => false

namespace Grammar

def ofLong? (grammar : Grammar) (name : String) : Option CommandOption :=
  grammar.options.find? fun option => option.long == name

def ofLetter? (grammar : Grammar) (letter : Char) : Option CommandOption :=
  grammar.options.find? fun option => option.letter? == some letter

/-- A long option, whose value may follow an equals sign. -/
def classifyLong (grammar : Grammar) (text : List Char) : Argument :=
  match grammar.ofLong? (String.ofList (text.takeWhile (· != '='))) with
  | none => if grammar.takesWords then .word else .unknown
  | some option =>
    match text.dropWhile (· != '=') with
    | [] => if option.takesValue then .expects [] option else .options [⟨option, ""⟩]
    | _ :: value =>
      if option.takesValue then .options [⟨option, String.ofList value⟩] else .unknown

/-- Letters of options, after `given`; what follows the letter of an option with a value is the
value. -/
def classifyLetters (grammar : Grammar) (given : List Given) : List Char → Argument
  | [] => .options given
  | letter :: rest =>
    match grammar.ofLetter? letter with
    | none => .unknown
    | some option =>
      if option.takesValue then
        match rest with
        | [] => .expects given option
        | '=' :: value => .options (given ++ [⟨option, String.ofList value⟩])
        | value => .options (given ++ [⟨option, String.ofList value⟩])
      else grammar.classifyLetters (given ++ [⟨option, ""⟩]) rest

def classify (grammar : Grammar) (argument : String) : Argument :=
  match argument.toList with
  | '-' :: '-' :: text => grammar.classifyLong text
  | '-' :: letter :: letters =>
    if grammar.takesWords && (letter :: letters).any fun c => (grammar.ofLetter? c).isNone then
      .word
    else grammar.classifyLetters [] (letter :: letters)
  | _ => if grammar.takesWords then .word else .unknown

/-- Whether an argument can be the value of the option before it.  Behind a hyphen it must be what
would be a word in place of an option; a hyphen alone is a value like any other. -/
def isValue (grammar : Grammar) (argument : String) : Bool :=
  match argument.toList with
  | ['-', '-'] => false
  | '-' :: _ :: _ => (grammar.classify argument).isWord
  | _ => true

/-- The options given by a list of arguments, and the words after them. -/
def parse (grammar : Grammar) : List String → Option (List Given × List String)
  | [] => some ([], [])
  | "--" :: words => if grammar.takesWords || words.isEmpty then some ([], words) else none
  | argument :: rest =>
    match grammar.classify argument, rest with
    | .options given, rest => (grammar.parse rest).map fun (more, words) => (given ++ more, words)
    | .expects given last, value :: rest =>
      if grammar.isValue value then
        (grammar.parse rest).map fun (more, words) => (given ++ ⟨last, value⟩ :: more, words)
      else none
    | .expects _ _, [] => none
    | .word, rest => some ([], argument :: rest)
    | .unknown, _ => none

end Grammar

/-- Options given, none twice and no two that exclude each other. -/
def Given.compatible : List Given → Bool
  | [] => true
  | first :: rest =>
    (rest.all fun given =>
      given.option != first.option && !given.option.conflicts first.option) && compatible rest

def Given.has (given : List Given) (option : CommandOption) : Bool :=
  given.any fun entry => entry.option == option

def Given.value? (given : List Given) (option : CommandOption) : Option String :=
  (given.find? fun entry => entry.option == option).map (·.value)

/-- The choices that options make, unless the tape length given is no count. -/
def Given.overrides? (given : List Given) : Option Overrides :=
  let choices : Overrides :=
    { classic := Given.has given .classic
      strict := Given.has given .strict
      numericInput := Given.has given .numericInput
      numericOutput := Given.has given .numericOutput }
  match Given.value? given .memory with
  | none => some choices
  | some text => (Text.parseCount text).map fun count => { choices with memory := some count }

inductive PromptMode
  /-- Lines are read as they come. -/
  | bare
  /-- Lines are typed at a line editor. -/
  | editor
  deriving DecidableEq, Repr

inductive Command
  | usage
  | run (help : Bool) (file : Option String) (code : List String) (overrides : Overrides)
  | repl (help : Bool) (mode : Option PromptMode) (overrides : Overrides)
  deriving DecidableEq, Repr

namespace Command

def topGrammar : Grammar := ⟨[.help], false⟩

def runGrammar : Grammar :=
  ⟨[.file, .classic, .strict, .numericInput, .numericOutput, .memory, .help], true⟩

def replGrammar : Grammar :=
  ⟨[.bare, .editor, .classic, .strict, .numericInput, .numericOutput, .memory, .help], false⟩

/-- The options before a subcommand, the subcommand, and the arguments after it. -/
def splitAtSubcommand (arguments : List String) : List String × List String :=
  arguments.span fun argument => argument != "run" && argument != "repl"

def parseRun (arguments : List String) : Option Command := do
  let (given, code) ← runGrammar.parse arguments
  if !Given.compatible given then none else
  return .run (Given.has given .help) (Given.value? given .file) code (← Given.overrides? given)

def parseRepl (arguments : List String) : Option Command := do
  let (given, _) ← replGrammar.parse arguments
  if !Given.compatible given then none else
  let mode :=
    if Given.has given .bare then some .bare
    else if Given.has given .editor then some .editor
    else none
  return .repl (Given.has given .help) mode (← Given.overrides? given)

/-- The command that arguments give, if they follow the grammars.  Without a subcommand it is the
prompt, and a request for help before a subcommand outranks it. -/
def parse (arguments : List String) : Option Command := do
  let (before, after) := splitAtSubcommand arguments
  let (given, _) ← topGrammar.parse before
  if !Given.compatible given then none else
  let command ← match after with
    | [] => some (.repl false none {})
    | subcommand :: rest =>
      if before.contains "--" then none
      else if subcommand = "run" then parseRun rest else parseRepl rest
  return if Given.has given .help then .usage else command

end Command
end Brainfuck
