import Brainfuck.Session

/-! The usage texts of the command and of its subcommands, by the name that it was called by. -/

namespace Brainfuck.Usage

/-- What is said of arguments that give no command. -/
def badArguments : String := "<argument parser error>"

def lines (texts : List String) : String := String.join (texts.map (· ++ "\n"))

def top (command : String) : String := lines [
  "Usage:",
  s!"  {command} run  [OPTIONS] \"<code>\"       # Run code once (args are concatenated)",
  s!"  {command} run  [OPTIONS] --file <PATH>  # Run code loaded from a file",
  s!"  {command} repl [OPTIONS]                # Start a REPL (the default with no subcommand)",
  "",
  s!"Run \"{command} <subcommand> --help\" for more info.",
  ""]

def run (command : String) : String := lines [
  "Usage:",
  s!"  {command} run [OPTIONS] \"<code>\"",
  s!"  {command} run [OPTIONS] --file <PATH>",
  "",
  "Options:",
  "  --file,    -f <PATH>   Read code from PATH instead of positional \"<code>\"",
  "  --classic, -c          Wrap the pointer around the tape and cells within 0..=255",
  "  --strict,  -s          Fail on pointer or cell overflow (default)",
  "  --numin                ',' reads a 1 or 2-digit number instead of a character",
  "  --numout               '.' prints the cell as a number instead of a character",
  "  --memory,  -m <CELLS>  Number of tape cells (default 1000)",
  "  --help,    -h          Show this help",
  "",
  "Notes:",
  "- Characters other than ><+-.,[] are comments.",
  "- Input (`,`) reads one line from stdin per read; at a terminal, bad",
  "  input is rejected and asked for again.",
  "- Defaults can be set in brain.toml under [defaults] (see BRAIN_CONFIG).",
  "",
  "Examples:",
  "- Load code from a file:",
  s!"    {command} run --file ./program.bf",
  "- Echo one character:",
  s!"    echo x | {command} run \",.\"",
  ""]

def repl (command : String) : String := lines [
  "Usage:",
  s!"  {command} repl [OPTIONS]",
  "",
  "Options:",
  "  --help,    -h          Show this help",
  "  --bare                 Force non-interactive bare mode",
  "  --editor               Force interactive editor mode (errors if stdin is not a TTY)",
  "  --classic, -c          Start in classic mode",
  "  --strict,  -s          Start in default (strict) mode",
  "  --numin                Start with numeric input",
  "  --numout               Start with numeric output",
  "  --memory,  -m <CELLS>  Number of tape cells for every run (default 1000)",
  "",
  "Description:",
  "  Starts a REPL where you can enter code and execute it live.",
  "",
  "Meta commands (line starts with \":\")",
  Session.help,
  "",
  "Notes:",
  "    - Each execution starts with a fresh tape and pointer.",
  "    - Errors are reported and the REPL keeps going.",
  "    - Mode selection:",
  "        * Flags: --bare|--editor override environment and auto-detection.",
  "        * Env: BRAIN_REPL_MODE=bare|editor overrides auto-detection.",
  "        * Auto-detect: if stdin is a TTY, starts in interactive editor mode; otherwise, bare mode.",
  "        * In bare mode, code is read line by line from stdin and runs until EOF or :quit.",
  ""]

end Brainfuck.Usage
