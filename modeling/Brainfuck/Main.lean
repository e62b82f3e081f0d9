import Brainfuck.Activity.Start

/-! The command itself.  It looks at its surroundings, makes the moves of its activity, writes what
each of them writes, and reads a line whenever the activity waits for one. -/

namespace Brainfuck.Main

/-- The number of a reason that the operating system gives; opening a file gives it negated. -/
def reasonNumber (code : UInt32) : UInt32 := if code ≤ 0x7FFFFFFF then code else 0 - code

def fileError : IO.Error → FileError
  | .noFileOrDirectory .. => .missing
  | .inappropriateType _ code details =>
    if reasonNumber code = 21 then .directory
    else if reasonNumber code = 20 then .notDirectory
    else .other details
  | .invalidArgument _ code details =>
    if reasonNumber code = 36 then .nameTooLong else .other details
  | error => .other (toString error)

def fileContents (path : String) : IO (Except FileError (List UInt8)) := do
  try
    return .ok (← IO.FS.readBinFile path).toList
  catch error => return .error (fileError error)

/-- Where the configuration file is: at the place that the user names, or else in the directory that
desktop programs keep theirs in. -/
def configPath : IO (Option String) := do
  if let some path ← IO.getEnv "BRAIN_CONFIG" then return some path
  if let some directory ← IO.getEnv "XDG_CONFIG_HOME" then return some s!"{directory}/brain.toml"
  let home ← IO.getEnv "HOME"
  return home.map fun directory => s!"{directory}/.config/brain.toml"

def configContents : IO (Option (List UInt8)) := do
  match ← configPath with
  | none => return none
  | some path => return (← fileContents path).toOption

/-- The line that is logged of a warning, without the time. -/
def warning (message : String) (fields : List (String × String)) : String :=
  s!" WARN {message}" ++ String.join (fields.map fun (name, value) => s!" {name}={value}") ++ "\n"

/-- The file that arguments name, which is read before the activity starts. -/
def fileNamed (arguments : List String) : Option String :=
  match Command.parse arguments with
  | some (.run _ file _ _) => file
  | _ => none

def environment (arguments : List String) : IO Environment := do
  let contents ← match fileNamed arguments with
    | some path => fileContents path
    | none => pure (.error .missing)
  return {
    host := { terminals := ⟨← (← IO.getStdin).isTty, ← (← IO.getStderr).isTty⟩ }
    promptMode := ← IO.getEnv "BRAIN_REPL_MODE"
    config := ← configContents
    log := warning
    fileContents := fun _ => contents }

def write (piece : Piece) : IO Unit := do
  let stream ← match piece.stream with
    | .output => IO.getStdout
    | .error => IO.getStderr
  stream.putStr piece.text
  stream.flush

/-- The next line of a stream, byte by byte, after the bytes of `line` in reverse. -/
partial def readLine (stream : IO.FS.Stream) (line : List UInt8) : IO Text.Line := do
  match (← stream.read 1).toList with
  | [] => return line.reverse
  | byte :: _ =>
    if byte = 10 then return (byte :: line).reverse else readLine stream (byte :: line)

def showPrompt : Activity → IO Unit
  | .prompting .editor session => do
    let (left, right) := session.promptTexts
    write ⟨.error, s!"{left} {right}> "⟩
  | _ => return ()

partial def carryOn (host : Host) (activity : Activity) : IO UInt32 := do
  match activity.status? with
  | some (.code code) => return code.toUInt32
  | some .interrupted => return 130
  | none =>
    let (activity, pieces) ←
      if activity.isExecuting then pure (activity.step host)
      else do
        showPrompt activity
        pure (activity.takeReply host (← readLine (← IO.getStdin) []))
    pieces.forM write
    carryOn host activity

end Brainfuck.Main

def main (arguments : List String) : IO UInt32 := do
  let environment ← Brainfuck.Main.environment arguments
  let (activity, pieces) := Brainfuck.Activity.start environment arguments
  pieces.forM Brainfuck.Main.write
  Brainfuck.Main.carryOn environment.host activity
