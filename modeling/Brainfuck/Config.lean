import Brainfuck.Settings
import Brainfuck.Text.Blank
import Brainfuck.Text.Count

/-! The configuration file.  Its section `[defaults]` assigns values to keys, one assignment a line;
the last assignment to a key counts, even where its value cannot be used. -/

namespace Brainfuck.Config

open Text

structure Assignment where
  key : String
  value : String
  deriving DecidableEq, Repr

/-- The name of the section that a line without outer blanks opens. -/
def heading? : List Char → Option (List Char)
  | '[' :: rest => if rest.getLast? = some ']' then some rest.dropLast else none
  | _ => none

def unquote : List Char → List Char
  | '"' :: rest => if rest.getLast? = some '"' then rest.dropLast else '"' :: rest
  | value => value

/-- The assignment on a line, whose key ends before the first equals sign. -/
def assignment? (line : List Char) : Option Assignment :=
  match line.dropWhile (· != '=') with
  | [] => none
  | _ :: value => some {
      key := String.ofList (trimChars (line.takeWhile (· != '=')))
      value := String.ofList (unquote (trimChars value)) }

/-- The assignments on lines in the section `[defaults]`, in order. -/
def assignmentsFrom (inDefaults : Bool) : List (List Char) → List Assignment
  | [] => []
  | line :: rest =>
    let line := trimChars line
    if line.isEmpty || line.head? == some '#' then assignmentsFrom inDefaults rest else
    match heading? line with
    | some name => assignmentsFrom (name == "defaults".toList) rest
    | none =>
      if inDefaults then (assignment? line).toList ++ assignmentsFrom inDefaults rest
      else assignmentsFrom inDefaults rest

def assignments (content : String) : List Assignment :=
  assignmentsFrom false (content.toList.splitOn '\n')

def lastWins : List Assignment → List Assignment
  | [] => []
  | first :: rest =>
    if rest.any (·.key == first.key) then lastWins rest else first :: lastWins rest

/-- A truth value, in any of its spellings and in letters of either case. -/
def parseBool (value : String) : Option Bool :=
  let word := String.ofList ((trimChars value.toList).map Char.toLower)
  if word ∈ ["true", "yes", "on", "1"] then some true
  else if word ∈ ["false", "no", "off", "0"] then some false
  else none

/-- The settings with one assignment carried out, unless its key is unknown or its value of no
use. -/
def assign? (settings : Settings) (assignment : Assignment) : Option Settings :=
  let value := assignment.value
  match assignment.key with
  | "classic" => (parseBool value).map fun classic =>
      { settings with policy := .ofClassic classic }
  | "numeric_input" => (parseBool value).map fun numeric =>
      { settings with input := .ofNumeric numeric }
  | "numeric_output" => (parseBool value).map fun numeric =>
      { settings with output := .ofNumeric numeric }
  | "memory" => ((parseCount value).filter (1 ≤ ·)).map fun tapeLength =>
      { settings with tapeLength }
  | _ => none

/-- The settings of a file, which are the built-in ones wherever it says nothing of use. -/
def settings (content : String) : Settings :=
  (lastWins (assignments content)).foldl
    (fun settings assignment => (assign? settings assignment).getD settings) {}

/-- The assignments that count but are of no use, in the order of their keys. -/
def ignored (content : String) : List Assignment :=
  ((lastWins (assignments content)).filter fun assignment =>
    (assign? {} assignment).isNone).mergeSort fun first second => first.key ≤ second.key

/-- The order in which assignments come up. -/
structure Order where
  arrange : List Assignment → List Assignment
  perm : ∀ assignments, (arrange assignments).Perm assignments

def Order.byKey : Order := ⟨id, fun _ => .refl _⟩

end Brainfuck.Config
