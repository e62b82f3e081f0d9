import Brainfuck.Instruction

/-! Colours of source text and of messages on a terminal. -/

namespace Brainfuck

structure Colour where
  red : UInt8
  green : UInt8
  blue : UInt8
  deriving DecidableEq, Repr

/-- How text looks; without a colour it looks as the terminal has it. -/
structure Style where
  colour : Option Colour := none
  bold : Bool := false
  deriving DecidableEq, Repr

namespace Style

/-- A text between the escape sequences that set a style and end it. -/
def paint (style : Style) (text : String) : String :=
  let weight := if style.bold then ["1"] else []
  let colour := match style.colour with
    | some ⟨red, green, blue⟩ => [s!"38;2;{red};{green};{blue}"]
    | none => []
  match weight ++ colour with
  | [] => text
  | codes => "\x1b[" ++ ";".intercalate codes ++ "m" ++ text ++ "\x1b[0m"

def comment : Style := ⟨some ⟨108, 112, 134⟩, false⟩
def error : Style := ⟨some ⟨243, 139, 168⟩, true⟩
def notice : Style := ⟨some ⟨127, 132, 156⟩, false⟩

/-- The style of an instruction; the two brackets share one. -/
def ofInstruction : Instruction → Style
  | .move .right => ⟨some ⟨137, 220, 235⟩, true⟩
  | .move .left => ⟨some ⟨148, 226, 213⟩, true⟩
  | .increment => ⟨some ⟨166, 227, 161⟩, true⟩
  | .decrement => ⟨some ⟨243, 139, 168⟩, true⟩
  | .write => ⟨some ⟨249, 226, 175⟩, true⟩
  | .read => ⟨some ⟨250, 179, 135⟩, true⟩
  | .loop _ => ⟨some ⟨203, 166, 247⟩, true⟩

def ofChar (c : Char) : Style :=
  match Instruction.ofChar? c with
  | some instruction => ofInstruction instruction
  | none => comment

end Style
end Brainfuck
