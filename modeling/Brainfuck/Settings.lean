import Brainfuck.Tape
import Brainfuck.CellFormat

/-! What a user chooses about a run. -/

namespace Brainfuck

structure Settings where
  policy : OverflowPolicy := .strict
  input : CellFormat := .character
  output : CellFormat := .character
  tapeLength : Nat := 1000
  deriving DecidableEq, Repr

/-- Choices that take the place of earlier ones where they are made. -/
structure Overrides where
  classic : Bool := false
  strict : Bool := false
  numericInput : Bool := false
  numericOutput : Bool := false
  memory : Option Nat := none
  deriving DecidableEq, Repr

/-- The settings with the choices made.  Where both policies are chosen the strict one wins. -/
def Overrides.apply (overrides : Overrides) (settings : Settings) : Settings where
  policy :=
    if overrides.strict then .strict else if overrides.classic then .classic else settings.policy
  input := if overrides.numericInput then .numeric else settings.input
  output := if overrides.numericOutput then .numeric else settings.output
  tapeLength := overrides.memory.getD settings.tapeLength

end Brainfuck
