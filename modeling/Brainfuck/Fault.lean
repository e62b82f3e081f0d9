import Brainfuck.Instruction

/-! The causes for which a tape cannot be built or an instruction cannot be executed, and the
sentence that reports each. -/

namespace Brainfuck

inductive Fault
  | noCells
  /-- There is no room for a tape of `length` cells. -/
  | tapeTooLong (length : Nat)
  /-- A jump was due at a bracket that has no partner. -/
  | unmatched (bracket : Bracket)
  /-- The pointer would leave the tape past its last cell in that direction, `bound`. -/
  | offTape (direction : Direction) (bound : Nat)
  | cellAtMaximum (index : Nat)
  | cellAtMinimum (index : Nat)
  /-- A cell to be written as a character holds no Unicode scalar value. -/
  | notCharacter (value : UInt32)
  /-- A text that was read has `count` characters, which is not the number expected. -/
  | inputLength (count : Nat)
  | notDigits
  | unreadable (reason : String)
  deriving DecidableEq, Repr

namespace Fault

/-- What the pointer would have done at the end of the tape. -/
def describeMove : Direction → String
  | .left => "decrement memory pointer below minimum"
  | .right => "increment memory pointer above maximum"

/-- The advice given where only the strict policy refuses. -/
def advice : String := "... try setting `classic` to `true`"

def message : Fault → String
  | noCells => "must provide at least 1 cell of memory"
  | tapeTooLong length => s!"cannot allocate {length} cells of memory"
  | unmatched bracket => s!"missing {bracket.partner.name} for this {bracket.name}"
  | offTape direction bound => s!"cannot {describeMove direction} index {bound}{advice}"
  | cellAtMaximum index =>
    s!"cell {index} is already at maximum allowable value, 2^32 - 1{advice}"
  | cellAtMinimum index => s!"cell {index} is already at minimum allowable value, 0{advice}"
  | notCharacter value => s!"cell value {value} is not a valid Unicode scalar value"
  | inputLength count => s!"expected a single character of input, got {count} characters"
  | notDigits => "non-digit characters entered in numeric mode"
  | unreadable reason => s!"failed to read input: {reason}"

end Fault
end Brainfuck
