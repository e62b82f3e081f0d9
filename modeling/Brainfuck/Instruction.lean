/-! The eight instruction characters of Brainfuck.  Every other character is a comment. -/

namespace Brainfuck

inductive Direction
  | left
  | right
  deriving DecidableEq, Repr

/-- The side of a loop on which a bracket stands. -/
inductive Bracket
  | opening
  | closing
  deriving DecidableEq, Repr

namespace Bracket

/-- The name by which messages call a bracket. -/
def name : Bracket → String
  | opening => "open-brace ["
  | closing => "close-brace ]"

/-- The bracket at the other side of the loop. -/
def partner : Bracket → Bracket
  | opening => closing
  | closing => opening

def ofChar? : Char → Option Bracket
  | '[' => some opening
  | ']' => some closing
  | _ => none

@[simp] theorem partner_partner (bracket : Bracket) : bracket.partner.partner = bracket := by
  cases bracket <;> rfl

end Bracket

inductive Instruction
  | move (direction : Direction)
  | increment
  | decrement
  | write
  | read
  | loop (bracket : Bracket)
  deriving DecidableEq, Repr

/-- The instruction that a character stands for; a comment stands for none. -/
def Instruction.ofChar? : Char → Option Instruction
  | '<' => some (.move .left)
  | '>' => some (.move .right)
  | '+' => some .increment
  | '-' => some .decrement
  | '.' => some .write
  | ',' => some .read
  | '[' => some (.loop .opening)
  | ']' => some (.loop .closing)
  | _ => none

theorem Instruction.ofChar?_eq_loop_iff {c : Char} {bracket : Bracket} :
    Instruction.ofChar? c = some (.loop bracket) ↔ Bracket.ofChar? c = some bracket := by
  unfold Instruction.ofChar? Bracket.ofChar?
  split <;> simp

end Brainfuck
