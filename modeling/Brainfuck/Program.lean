import Brainfuck.Fault

/-! The text of a program, and the search for the partner of a bracket.  The search counts the
loops that are open, starting with the one whose end is sought, and stops where none is left.
Nothing is kept between searches: each jump looks at the text again. -/

namespace Brainfuck

/-- A program is its text; a position in it counts characters. -/
abbrev Program := Array Char

namespace Program

def ofString (text : String) : Program := text.toList.toArray

/-- The position at which the innermost of `depth` open loops ends, among the last `rest`
characters. -/
def seekClosing (program : Program) : (rest depth : Nat) → Option Nat
  | 0, _ => none
  | rest + 1, depth =>
    let position := program.size - (rest + 1)
    match program[position]?.bind Bracket.ofChar? with
    | none => program.seekClosing rest depth
    | some .opening => program.seekClosing rest (depth + 1)
    | some .closing =>
      if depth - 1 = 0 then some position else program.seekClosing rest (depth - 1)

/-- The position at which the innermost of `depth` open loops begins, among the first `stop`
characters, read from right to left. -/
def seekOpening (program : Program) : (stop depth : Nat) → Option Nat
  | 0, _ => none
  | stop + 1, depth =>
    match program[stop]?.bind Bracket.ofChar? with
    | none => program.seekOpening stop depth
    | some .closing => program.seekOpening stop (depth + 1)
    | some .opening =>
      if depth - 1 = 0 then some stop else program.seekOpening stop (depth - 1)

/-- The position of the partner of a bracket at `position`, whatever character stands there. -/
def partner? (program : Program) (position : Nat) : Bracket → Option Nat
  | .opening => program.seekClosing (program.size - (position + 1)) 1
  | .closing => program.seekOpening (min position program.size) 1

/-- `partner?` at a position held in a machine word.  The word after the last one is zero. -/
def partnerAt? (program : Program) (position : UInt64) : Bracket → Option Nat
  | .opening => program.seekClosing (program.size - (position + 1).toNat) 1
  | .closing => program.partner? position.toNat .closing

/-- What a search for the partner of a bracket comes to: finding none is a fault of the bracket. -/
def found (bracket : Bracket) : Option Nat → Except Fault Nat
  | some target => .ok target
  | none => .error (.unmatched bracket)

/-- The position of the bracket to which a jump from `position` leads. -/
def target (program : Program) (position : Nat) (bracket : Bracket) : Except Fault Nat :=
  found bracket (program.partner? position bracket)

/-- `target` at a position held in a machine word. -/
def targetAt (program : Program) (position : UInt64) (bracket : Bracket) : Except Fault Nat :=
  found bracket (program.partnerAt? position bracket)

@[simp] theorem found_eq_ok_iff {bracket : Bracket} {partner : Option Nat} {target : Nat} :
    found bracket partner = .ok target ↔ partner = some target := by
  cases partner <;> simp [found]

@[simp] theorem found_eq_error_iff {bracket : Bracket} {partner : Option Nat} {fault : Fault} :
    found bracket partner = .error fault ↔ partner = none ∧ fault = .unmatched bracket := by
  cases partner <;> simp [found, eq_comm]

end Program
end Brainfuck
