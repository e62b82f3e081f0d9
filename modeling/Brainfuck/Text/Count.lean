/-! Counts written in decimal. -/

namespace Brainfuck.Text

/-- The number that a list of digits spells when it follows `value`. -/
def countFrom (value : Nat) : List Char → Option Nat
  | [] => some value
  | c :: rest =>
    if c.isDigit then countFrom (value * 10 + (c.toNat - '0'.toNat)) rest else none

/-- A count of at most 64 bits: one digit or more, after a plus sign or none. -/
def parseCount (text : String) : Option Nat :=
  let digits := match text.toList with
    | '+' :: rest => rest
    | chars => chars
  if digits.isEmpty then none else (countFrom 0 digits).filter (· < UInt64.size)

end Brainfuck.Text
