import Brainfuck.Machine
import Brainfuck.Diagnostic

/-! Runs: a machine driven until it halts, with the answers to its reads taken from a feed.  How
many instructions a run may take is given as fuel, and a run that needs more has no result. -/

namespace Brainfuck

/-- What a read yields: a text, or the reason for which it failed. -/
abbrev Answer := Except String String

/-- Yields one answer after the other, from a state of its own. -/
abbrev Feed (σ : Type) := σ → Answer × σ

/-- The answers of a list in order, and `last` when it is used up. -/
def Feed.ofList (last : Answer) : Feed (List Answer)
  | [] => (last, [])
  | answer :: rest => (answer, rest)

def CellFormat.read (format : CellFormat) : Answer → Except Fault UInt32
  | .ok text => format.decode text
  | .error reason => .error (.unreadable reason)

namespace Machine

variable {σ : Type}

/-- Executes the next instruction, with an answer from the feed if it is a `,`. -/
def advance (feed : Feed σ) : Machine × σ → Machine × σ
  | (machine, source) =>
    if machine.asks then
      match feed source with
      | (answer, source) => (machine.supply (machine.settings.input.read answer), source)
    else (machine.step, source)

/-- Executes at most `fuel` instructions, and yields the machine if it has halted by then. -/
def runFor (feed : Feed σ) : (fuel : Nat) → Machine × σ → Option (Machine × σ)
  | 0, state => if state.1.halted then some state else none
  | fuel + 1, state =>
    if state.1.halted then some state else runFor feed fuel (advance feed state)

variable {feed : Feed σ} {state state' : Machine × σ} {fuel : Nat}

theorem advance_of_halted (halted : state.1.halted) : advance feed state = state := by
  simp [advance, not_asks_of_halted halted, step_of_halted halted]

@[simp] theorem program_advance : (advance feed state).1.program = state.1.program := by
  unfold advance
  split
  split <;> simp

@[simp] theorem settings_advance : (advance feed state).1.settings = state.1.settings := by
  unfold advance
  split
  split <;> simp

theorem runFor_of_halted (halted : state.1.halted) : runFor feed fuel state = some state := by
  cases fuel <;> simp [runFor, halted]

/-- An instruction executed first is one unit of fuel less for the rest. -/
theorem runFor_succ : runFor feed (fuel + 1) state = runFor feed fuel (advance feed state) := by
  rw [runFor]
  split
  next halted => rw [advance_of_halted halted, runFor_of_halted halted]
  · rfl

theorem runFor_of_le {more : Nat} (ended : runFor feed fuel state = some state')
    (le : fuel ≤ more) : runFor feed more state = some state' := by
  induction fuel generalizing state more with
  | zero =>
    simp only [runFor, Option.ite_none_right_eq_some, Option.some.injEq] at ended
    rw [runFor_of_halted ended.1, ended.2]
  | succ fuel ih =>
    obtain ⟨more, rfl⟩ := Nat.exists_eq_add_of_lt (Nat.lt_of_succ_le le)
    rw [runFor_succ] at ended ⊢
    exact ih ended (Nat.le_add_right ..)

/-- The fuel decides whether a run ends, but not how. -/
theorem runFor_unique {fuel' : Nat} {state'' : Machine × σ}
    (ended : runFor feed fuel state = some state')
    (ended' : runFor feed fuel' state = some state'') : state' = state'' := by
  have more := runFor_of_le ended (Nat.le_max_left fuel fuel')
  have more' := runFor_of_le ended' (Nat.le_max_right fuel fuel')
  exact Option.some.inj (more.symm.trans more')

/-- Runs the program from its start, whatever the machine has done before. -/
def runAgain (feed : Feed σ) (fuel : Nat) : Machine × σ → Option (Machine × σ)
  | (machine, source) => runFor feed fuel (machine.rewind, source)

/-- What a halted machine has to show: all it wrote, or the report of its fault. -/
def result (machine : Machine) : Except Diagnostic String :=
  match machine.fault with
  | none => .ok machine.output
  | some fault =>
    .error (Diagnostic.of machine.program machine.position machine.output fault)

end Machine

inductive RunError
  | configuration (fault : Fault)
  | execution (diagnostic : Diagnostic)
  deriving DecidableEq, Repr

namespace RunError

def message : RunError → String
  | configuration fault => fault.message
  | execution diagnostic => diagnostic.display

def header : RunError → String
  | configuration fault => s!"Configuration error: {fault.message}"
  | execution diagnostic =>
    s!"Runtime error at char index {diagnostic.position}: {diagnostic.message}"

end RunError

/-- Runs a program once, and yields all it wrote. -/
def run {σ : Type} (allocator : Allocator) (fuel : Nat) (program : Program) (settings : Settings)
    (feed : Feed σ) (source : σ) : Option (Except RunError String) :=
  match Machine.create allocator program settings with
  | .error fault => some (.error (.configuration fault))
  | .ok machine =>
    (Machine.runFor feed fuel (machine, source)).map fun (halted, _) =>
      halted.result.mapError RunError.execution

end Brainfuck
