import Brainfuck.Settings
import Brainfuck.Program

/-! A program in execution.  `step` executes one instruction and `supply` executes a `,`, with what
was read for it; a machine never reads by itself, but `asks` to be supplied.  It halts behind the
last character or at the first fault, which leaves it as it was before the instruction. -/

namespace Brainfuck

/-- What a run has done, as an observer records it. -/
structure Log where
  /-- The texts written, one for each `.` executed. -/
  fragments : Array String := #[]
  /-- The jumps taken, from bracket to partner. -/
  jumps : Array (Nat × Nat) := #[]
  /-- The number of `,` executed, failed ones included. -/
  reads : Nat := 0
  deriving DecidableEq, Repr

structure Machine where
  program : Program
  settings : Settings
  tape : Tape
  /-- The position of the next character to execute. -/
  position : Nat := 0
  output : String := ""
  fault : Option Fault := none
  log : Log := {}

namespace Machine

/-- A machine at the start of a program, unless the settings' tape cannot be built. -/
def create (allocator : Allocator) (program : Program) (settings : Settings) :
    Except Fault Machine := do
  let tape ← Tape.create allocator settings.tapeLength settings.policy
  return { program, settings, tape }

/-- The machine at the start of its program again, whatever it has done. -/
def rewind (machine : Machine) : Machine where
  program := machine.program
  settings := machine.settings
  tape := machine.tape.reset

def instruction? (machine : Machine) : Option Instruction :=
  machine.program[machine.position]?.bind Instruction.ofChar?

def halted (machine : Machine) : Bool :=
  machine.fault.isSome || decide (machine.program.size ≤ machine.position)

/-- Whether the next character is a `,`, which waits to be supplied. -/
def asks (machine : Machine) : Bool :=
  !machine.halted && decide (machine.instruction? = some .read)

@[inline] def next (machine : Machine) : Machine :=
  { machine with position := machine.position + 1 }

@[inline] def fail (machine : Machine) (fault : Fault) : Machine :=
  { machine with fault := some fault }

/-- The machine after an operation on its tape. -/
@[inline] def operated (machine : Machine) : Except Fault Tape → Machine
  | .ok tape => { machine with tape, position := machine.position + 1 }
  | .error fault => machine.fail fault

/-- The machine after a jump, which goes on behind its target. -/
@[inline] def jumped (machine : Machine) : Except Fault Nat → Machine
  | .ok target =>
    { machine with
      position := target + 1
      log.jumps := machine.log.jumps.push (machine.position, target) }
  | .error fault => machine.fail fault

def jump (machine : Machine) (bracket : Bracket) : Machine :=
  machine.jumped (machine.program.target machine.position bracket)

def write (machine : Machine) : Machine :=
  match machine.settings.output.encode machine.tape.current with
  | .error fault => machine.fail fault
  | .ok text =>
    { machine with
      position := machine.position + 1
      output := machine.output ++ text
      log.fragments := machine.log.fragments.push text }

/-- Executes the next character, unless the machine has halted or asks. -/
def step (machine : Machine) : Machine :=
  if machine.halted then machine else
  match machine.instruction? with
  | none => machine.next
  | some .read => machine
  | some .write => machine.write
  | some .increment => machine.operated machine.tape.increment
  | some .decrement => machine.operated machine.tape.decrement
  | some (.move direction) => machine.operated (machine.tape.move direction)
  | some (.loop .opening) =>
    if machine.tape.current = 0 then machine.jump .opening else machine.next
  | some (.loop .closing) =>
    if machine.tape.current = 0 then machine.next else machine.jump .closing

/-- Executes a `,` for which `value` was read. -/
def supply (machine : Machine) (value : Except Fault UInt32) : Machine :=
  let log := { machine.log with reads := machine.log.reads + 1 }
  match value with
  | .ok value =>
    { machine with tape := machine.tape.store value, position := machine.position + 1, log }
  | .error fault => { machine with fault := some fault, log }

variable (machine : Machine)

theorem not_asks_of_halted {machine : Machine} (halted : machine.halted) :
    machine.asks = false := by
  simp [asks, halted]

theorem step_of_halted {machine : Machine} (halted : machine.halted) : machine.step = machine := by
  simp [step, halted]

@[simp] theorem program_operated (result : Except Fault Tape) :
    (machine.operated result).program = machine.program := by
  cases result <;> rfl

@[simp] theorem settings_operated (result : Except Fault Tape) :
    (machine.operated result).settings = machine.settings := by
  cases result <;> rfl

@[simp] theorem program_jumped (result : Except Fault Nat) :
    (machine.jumped result).program = machine.program := by
  cases result <;> rfl

@[simp] theorem settings_jumped (result : Except Fault Nat) :
    (machine.jumped result).settings = machine.settings := by
  cases result <;> rfl

@[simp] theorem tape_jumped (result : Except Fault Nat) :
    (machine.jumped result).tape = machine.tape := by
  cases result <;> rfl

@[simp] theorem program_jump (bracket : Bracket) :
    (machine.jump bracket).program = machine.program := program_jumped ..

@[simp] theorem settings_jump (bracket : Bracket) :
    (machine.jump bracket).settings = machine.settings := settings_jumped ..

@[simp] theorem tape_jump (bracket : Bracket) : (machine.jump bracket).tape = machine.tape :=
  tape_jumped ..

@[simp] theorem program_write : machine.write.program = machine.program := by
  unfold write; split <;> rfl

@[simp] theorem settings_write : machine.write.settings = machine.settings := by
  unfold write; split <;> rfl

@[simp] theorem tape_write : machine.write.tape = machine.tape := by
  unfold write; split <;> rfl

@[simp] theorem program_step : machine.step.program = machine.program := by
  fun_cases step <;> simp [next]

@[simp] theorem settings_step : machine.step.settings = machine.settings := by
  fun_cases step <;> simp [next]

@[simp] theorem program_supply (value : Except Fault UInt32) :
    (machine.supply value).program = machine.program := by
  cases value <;> rfl

@[simp] theorem settings_supply (value : Except Fault UInt32) :
    (machine.supply value).settings = machine.settings := by
  cases value <;> rfl

@[simp] theorem program_rewind : machine.rewind.program = machine.program := rfl

@[simp] theorem settings_rewind : machine.rewind.settings = machine.settings := rfl

end Machine
end Brainfuck
