import Brainfuck.Proofs.Checked
import Brainfuck.Proofs.Rerun

/-! Safety.  A machine that takes a step takes it as the checked engine does: no access to an array
is out of range, and no word has to hold a number that it cannot.  What the checks ask for is what
holds of a machine from its start on, whatever runs it has made before. -/

namespace Brainfuck

namespace Checked.Engine

variable {limit : Nat} {answer : Answer} {engine after : Engine} {fault : Fault}

theorem advance?_of_ok (stepped : engine.step? limit answer = some (.ok after))
    (fits : after.position + 1 < limit) :
    engine.advance? limit answer =
      some (.ok { after with position := after.position + 1 }) := by
  simp [advance?, stepped, add?_eq fits]

theorem advance?_of_error (stepped : engine.step? limit answer = some (.error fault))
    (fits : engine.position + Diagnostic.margin < limit) :
    engine.advance? limit answer =
      some (.error (Diagnostic.of engine.program engine.position engine.output fault)) := by
  simp [advance?, stepped, window?_eq fits, Diagnostic.of]

section Machine

variable {σ : Type} {feed : Feed σ} {state : Machine × σ} {machine : Machine}

@[simp] theorem program_of : (of machine).program = machine.program := rfl

@[simp] theorem settings_of : (of machine).settings = machine.settings := rfl

@[simp] theorem tape_of : (of machine).tape = .of machine.tape := rfl

@[simp] theorem position_of : (of machine).position = machine.position := rfl

@[simp] theorem output_of : (of machine).output = machine.output := rfl

/-- The characters to be executed and to be shown are counted by words. -/
theorem position_fits (running : machine.halted = false)
    (fits : machine.program.size + Diagnostic.margin < limit) :
    machine.position + 1 < limit ∧ machine.position + Diagnostic.margin < limit := by
  have inside := Machine.position_lt_size running
  unfold Diagnostic.margin at fits ⊢
  omega

theorem step?_of (running : machine.halted = false) :
    (of machine).step? limit answer =
      (of machine).execute? limit answer machine.tape.current machine.instruction? := by
  have at_position := Array.getElem?_eq_getElem (Machine.position_lt_size running)
  simp [step?, Tape.current?_of, Machine.instruction?, at_position]

theorem advance?_of_next (running : machine.halted = false)
    (stepped : (of machine).step? limit answer = some (.ok (of machine)))
    (fits : machine.program.size + Diagnostic.margin < limit) :
    (of machine).advance? limit answer = some (outcome machine.next) := by
  rw [advance?_of_ok stepped (position_fits running fits).1]
  simp [outcome, Machine.next, Machine.fault_of_running running, of]

theorem advance?_of_operated {result : Except Fault Brainfuck.Tape}
    (running : machine.halted = false) (stepped : (of machine).step? limit answer =
      some ((result.map Tape.of).map ({ of machine with tape := · })))
    (fits : machine.program.size + Diagnostic.margin < limit) :
    (of machine).advance? limit answer = some (outcome (machine.operated result)) := by
  obtain ⟨next_fits, fault_fits⟩ := position_fits running fits
  cases result with
  | ok tape =>
    rw [advance?_of_ok stepped next_fits]
    simp [outcome, Machine.operated, Machine.fault_of_running running, of]
  | error fault =>
    rw [advance?_of_error stepped fault_fits]
    rfl

theorem advance?_of_write (running : machine.halted = false)
    (executes : machine.instruction? = some .write)
    (fits : machine.program.size + Diagnostic.margin < limit) :
    (of machine).advance? limit answer = some (outcome machine.write) := by
  obtain ⟨next_fits, fault_fits⟩ := position_fits running fits
  cases encoded : machine.settings.output.encode machine.tape.current with
  | ok text =>
    have stepped : (of machine).step? limit answer =
        some (.ok { of machine with output := machine.output ++ text }) := by
      simp [step?_of running, executes, execute?, encode?_eq, encoded, Except.map]
    rw [advance?_of_ok stepped next_fits]
    simp [outcome, Machine.write, encoded, Machine.fault_of_running running, of]
  | error fault =>
    have stepped : (of machine).step? limit answer = some (.error fault) := by
      simp [step?_of running, executes, execute?, encode?_eq, encoded, Except.map]
    rw [advance?_of_error stepped fault_fits]
    simp [outcome, Machine.write, encoded, Machine.fail]

theorem advance?_of_read (running : machine.halted = false)
    (executes : machine.instruction? = some .read)
    (fits : machine.program.size + Diagnostic.margin < limit) :
    (of machine).advance? limit answer =
      some (outcome (machine.supply (machine.settings.input.read answer))) := by
  obtain ⟨next_fits, fault_fits⟩ := position_fits running fits
  cases read : machine.settings.input.read answer with
  | ok value =>
    have stepped : (of machine).step? limit answer =
        some (.ok { of machine with tape := .of (machine.tape.store value) }) := by
      simp [step?_of running, executes, execute?, read?_eq, read, Tape.store?_of]
    rw [advance?_of_ok stepped next_fits]
    simp [outcome, Machine.supply, Machine.fault_of_running running, of]
  | error fault =>
    have stepped : (of machine).step? limit answer = some (.error fault) := by
      simp [step?_of running, executes, execute?, read?_eq, read]
    rw [advance?_of_error stepped fault_fits]
    simp [outcome, Machine.supply]

theorem advance?_of_jump {bracket : Bracket} (running : machine.halted = false)
    (executes : machine.instruction? = some (.loop bracket))
    (taken : bracket.taken machine.tape.current)
    (fits : machine.program.size + Diagnostic.margin < limit) :
    (of machine).advance? limit answer = some (outcome (machine.jump bracket)) := by
  have inside := Machine.position_lt_size running
  have short : machine.program.size + 1 < limit := by
    unfold Diagnostic.margin at fits
    omega
  cases found : machine.program.target machine.position bracket with
  | ok target =>
    have stepped : (of machine).step? limit answer =
        some (.ok { of machine with position := target }) := by
      simp [step?_of running, executes, execute?, taken, target?_eq short inside, found, Except.map]
    have target_lt := Program.target_lt_size found
    have target_fits : target + 1 < limit := by omega
    rw [advance?_of_ok stepped target_fits]
    simp [outcome, Machine.jump, Machine.jumped, found, Machine.fault_of_running running, of]
  | error fault =>
    have stepped : (of machine).step? limit answer = some (.error fault) := by
      simp [step?_of running, executes, execute?, taken, target?_eq short inside, found, Except.map]
    rw [advance?_of_error stepped (position_fits running fits).2]
    simp [outcome, Machine.jump, Machine.jumped, found, Machine.fail]

/-- No check fails where a machine takes a step, and the checked step is that of the machine. -/
theorem advance?_of (running : state.1.halted = false)
    (addressable : state.1.tape.length < UInt64.size)
    (fits : state.1.program.size + Diagnostic.margin < limit) :
    (of state.1).advance? limit (feed state.2).1 =
      some (outcome (Machine.advance feed state).1) := by
  have stepped : (of state.1).step? limit (feed state.2).1 = _ := step?_of running
  refine Machine.advance_cases (motive := fun behind =>
    (of state.1).advance? limit (feed state.2).1 = some (outcome behind.1)) running ?comment
      ?operate ?write ?read ?jump ?pass
  case comment =>
    intro executes
    exact advance?_of_next running (by rw [stepped, executes]; rfl) fits
  case operate =>
    intro instruction operation executes stands
    refine advance?_of_operated running ?_ fits
    rw [stepped, executes]
    cases instruction with
    | move direction =>
      cases stands
      cases direction with
      | left => simp [execute?, Tape.moveLeft?_of, Brainfuck.Tape.perform, Brainfuck.Tape.move]
      | right =>
        simp [execute?, Tape.moveRight?_of addressable, Brainfuck.Tape.perform,
          Brainfuck.Tape.move]
    | increment =>
      cases stands
      simp [execute?, Tape.increment?_of, Brainfuck.Tape.perform]
    | decrement =>
      cases stands
      simp [execute?, Tape.decrement?_of, Brainfuck.Tape.perform]
    | write | read | loop => contradiction
  case write => exact fun executes => advance?_of_write running executes fits
  case read => exact fun executes => advance?_of_read running executes fits
  case jump => exact fun bracket executes taken => advance?_of_jump running executes taken fits
  case pass =>
    intro bracket executes passed
    exact advance?_of_next running (by simp [stepped, executes, execute?, passed]) fits

end Machine

end Checked.Engine

/-- In each state of a run, whatever runs the machine has made before, the tape is the one that the
settings ask for, with its pointer on it, and the position is in the program or right behind it.
There the next step passes all its checks, the report of its fault included, and a jump leads to a
character of the program.  A word that counts characters has to hold the last position that a report
shows, as one of 64 bits does for every program that memory holds. -/
theorem checked_after {allocator : Allocator} {program : Program} {settings : Settings}
    {fresh : Machine}
    (created : Machine.create allocator program settings = .ok fresh) {σ : Type} {source : σ}
    {used : Machine × σ} (history : Machine.Used (fresh, source) used) (feed : Feed σ)
    (count : Nat) :
    let now := Machine.after feed count (used.1.rewind, used.2)
    1 ≤ settings.tapeLength ∧ now.1.tape.length = settings.tapeLength ∧
      now.1.tape.pointer < settings.tapeLength ∧ now.1.tape.policy = settings.policy ∧
      now.1.program = program ∧ now.1.settings = settings ∧ now.1.position ≤ program.size ∧
      (∀ bracket target, program.target now.1.position bracket = .ok target →
        target < program.size) ∧
      (now.1.halted = false → ∀ limit, program.size + Diagnostic.margin < limit →
        (Checked.Engine.of now.1).advance? limit (feed now.2).1 =
          some (Checked.Engine.outcome (Machine.advance feed now).1)) := by
  intro now
  have made : Machine.MadeFrom program settings now.1 := by
    have start : Machine.MadeFrom program settings used.1.rewind := by
      rw [(history.madeFrom created).rewind created]
      exact Machine.madeFrom_of_create created
    exact ⟨Machine.fitted_after start.fitted feed count, Machine.program_after.trans start.program,
      Machine.settings_after.trans start.settings⟩
  obtain ⟨tape, built, -⟩ := Machine.create_eq_ok_iff.mp created
  obtain ⟨some_cells, few⟩ := Tape.length_le_of_create built
  have length : now.1.tape.length = settings.tapeLength := by
    rw [made.fitted.length, made.settings]
  have policy : now.1.tape.policy = settings.policy := by
    rw [made.fitted.policy, made.settings]
  have position : now.1.position ≤ program.size := made.program ▸ made.fitted.position
  refine ⟨some_cells, length, length ▸ now.1.tape.pointer_lt, policy, made.program, made.settings,
    position, fun _ _ => Program.target_lt_size, fun running limit fits => ?_⟩
  have addressable : now.1.tape.length < UInt64.size := by
    rw [length]
    exact Nat.lt_of_le_of_lt few (by decide)
  exact Checked.Engine.advance?_of running addressable (made.program ▸ fits)

/-- The step that leaves the tape is checked with the window of its report, which reaches over both
ends of the program. -/
theorem checked_after_at_fault :
    let program := Program.ofString "+[-]<"
    let feed : Feed Unit := fun source => (.ok "", source)
    ∃ fresh, Machine.create .ample program { tapeLength := 1 } = .ok fresh ∧
      let now := Machine.after feed 4 (fresh.rewind, ())
      now.1.halted = false ∧ (Checked.Engine.of now.1).advance? UInt64.size (.ok "") =
        some (.error (Diagnostic.of program 4 "" (.offTape .left 0))) := by
  intro program feed
  obtain ⟨fresh, created⟩ :
      ∃ fresh, Machine.create .ample program { tapeLength := 1 } = .ok fresh :=
    ⟨_, rfl⟩
  obtain ⟨-, -, -, -, same, -, -, -, checked⟩ := checked_after created .new feed 4
  have shown : (let now := Machine.after feed 4 (fresh.rewind, ())
      let behind := (Machine.advance feed now).1
      (now.1.halted, behind.position, behind.output, behind.fault)) =
        (false, 4, "", some (.offTape .left 0)) := by
    cases created
    decide +kernel
  simp only [Prod.mk.injEq] at shown
  obtain ⟨running, position, output, fault⟩ := shown
  refine ⟨fresh, created, running, (checked running UInt64.size (by decide)).trans ?_⟩
  rw [Checked.Engine.outcome, fault, position, output, Machine.program_advance, same]

end Brainfuck
