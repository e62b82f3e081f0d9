import Brainfuck.Proofs.Failure

/-! The course of a run through its program.  An instruction stays where it is if it fails, and
otherwise leads to the next character, or behind the partner of its bracket if that is where it
jumps.  Only what is neither a comment nor a bracket changes the tape. -/

namespace Brainfuck

/-- How one instruction moves the position. -/
inductive Moves (machine behind : Machine) : Prop
  | stops (failed : behind.fault ≠ none) (position : behind.position = machine.position)
      (tape : behind.tape = machine.tape) (jumps : behind.log.jumps = machine.log.jumps)
  | next (sound : behind.fault = none) (position : behind.position = machine.position + 1)
      (jumps : behind.log.jumps = machine.log.jumps)
      (comment : machine.instruction? = none → behind.tape = machine.tape)
      (pass : ∀ bracket, machine.instruction? = some (.loop bracket) →
        bracket.taken machine.tape.current = false ∧ behind.tape = machine.tape)
  | jumps {bracket : Bracket} {target : Nat} (sound : behind.fault = none)
      (executes : machine.instruction? = some (.loop bracket))
      (taken : bracket.taken machine.tape.current)
      (partners : machine.program.Partners machine.position bracket target)
      (position : behind.position = target + 1) (tape : behind.tape = machine.tape)
      (jumps : behind.log.jumps = machine.log.jumps.push (machine.position, target))

namespace Machine

variable {σ : Type} {state : Machine × σ} {machine : Machine} {instruction : Instruction}
  {bracket : Bracket}

theorem instruction?_of_getElem? (at_bracket : machine.program[machine.position]? =
    some bracket.char) : machine.instruction? = some (.loop bracket) := by
  rw [instruction?, at_bracket]
  exact Instruction.ofChar?_eq_loop_iff.mpr (Bracket.ofChar?_char bracket)

theorem moves_next {behind : Machine} (executes : machine.instruction? = some instruction)
    (other : ∀ bracket, instruction ≠ .loop bracket) (sound : behind.fault = none)
    (position : behind.position = machine.position + 1)
    (jumps : behind.log.jumps = machine.log.jumps) : Moves machine behind := by
  refine .next sound position jumps (fun comment => ?_) fun bracket loop => ?_
  · cases executes.symm.trans comment
  · exact absurd (Option.some.inj (executes.symm.trans loop)) (other bracket)

theorem moves_operated {operation : Tape.Operation} (sound : machine.fault = none)
    (executes : machine.instruction? = some instruction)
    (stands : instruction.operation? = some operation) (result : Except Fault Tape) :
    Moves machine (machine.operated result) := by
  cases result with
  | ok tape => exact moves_next executes (by rintro bracket rfl; contradiction) sound rfl rfl
  | error fault => exact .stops (Option.some_ne_none fault) rfl rfl rfl

theorem moves_write (sound : machine.fault = none) (executes : machine.instruction? = some .write) :
    Moves machine machine.write := by
  unfold write
  split
  next fault _ => exact .stops (Option.some_ne_none fault) rfl rfl rfl
  next => exact moves_next executes nofun sound rfl rfl

theorem moves_supply (sound : machine.fault = none) (executes : machine.instruction? = some .read)
    (value : Except Fault UInt32) : Moves machine (machine.supply value) := by
  cases value with
  | ok value => exact moves_next executes nofun sound rfl rfl
  | error fault => exact .stops (Option.some_ne_none fault) rfl rfl rfl

theorem moves_jump (sound : machine.fault = none)
    (executes : machine.instruction? = some (.loop bracket))
    (taken : bracket.taken machine.tape.current) : Moves machine (machine.jump bracket) := by
  rw [jump]
  cases found : machine.program.target machine.position bracket with
  | ok target =>
    exact .jumps sound executes taken (Program.target_eq_ok_iff.mp found) rfl rfl rfl
  | error fault => exact .stops (Option.some_ne_none fault) rfl rfl rfl

theorem moves_advance (feed : Feed σ) (running : state.1.halted = false) :
    Moves state.1 (advance feed state).1 := by
  have sound := fault_of_running running
  refine advance_cases (motive := fun behind => Moves state.1 behind.1) running ?comment ?operate
    ?write ?read ?jump ?pass
  case comment =>
    intro comment
    exact .next sound rfl rfl (fun _ => rfl) fun bracket loop => by cases comment.symm.trans loop
  case operate => exact fun _ _ executes stands => moves_operated sound executes stands _
  case write => exact moves_write sound
  case read => exact fun executes => moves_supply sound executes _
  case jump => exact fun _ => moves_jump sound
  case pass =>
    intro bracket executes straight
    refine .next sound rfl rfl (fun _ => rfl) fun bracket' loop => ?_
    cases executes.symm.trans loop
    exact ⟨straight, rfl⟩

end Machine

end Brainfuck
