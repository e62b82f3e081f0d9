import Brainfuck.Proofs.Partner
import Brainfuck.Proofs.Trace

/-! What holds of a machine from its start on, whatever it executes. -/

namespace Brainfuck

/-- The tape is the one that the settings ask for, and the end of the program is not passed. -/
structure Fitted (machine : Machine) : Prop where
  length : machine.tape.length = machine.settings.tapeLength
  policy : machine.tape.policy = machine.settings.policy
  position : machine.position ≤ machine.program.size

namespace Machine

variable {σ : Type} {feed : Feed σ} {state : Machine × σ} {machine : Machine}

theorem fitted_of_create {allocator : Allocator} {program : Program} {settings : Settings}
    (created : create allocator program settings = .ok machine) : Fitted machine := by
  obtain ⟨tape, built, rfl⟩ := create_eq_ok_iff.mp created
  obtain ⟨length, policy, -⟩ := Tape.create_eq_ok built
  exact ⟨length, policy, Nat.zero_le _⟩

theorem fitted_next (fitted : Fitted machine) (running : machine.halted = false) :
    Fitted machine.next :=
  ⟨fitted.length, fitted.policy, position_lt_size running⟩

theorem fitted_operated (fitted : Fitted machine) (running : machine.halted = false)
    (operation : Tape.Operation) :
    Fitted (machine.operated (machine.tape.perform operation)) := by
  cases performed : machine.tape.perform operation with
  | error fault => exact ⟨fitted.length, fitted.policy, fitted.position⟩
  | ok tape =>
    obtain ⟨length, policy⟩ := Tape.perform_eq_ok performed
    have le := position_lt_size running
    exact ⟨length.trans fitted.length, policy.trans fitted.policy, le⟩

theorem fitted_write (fitted : Fitted machine) (running : machine.halted = false) :
    Fitted machine.write := by
  unfold write
  split
  · exact ⟨fitted.length, fitted.policy, fitted.position⟩
  · exact ⟨fitted.length, fitted.policy, position_lt_size running⟩

theorem fitted_supply (fitted : Fitted machine) (running : machine.halted = false)
    (value : Except Fault UInt32) : Fitted (machine.supply value) := by
  cases value with
  | error fault => exact ⟨fitted.length, fitted.policy, fitted.position⟩
  | ok value =>
    have length := Tape.length_store machine.tape value
    have le := position_lt_size running
    exact ⟨length.trans fitted.length, fitted.policy, le⟩

theorem fitted_jump (fitted : Fitted machine) (bracket : Bracket) :
    Fitted (machine.jump bracket) := by
  rw [jump]
  cases found : machine.program.target machine.position bracket with
  | error fault => exact ⟨fitted.length, fitted.policy, fitted.position⟩
  | ok target =>
    have lt := Program.target_lt_size found
    exact ⟨fitted.length, fitted.policy, lt⟩

theorem fitted_advance (fitted : Fitted state.1) : Fitted (advance feed state).1 := by
  cases running : state.1.halted with
  | true => rwa [advance_of_halted running]
  | false =>
    refine advance_cases (motive := fun state => Fitted state.1) running ?comment ?operate ?write
      ?read ?jump ?pass
    case comment => exact fun _ => fitted_next fitted running
    case operate => exact fun _ operation _ _ => fitted_operated fitted running operation
    case write => exact fun _ => fitted_write fitted running
    case read => exact fun _ => fitted_supply fitted running _
    case jump => exact fun bracket _ _ => fitted_jump fitted bracket
    case pass => exact fun _ _ _ => fitted_next fitted running

theorem fitted_after (fitted : Fitted state.1) (feed : Feed σ) (count : Nat) :
    Fitted (after feed count state).1 :=
  after_preserves (fun state => Fitted state.1) fitted (fun _ => fitted_advance) count

end Machine
end Brainfuck
