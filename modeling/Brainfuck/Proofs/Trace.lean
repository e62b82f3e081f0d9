import Mathlib.Logic.Function.Iterate
import Brainfuck.Run
import Brainfuck.Proofs.Balance

/-! The states that a run passes through.  `after` counts the instructions executed, and a run ends
where it first halts, so what every instruction preserves holds at the end of every run.  `observed`
lists what can be seen of the instructions on the way. -/

namespace Brainfuck

/-- Whether a bracket sends a machine with this cell at hand to its partner. -/
def Bracket.taken (cell : UInt32) : Bracket → Bool
  | opening => cell = 0
  | closing => cell ≠ 0

/-- The operation on the tape that an instruction stands for, if it needs no more than the tape. -/
def Instruction.operation? : Instruction → Option Tape.Operation
  | move direction => some (.move direction)
  | increment => some .increment
  | decrement => some .decrement
  | write | read | loop _ => none

namespace Machine

variable {σ : Type} {feed : Feed σ} {state final : Machine × σ} {count earlier more fuel : Nat}

/-- The state after `count` instructions from `state`. -/
def after (feed : Feed σ) (count : Nat) (state : Machine × σ) : Machine × σ :=
  (advance feed)^[count] state

def Ends (feed : Feed σ) (state final : Machine × σ) : Prop :=
  ∃ fuel, runFor feed fuel state = some final

@[simp] theorem after_zero : after feed 0 state = state := rfl

theorem after_succ : after feed (count + 1) state = after feed count (advance feed state) := rfl

theorem after_succ' : after feed (count + 1) state = advance feed (after feed count state) :=
  Function.iterate_succ_apply' ..

theorem after_add : after feed (count + more) state = after feed more (after feed count state) := by
  rw [Nat.add_comm]
  exact Function.iterate_add_apply ..

theorem after_of_halted (halted : state.1.halted) : after feed count state = state :=
  Function.iterate_fixed (advance_of_halted halted) count

/-- What has halted does not run later. -/
theorem running_of_le (running : (after feed count state).1.halted = false)
    (le : earlier ≤ count) : (after feed earlier state).1.halted = false := by
  obtain ⟨more, rfl⟩ := Nat.exists_eq_add_of_le le
  by_contra stopped
  rw [Bool.not_eq_false] at stopped
  rw [after_add, after_of_halted stopped, stopped] at running
  contradiction

theorem after_preserves (holds : Machine × σ → Prop) (start : holds state)
    (step : ∀ state, holds state → holds (advance feed state)) (count : Nat) :
    holds (after feed count state) := by
  induction count with
  | zero => exact start
  | succ count ih =>
    rw [after_succ']
    exact step _ ih

/-- What `pick` sees in the states before the first `count` instructions, in order. -/
def observed {α : Type} (pick : Machine × σ → Option α) (feed : Feed σ) (count : Nat)
    (state : Machine × σ) : List α :=
  (List.range count).filterMap fun earlier => pick (after feed earlier state)

@[simp] theorem observed_zero {α : Type} (pick : Machine × σ → Option α) :
    observed pick feed 0 state = [] := rfl

theorem observed_succ {α : Type} (pick : Machine × σ → Option α) :
    observed pick feed (count + 1) state =
      observed pick feed count state ++ (pick (after feed count state)).toList := by
  rw [observed, List.range_succ, List.filterMap_append]
  cases seen : pick (after feed count state) <;> simp [observed, seen]

theorem mem_observed_iff {α : Type} {pick : Machine × σ → Option α} {seen : α} :
    seen ∈ observed pick feed count state ↔
      ∃ earlier < count, pick (after feed earlier state) = some seen := by
  simp [observed]

@[simp] theorem program_after : (after feed count state).1.program = state.1.program :=
  after_preserves (·.1.program = _) rfl (fun _ same => program_advance.trans same) count

@[simp] theorem settings_after : (after feed count state).1.settings = state.1.settings :=
  after_preserves (·.1.settings = _) rfl (fun _ same => settings_advance.trans same) count

theorem runFor_eq_some_iff :
    runFor feed fuel state = some final ↔ after feed fuel state = final ∧ final.1.halted := by
  induction fuel generalizing state with
  | zero =>
    rw [runFor, Option.ite_none_right_eq_some, Option.some.injEq, after_zero]
    constructor
    · rintro ⟨halted, rfl⟩
      exact ⟨rfl, halted⟩
    · rintro ⟨rfl, halted⟩
      exact ⟨halted, rfl⟩
  | succ fuel ih => rw [runFor_succ, ih, after_succ]

theorem ends_iff : Ends feed state final ↔
    final.1.halted ∧ ∃ count, after feed count state = final := by
  simp only [Ends, runFor_eq_some_iff, exists_and_right, and_comm]

theorem Ends.program (ends : Ends feed state final) : final.1.program = state.1.program := by
  obtain ⟨-, count, rfl⟩ := ends_iff.mp ends
  exact program_after

theorem Ends.settings (ends : Ends feed state final) : final.1.settings = state.1.settings := by
  obtain ⟨-, count, rfl⟩ := ends_iff.mp ends
  exact settings_after

theorem Ends.unique {final' : Machine × σ} (ends : Ends feed state final)
    (ends' : Ends feed state final') : final = final' := by
  obtain ⟨_, ran⟩ := ends
  obtain ⟨_, ran'⟩ := ends'
  exact runFor_unique ran ran'

/-- What a run of so much fuel shows is shown by the end of the run. -/
theorem exists_ends_of_map {α : Type} {view : Machine × σ → α} {shown : α}
    (ran : (runFor feed fuel state).map view = some shown) :
    ∃ final, Ends feed state final ∧ view final = shown := by
  obtain ⟨final, ended, same⟩ := Option.map_eq_some_iff.mp ran
  exact ⟨final, ⟨fuel, ended⟩, same⟩

theorem ends_of_halted (halted : state.1.halted) : Ends feed state state :=
  ⟨0, runFor_of_halted halted⟩

/-- A run that starts later on the way of another ends as that one does. -/
theorem ends_after_iff : Ends feed (after feed count state) final ↔ Ends feed state final := by
  constructor
  · intro ends
    obtain ⟨halted, more, rfl⟩ := ends_iff.mp ends
    exact ends_iff.mpr ⟨halted, count + more, after_add⟩
  · rintro ⟨fuel, ran⟩
    have ran := (runFor_eq_some_iff.mp (runFor_of_le ran (Nat.le_add_left fuel count)))
    exact ends_iff.mpr ⟨ran.2, fuel, after_add.symm.trans ran.1⟩

theorem halted_eq_false_iff {machine : Machine} : machine.halted = false ↔
    machine.fault = none ∧ machine.position < machine.program.size := by
  simp [Machine.halted]

theorem position_lt_size {machine : Machine} (running : machine.halted = false) :
    machine.position < machine.program.size :=
  (halted_eq_false_iff.mp running).2

theorem fault_of_running {machine : Machine} (running : machine.halted = false) :
    machine.fault = none :=
  (halted_eq_false_iff.mp running).1

theorem halted_of_fault {machine : Machine} {fault : Fault} (failed : machine.fault = some fault) :
    machine.halted := by
  simp [Machine.halted, failed]

theorem create_eq_ok_iff {allocator : Allocator} {program : Program} {settings : Settings}
    {machine : Machine} :
    create allocator program settings = .ok machine ↔
      ∃ tape, Tape.create allocator settings.tapeLength settings.policy = .ok tape ∧
        machine = { program, settings, tape } := by
  rw [create]
  cases Tape.create allocator settings.tapeLength settings.policy with
  | error fault => simp [bind, Except.bind]
  | ok tape => simp [bind, Except.bind, pure, Except.pure, eq_comm]

theorem ends_advance_iff : Ends feed (advance feed state) final ↔ Ends feed state final :=
  show Ends feed (after feed 1 state) final ↔ _ from ends_after_iff

/-- All that one instruction of a running machine can do. -/
theorem advance_of_running (running : state.1.halted = false) :
    advance feed state =
      match state.1.instruction? with
      | none => (state.1.next, state.2)
      | some (.move direction) => (state.1.operated (state.1.tape.move direction), state.2)
      | some .increment => (state.1.operated state.1.tape.increment, state.2)
      | some .decrement => (state.1.operated state.1.tape.decrement, state.2)
      | some .write => (state.1.write, state.2)
      | some .read =>
        (state.1.supply (state.1.settings.input.read (feed state.2).1), (feed state.2).2)
      | some (.loop bracket) =>
        (if bracket.taken state.1.tape.current then state.1.jump bracket else state.1.next,
          state.2) := by
  obtain ⟨machine, source⟩ := state
  simp only at running
  rw [advance, asks, step, running]
  cases machine.instruction? with
  | none => simp
  | some instruction =>
    cases instruction with
    | loop bracket => cases bracket <;> simp [Bracket.taken]
    | _ => simp

theorem advance_of_operation {instruction : Instruction} {operation : Tape.Operation}
    (running : state.1.halted = false) (executes : state.1.instruction? = some instruction)
    (stands : instruction.operation? = some operation) :
    advance feed state = (state.1.operated (state.1.tape.perform operation), state.2) := by
  rw [advance_of_running running, executes]
  cases instruction <;> cases stands <;> rfl

/-- `advance_of_running` as the cases of a proof about the state behind one instruction. -/
theorem advance_cases {motive : Machine × σ → Prop} (running : state.1.halted = false)
    (comment : state.1.instruction? = none → motive (state.1.next, state.2))
    (operate : ∀ instruction operation, state.1.instruction? = some instruction →
      instruction.operation? = some operation →
      motive (state.1.operated (state.1.tape.perform operation), state.2))
    (write : state.1.instruction? = some .write → motive (state.1.write, state.2))
    (read : state.1.instruction? = some .read →
      motive (state.1.supply (state.1.settings.input.read (feed state.2).1), (feed state.2).2))
    (jump : ∀ bracket, state.1.instruction? = some (.loop bracket) →
      bracket.taken state.1.tape.current → motive (state.1.jump bracket, state.2))
    (pass : ∀ bracket, state.1.instruction? = some (.loop bracket) →
      bracket.taken state.1.tape.current = false → motive (state.1.next, state.2)) :
    motive (advance feed state) := by
  rw [advance_of_running running]
  cases executes : state.1.instruction? with
  | none => exact comment executes
  | some instruction =>
    cases instruction with
    | move direction => exact operate _ (.move direction) executes rfl
    | increment => exact operate _ .increment executes rfl
    | decrement => exact operate _ .decrement executes rfl
    | write => exact write executes
    | read => exact read executes
    | loop bracket =>
      cases taken : bracket.taken state.1.tape.current with
      | true => simpa [taken] using jump bracket executes taken
      | false => simpa [taken] using pass bracket executes taken

theorem runFor_after (ran : runFor feed fuel state = some final)
    (running : (after feed count state).1.halted = false) :
    count ≤ fuel ∧ runFor feed (fuel - count) (after feed count state) = some final := by
  rw [runFor_eq_some_iff] at ran
  obtain ⟨rfl, halted⟩ := ran
  have le : count ≤ fuel := by
    by_contra lt
    rw [running_of_le running (Nat.le_of_not_le lt)] at halted
    contradiction
  refine ⟨le, runFor_eq_some_iff.mpr ⟨?_, halted⟩⟩
  rw [← after_add, Nat.add_sub_cancel' le]

/-- A run that ends executes instructions up to its end. -/
theorem Ends.exists_running (ends : Ends feed state final) :
    ∃ count, after feed count state = final ∧
      ∀ earlier < count, (after feed earlier state).1.halted = false := by
  obtain ⟨halted, count, rfl⟩ := ends_iff.mp ends
  induction count with
  | zero => exact ⟨0, rfl, fun earlier lt => absurd lt (Nat.not_lt_zero _)⟩
  | succ count ih =>
    cases before : (after feed count state).1.halted with
    | true =>
      have same : after feed (count + 1) state = after feed count state := by
        rw [after_succ', advance_of_halted before]
      rw [same] at ends ⊢
      exact ih ends before
    | false =>
      exact ⟨count + 1, rfl, fun earlier lt => running_of_le before (Nat.le_of_lt_succ lt)⟩

theorem getElem?_of_loop {machine : Machine} {bracket : Bracket}
    (instruction : machine.instruction? = some (.loop bracket)) :
    machine.program[machine.position]? = some bracket.char := by
  obtain ⟨c, at_position, of_char⟩ := Option.bind_eq_some_iff.mp instruction
  rw [Instruction.ofChar?_eq_loop_iff, Bracket.ofChar?_eq_some_iff] at of_char
  rw [at_position, of_char]

end Machine
end Brainfuck
