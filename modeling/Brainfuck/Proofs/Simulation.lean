import Brainfuck.Proofs.Trace

/-! Machines seen through a view.  Where an instruction does the same to the view of a machine as to
the machine, the view of a run is the run of the view. -/

namespace Brainfuck.Machine

variable {σ : Type} {feed : Feed σ} {state final : Machine × σ} {count : Nat}
  {view : Machine → Machine} {machine : Machine}

def viewState (view : Machine → Machine) (state : Machine × σ) : Machine × σ :=
  (view state.1, state.2)

/-- The next instruction is the same through the view, and each of its parts commutes with it. -/
structure Keeps (view : Machine → Machine) (machine : Machine) : Prop where
  running : (view machine).halted = false
  instruction : (view machine).instruction? = machine.instruction?
  current : (view machine).tape.current = machine.tape.current
  input : (view machine).settings.input = machine.settings.input
  next : (view machine).next = view machine.next
  operated : ∀ instruction operation, machine.instruction? = some instruction →
    instruction.operation? = some operation →
    (view machine).operated ((view machine).tape.perform operation) =
      view (machine.operated (machine.tape.perform operation))
  write : (view machine).write = view machine.write
  supply : ∀ value, (view machine).supply value = view (machine.supply value)
  jump : ∀ bracket, machine.instruction? = some (.loop bracket) →
    (view machine).jump bracket = view (machine.jump bracket)

theorem Keeps.advance (keeps : Keeps view state.1) (running : state.1.halted = false) :
    advance feed (viewState view state) = viewState view (advance feed state) := by
  rw [advance_of_running running, viewState, advance_of_running keeps.running, keeps.instruction]
  cases executes : state.1.instruction? with
  | none => exact congrArg (·, state.2) keeps.next
  | some instruction =>
    cases instruction with
    | move direction =>
      exact congrArg (·, state.2) (keeps.operated _ (.move direction) executes rfl)
    | increment => exact congrArg (·, state.2) (keeps.operated _ .increment executes rfl)
    | decrement => exact congrArg (·, state.2) (keeps.operated _ .decrement executes rfl)
    | write => exact congrArg (·, state.2) keeps.write
    | read =>
      rw [keeps.input]
      exact congrArg (·, (feed state.2).2) (keeps.supply _)
    | loop bracket =>
      rw [keeps.current]
      by_cases taken : bracket.taken state.1.tape.current
      · simp only [taken, if_true]
        exact congrArg (·, state.2) (keeps.jump bracket executes)
      · simp only [taken]
        exact congrArg (·, state.2) keeps.next

theorem advance_viewState (halted : state.1.halted → (view state.1).halted)
    (keeps : state.1.halted = false → Keeps view state.1) :
    advance feed (viewState view state) = viewState view (advance feed state) := by
  cases running : state.1.halted with
  | true => rw [advance_of_halted running, advance_of_halted (halted running)]
  | false => exact (keeps running).advance running

/-- The view of a run is the run of the view, as far as this holds of each instruction. -/
theorem after_viewState (steps : ∀ earlier < count,
      advance feed (viewState view (after feed earlier state)) =
        viewState view (advance feed (after feed earlier state))) :
    after feed count (viewState view state) = viewState view (after feed count state) := by
  induction count with
  | zero => rfl
  | succ count ih =>
    have before := ih fun earlier lt => steps earlier (Nat.lt_succ_of_lt lt)
    rw [after_succ', before, steps count (Nat.lt_succ_self _), after_succ']

/-- Where a view keeps step with every machine of a run, its run ends as the view of the run
does. -/
theorem ends_viewState_iff (same : ∀ count,
      after feed count (viewState view state) = viewState view (after feed count state))
    (halted : ∀ machine, (view machine).halted = machine.halted) :
    Ends feed (viewState view state) final ↔
      ∃ final', Ends feed state final' ∧ final = viewState view final' := by
  constructor
  · intro ends
    obtain ⟨stopped, count, rfl⟩ := ends_iff.mp ends
    rw [same] at stopped ⊢
    exact ⟨_, ends_iff.mpr ⟨(halted _).symm.trans stopped, count, rfl⟩, rfl⟩
  · rintro ⟨final, ends, rfl⟩
    obtain ⟨stopped, count, rfl⟩ := ends_iff.mp ends
    exact ends_iff.mpr ⟨(halted _).trans stopped, count, same count⟩

end Brainfuck.Machine
