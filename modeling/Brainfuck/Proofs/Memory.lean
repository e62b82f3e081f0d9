import Brainfuck.Proofs.Failure
import Brainfuck.Proofs.Simulation

/-! More memory.  Under the strict policy nothing but a `>` at the last cell asks how long the tape
is.  So a run on a longer tape keeps step with a run on a shorter one until that one runs out of
tape, with zeros in the cells that the shorter tape does not have. -/

namespace Brainfuck

namespace Tape

variable {tape tape' after : Tape} {operation : Operation} {extra : Nat}

/-- The tape with zeros behind its last cell. -/
def widen (extra : Nat) (tape : Tape) : Tape where
  cells := tape.cells ++ Array.replicate extra 0
  pointer := tape.pointer
  policy := tape.policy
  pointer_lt := by
    rw [Array.size_append]
    exact Nat.lt_add_right _ tape.pointer_lt

@[simp] theorem current_widen : (tape.widen extra).current = tape.current := by
  simp [current, widen, Array.getElem_append_left tape.pointer_lt]

@[simp] theorem store_widen (value : UInt32) :
    (tape.widen extra).store value = (tape.store value).widen extra := by
  simp [store, widen, Array.set_append_left tape.pointer_lt]

theorem reset_widen : (tape.widen extra).reset = tape.reset.widen extra := by
  simp [reset, widen]

theorem create_widen {allocator : Allocator} {length more : Nat} {policy : OverflowPolicy}
    (le : length ≤ more)
    (created : create allocator length policy = .ok tape)
    (created' : create allocator more policy = .ok tape') :
    tape' = tape.widen (more - length) := by
  obtain ⟨rfl, rfl, -⟩ := create_eq_ok created
  have same := create_eq_reset created rfl rfl
  have wide : (tape.widen (more - tape.length)).length = more := by
    simp only [Tape.length, widen, Array.size_append, Array.size_replicate] at le ⊢
    omega
  rw [← create_eq_reset created' wide rfl, reset_widen, same]

/-- What a strict tape can do a longer one does as well, if it is not moved off its right end. -/
theorem perform_widen (strict : tape.policy = .strict)
    (within : ∀ bound, tape.perform operation ≠ .error (.offTape .right bound)) :
    (tape.widen extra).perform operation = (tape.perform operation).map (widen extra) := by
  have policy : (tape.widen extra).policy = .strict := strict
  cases operation with
  | move direction =>
    cases direction with
    | left =>
      simp only [perform, move, moveLeft, policy, strict, show (tape.widen extra).pointer =
        tape.pointer from rfl]
      split <;> rfl
    | right =>
      -- The one operation that asks for the length: both tapes have a cell on the right.
      have inside : ¬ tape.cells.size - 1 ≤ tape.pointer := by
        intro le
        have last : tape.pointer = tape.last :=
          Nat.le_antisymm (Nat.le_sub_one_of_lt tape.pointer_lt) le
        exact within _ (moveRight_eq_error_iff.mpr ⟨strict, last, rfl⟩)
      have inside' : ¬ (tape.widen extra).cells.size - 1 ≤ (tape.widen extra).pointer := by
        simp only [widen, Array.size_append]
        omega
      rw [perform, move, moveRight, dif_neg inside', perform, move, moveRight, dif_neg inside]
      rfl
  | increment =>
    simp only [perform, increment, policy, strict, current_widen, store_widen, show
      (tape.widen extra).pointer = tape.pointer from rfl]
    split <;> rfl
  | decrement =>
    simp only [perform, decrement, policy, strict, current_widen, store_widen, show
      (tape.widen extra).pointer = tape.pointer from rfl]
    split <;> rfl
  | reset => exact congrArg Except.ok reset_widen
  | store value => exact congrArg Except.ok (store_widen value)

end Tape

namespace Machine

variable {σ : Type} {feed : Feed σ} {state final : Machine × σ} {count extra : Nat}
  {machine : Machine}

/-- The machine on a tape with zeros behind its last cell. -/
def widen (extra : Nat) (machine : Machine) : Machine :=
  { machine with
    settings.tapeLength := machine.settings.tapeLength + extra
    tape := machine.tape.widen extra }

/-- The machine has failed because it was to go beyond the last cell. -/
def RunOut (machine : Machine) : Prop := ∃ bound, machine.fault = some (.offTape .right bound)

theorem not_runOut_of_running (running : machine.halted = false) : ¬ machine.RunOut := by
  rintro ⟨bound, failed⟩
  rw [fault_of_running running] at failed
  contradiction

theorem create_widen {allocator : Allocator} {program : Program} {settings : Settings}
    {length : Nat} {narrow wide : Machine} (le : settings.tapeLength ≤ length)
    (created : create allocator program settings = .ok narrow)
    (created' : create allocator program { settings with tapeLength := length } = .ok wide) :
    wide = narrow.widen (length - settings.tapeLength) := by
  obtain ⟨tape, built, rfl⟩ := create_eq_ok_iff.mp created
  obtain ⟨tape', built', rfl⟩ := create_eq_ok_iff.mp created'
  rw [Tape.create_widen le built built', widen, Nat.add_sub_cancel' le]

theorem keeps_widen (strict : state.1.tape.policy = .strict) (running : state.1.halted = false)
    (within : ¬ (advance feed state).1.RunOut) : Keeps (widen extra) state.1 where
  running := running
  instruction := rfl
  current := Tape.current_widen
  input := rfl
  next := rfl
  operated instruction operation executes stands := by
    have inside : ∀ bound, state.1.tape.perform operation ≠ .error (.offTape .right bound) := by
      intro bound failed
      refine within ⟨bound, ?_⟩
      rw [advance_of_operation running executes stands, failed]
      rfl
    rw [show (widen extra state.1).tape = state.1.tape.widen extra from rfl,
      Tape.perform_widen strict inside]
    cases state.1.tape.perform operation <;> rfl
  write := by
    rw [write, write, show (widen extra state.1).settings.output = state.1.settings.output from rfl,
      show (widen extra state.1).tape.current = state.1.tape.current from Tape.current_widen]
    cases state.1.settings.output.encode state.1.tape.current <;> rfl
  supply value := by
    cases value with
    | error fault => rfl
    | ok value =>
      have stored : (state.1.tape.widen extra).store value =
          (state.1.tape.store value).widen extra := Tape.store_widen value
      simp only [supply, widen, stored]
  jump bracket _ := by
    rw [jump, jump, show (widen extra state.1).program.target (widen extra state.1).position
      bracket = state.1.program.target state.1.position bracket from rfl]
    cases state.1.program.target state.1.position bracket <;> rfl

theorem after_widen (fitted : Fitted state.1) (strict : state.1.settings.policy = .strict)
    (within : ∀ earlier < count, ¬ (after feed (earlier + 1) state).1.RunOut) :
    after feed count (viewState (widen extra) state) =
      viewState (widen extra) (after feed count state) := by
  refine after_viewState fun earlier lt => ?_
  refine advance_viewState (fun halted => halted) fun running => ?_
  have still_strict : (after feed earlier state).1.tape.policy = .strict := by
    rw [(fitted_after fitted feed earlier).policy, settings_after, strict]
  exact keeps_widen still_strict running (after_succ' ▸ within earlier lt)

theorem after_widen_of_enough (fitted : Fitted state.1)
    (strict : state.1.settings.policy = .strict)
    (enough : ∀ final, Ends feed state final → ¬ final.1.RunOut) (extra count : Nat) :
    after feed count (viewState (widen extra) state) =
      viewState (widen extra) (after feed count state) := by
  refine after_widen fitted strict fun earlier _ => ?_
  rintro ⟨bound, failed⟩
  exact enough _ (ends_iff.mpr ⟨halted_of_fault failed, _, rfl⟩) ⟨bound, failed⟩

/-- A run that runs out does so at its last instruction. -/
theorem Ends.exists_runOut (ends : Ends feed state final) (fitted : Fitted state.1)
    (strict : state.1.settings.policy = .strict) (sound : state.1.fault = none)
    (out : final.1.RunOut) (extra : Nat) :
    ∃ count, after feed (count + 1) state = final ∧ (after feed count state).1.halted = false ∧
      ∀ earlier ≤ count, after feed earlier (viewState (widen extra) state) =
        viewState (widen extra) (after feed earlier state) := by
  obtain ⟨count, rfl, running⟩ := ends.exists_running
  cases count with
  | zero =>
    obtain ⟨bound, failed⟩ := out
    rw [after_zero, sound] at failed
    contradiction
  | succ count =>
    refine ⟨count, rfl, running count (Nat.lt_succ_self _), fun earlier early => ?_⟩
    exact after_widen fitted strict fun before lt => not_runOut_of_running (running _ (by omega))

end Machine

/-- Two runs have come to the same, the second one with so many zeros behind the cells of the
first. -/
structure Widened {σ : Type} (extra : Nat) (state state' : Machine × σ) : Prop where
  position : state'.1.position = state.1.position
  cells : state'.1.tape.cells = state.1.tape.cells ++ Array.replicate extra 0
  pointer : state'.1.tape.pointer = state.1.tape.pointer
  output : state'.1.output = state.1.output
  fault : state'.1.fault = state.1.fault
  log : state'.1.log = state.1.log
  source : state'.2 = state.2

theorem widened_of_eq {σ : Type} {extra : Nat} {state state' : Machine × σ}
    (same : state' = Machine.viewState (Machine.widen extra) state) :
    Widened extra state state' := by
  rw [same]
  exact ⟨rfl, rfl, rfl, rfl, rfl, rfl, rfl⟩

/-- A strict run that does not run out of tape is the same on every longer tape, and one that does
is the same up to the instruction at which it runs out. -/
theorem widened_of_le {allocator : Allocator} {program : Program} {settings : Settings}
    {length : Nat} {narrow wide : Machine} (strict : settings.policy = .strict)
    (le : settings.tapeLength ≤ length)
    (created : Machine.create allocator program settings = .ok narrow)
    (created' : Machine.create allocator program { settings with tapeLength := length } = .ok wide)
    {σ : Type} (feed : Feed σ) (source : σ) :
    let extra := length - settings.tapeLength
    ((∀ final, Machine.Ends feed (narrow, source) final → ¬ final.1.RunOut) →
      (∀ count, Widened extra (Machine.after feed count (narrow, source))
        (Machine.after feed count (wide, source))) ∧
      ((∃ final, Machine.Ends feed (wide, source) final) ↔
        ∃ final, Machine.Ends feed (narrow, source) final) ∧
      ∀ final final', Machine.Ends feed (narrow, source) final →
        Machine.Ends feed (wide, source) final' →
        final'.1.result = final.1.result ∧ Widened extra final final') ∧
    ∀ final, Machine.Ends feed (narrow, source) final → final.1.RunOut →
      ∃ count, Machine.after feed (count + 1) (narrow, source) = final ∧
        (Machine.after feed count (narrow, source)).1.halted = false ∧
        ∀ earlier ≤ count, Widened extra (Machine.after feed earlier (narrow, source))
          (Machine.after feed earlier (wide, source)) := by
  intro extra
  have fitted := Machine.fitted_of_create created
  obtain rfl := Machine.create_widen le created created'
  obtain ⟨tape, -, rfl⟩ := Machine.create_eq_ok_iff.mp created
  refine ⟨fun enough => ?_, fun final ends out => ?_⟩
  · have same := Machine.after_widen_of_enough fitted strict enough extra
    refine ⟨fun count => widened_of_eq (same count), ⟨?_, ?_⟩, fun final final' ends ends' => ?_⟩
    · rintro ⟨final, ends⟩
      obtain ⟨final', ends', -⟩ := (Machine.ends_viewState_iff same fun _ => rfl).mp ends
      exact ⟨final', ends'⟩
    · rintro ⟨final, ends⟩
      exact ⟨_, (Machine.ends_viewState_iff same fun _ => rfl).mpr ⟨final, ends, rfl⟩⟩
    · obtain ⟨final'', ends'', rfl⟩ :=
        (Machine.ends_viewState_iff same fun _ => rfl).mp ends'
      obtain rfl := ends.unique ends''
      exact ⟨rfl, widened_of_eq rfl⟩
  · obtain ⟨count, reached, running, same⟩ := ends.exists_runOut fitted strict rfl out extra
    exact ⟨count, reached, running, fun earlier early => widened_of_eq (same earlier early)⟩

/-- A number is moved to the last of two cells, or to the second of five. -/
theorem widened_of_le_at_last_cell :
    let program := Program.ofString ",[->+<]>."
    let settings : Settings := { input := .numeric, output := .numeric, tapeLength := 2 }
    let feed := Feed.ofList (.error "closed")
    let answers : List Answer := [.ok "7"]
    ∃ narrow wide final final', Machine.create .ample program settings = .ok narrow ∧
      Machine.create .ample program { settings with tapeLength := 5 } = .ok wide ∧
      Machine.Ends feed (narrow, answers) final ∧ final.1.result = .ok "7" ∧
      Machine.Ends feed (wide, answers) final' ∧ final'.1.result = .ok "7" ∧
      final'.1.tape.cells = final.1.tape.cells ++ #[0, 0, 0] := by
  intro program settings feed answers
  obtain ⟨narrow, created⟩ : ∃ narrow, Machine.create .ample program settings = .ok narrow :=
    ⟨_, rfl⟩
  obtain ⟨wide, created'⟩ : ∃ wide,
    Machine.create .ample program { settings with tapeLength := 5 } = .ok wide := ⟨_, rfl⟩
  obtain ⟨enough, -⟩ := widened_of_le rfl (by decide) created created' feed answers
  have ran : (Machine.runFor feed 60 (narrow, answers)).map
      (fun final => (final.1.output, final.1.fault)) = some ("7", none) := by
    cases created
    decide +kernel
  obtain ⟨final, ends, shown⟩ := Machine.exists_ends_of_map ran
  simp only [Prod.mk.injEq] at shown
  have succeeded := Machine.result_eq_ok_iff.mpr ⟨shown.2, shown.1.symm⟩
  obtain ⟨-, ends_iff, same⟩ := enough fun other ends' out => by
    obtain rfl := ends.unique ends'
    obtain ⟨bound, failed⟩ := out
    rw [shown.2] at failed
    contradiction
  obtain ⟨final', ends'⟩ := ends_iff.mpr ⟨final, ends⟩
  obtain ⟨same_result, widened⟩ := same final final' ends ends'
  exact ⟨narrow, wide, final, final', created, created', ends, succeeded, ends',
    same_result.trans succeeded, widened.cells⟩

end Brainfuck
