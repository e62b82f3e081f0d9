import Brainfuck.Proofs.Invariant
import Brainfuck.Proofs.Simulation

/-! The strict and the classic policy.  They differ where the pointer would leave the tape, where a
cell would leave its range, and at a `+` on a cell of 255 or more.  Until a strict run comes to such
an instruction, the classic one keeps step with it. -/

namespace Brainfuck

/-- The faults that the strict policy raises and the classic one does not. -/
def Fault.isOverflow : Fault → Bool
  | offTape .. | cellAtMaximum _ | cellAtMinimum _ => true
  | _ => false

namespace Tape

variable {tape after : Tape} {operation : Operation} {fault : Fault}

def relaxed (tape : Tape) : Tape := { tape with policy := .classic }

theorem create_classic {allocator : Allocator} {length : Nat} :
    create allocator length .classic = (create allocator length .strict).map relaxed := by
  unfold create
  split
  · rfl
  · split <;> rfl

theorem isOverflow_of_perform (failed : tape.perform operation = .error fault) :
    fault.isOverflow := by
  cases operation with
  | move direction =>
    cases direction with
    | left =>
      obtain ⟨-, -, rfl⟩ := moveLeft_eq_error_iff.mp failed
      rfl
    | right =>
      obtain ⟨-, -, rfl⟩ := moveRight_eq_error_iff.mp failed
      rfl
  | increment =>
    obtain ⟨-, -, rfl⟩ := increment_eq_error_iff.mp failed
    rfl
  | decrement =>
    obtain ⟨-, -, rfl⟩ := decrement_eq_error_iff.mp failed
    rfl
  | reset => contradiction
  | store value => contradiction

/-- What a strict tape can do a classic one does as well, if it does not add to 255 or more. -/
theorem perform_relaxed (strict : tape.policy = .strict)
    (performed : tape.perform operation = .ok after)
    (small : operation = .increment → tape.current < 255) :
    tape.relaxed.perform operation = .ok after.relaxed := by
  cases operation with
  | move direction =>
    cases direction with
    | left =>
      have inside : tape.pointer ≠ 0 := by
        intro first
        have failed := moveLeft_eq_error_iff.mpr ⟨strict, first, rfl⟩
        rw [perform, move, failed] at performed
        contradiction
      simp only [perform, move, moveLeft, inside, if_false] at performed
      cases performed
      exact if_neg inside
    | right =>
      have inside : ¬ tape.cells.size - 1 ≤ tape.pointer := by
        intro le
        have last : tape.pointer = tape.last :=
          Nat.le_antisymm (Nat.le_sub_one_of_lt tape.pointer_lt) le
        have failed := moveRight_eq_error_iff.mpr ⟨strict, last, rfl⟩
        rw [perform, move, failed] at performed
        contradiction
      simp only [perform, move, moveRight, inside, dite_false] at performed
      cases performed
      exact dif_neg inside
  | increment =>
    have below : ¬ 255 ≤ tape.current := UInt32.not_le.mpr (small rfl)
    simp only [perform, increment, strict] at performed
    split at performed
    · contradiction
    · cases performed
      have added : tape.relaxed.perform .increment =
          .ok (tape.store (if 255 ≤ tape.current then 0 else tape.current + 1)).relaxed := rfl
      rw [added, if_neg below]
  | decrement =>
    simp only [perform, decrement, strict] at performed
    split at performed
    · contradiction
    next above =>
      cases performed
      have taken : tape.relaxed.perform .decrement =
          .ok (tape.store (if tape.current = 0 then 255 else tape.current - 1)).relaxed := rfl
      rw [taken, if_neg above]
  | reset =>
    cases performed
    rfl
  | store value =>
    cases performed
    rfl

end Tape

namespace Machine

variable {σ : Type} {feed : Feed σ} {state : Machine × σ} {count : Nat}

def relaxed (machine : Machine) : Machine :=
  { machine with settings.policy := .classic, tape := machine.tape.relaxed }

/-- The next instruction does something that is not the same under the classic policy: it comes to a
limit of the strict one, or adds to a cell of 255 or more. -/
def Exceeds (feed : Feed σ) (state : Machine × σ) : Prop :=
  state.1.halted = false ∧
    ((advance feed state).1.fault.any Fault.isOverflow ∨
      state.1.instruction? = some .increment ∧ 255 ≤ state.1.tape.current)

instance : Decidable (Exceeds feed state) := inferInstanceAs (Decidable (_ ∧ (_ ∨ _ ∧ _)))

theorem not_exceeds_of_halted (halted : (after feed count state).1.halted)
    (within : ∀ earlier < count, ¬ Exceeds feed (after feed earlier state)) (earlier : Nat) :
    ¬ Exceeds feed (after feed earlier state) := by
  rcases Nat.lt_or_ge earlier count with lt | ge
  · exact within earlier lt
  · obtain ⟨more, rfl⟩ := Nat.exists_eq_add_of_le ge
    rw [after_add, after_of_halted halted]
    rintro ⟨running, -⟩
    rw [halted] at running
    contradiction

theorem create_classic {allocator : Allocator} {program : Program} {settings : Settings} :
    create allocator program { settings with policy := .classic } =
      (create allocator program { settings with policy := .strict }).map relaxed := by
  simp only [create, Tape.create_classic]
  cases Tape.create allocator settings.tapeLength .strict <;> rfl

theorem keeps_relaxed (strict : state.1.tape.policy = .strict) (running : state.1.halted = false)
    (within : ¬ Exceeds feed state) : Keeps relaxed state.1 where
  running := running
  instruction := rfl
  current := rfl
  input := rfl
  next := rfl
  operated instruction operation executes stands := by
    cases performed : state.1.tape.perform operation with
    | ok tape =>
      have small : operation = .increment → state.1.tape.current < 255 := by
        rintro rfl
        obtain rfl : instruction = .increment := by cases instruction <;> cases stands; rfl
        by_contra large
        exact within ⟨running, .inr ⟨executes, UInt32.not_lt.mp large⟩⟩
      rw [show state.1.relaxed.tape = state.1.tape.relaxed from rfl,
        Tape.perform_relaxed strict performed small]
      rfl
    | error fault =>
      have failed : (advance feed state).1.fault = some fault := by
        rw [advance_of_operation running executes stands, performed]
        rfl
      have overflows := Tape.isOverflow_of_perform performed
      exact absurd ⟨running, .inl (by rw [failed]; exact overflows)⟩ within
  write := by
    rw [write, write, show state.1.relaxed.settings.output = state.1.settings.output from rfl,
      show state.1.relaxed.tape.current = state.1.tape.current from rfl]
    cases state.1.settings.output.encode state.1.tape.current <;> rfl
  supply value := by cases value <;> rfl
  jump bracket _ := by
    rw [jump, jump, show state.1.relaxed.program.target state.1.relaxed.position bracket =
      state.1.program.target state.1.position bracket from rfl]
    cases state.1.program.target state.1.position bracket <;> rfl

theorem after_relaxed (fitted : Fitted state.1) (strict : state.1.settings.policy = .strict)
    (within : ∀ earlier < count, ¬ Exceeds feed (after feed earlier state)) :
    after feed count (viewState relaxed state) = viewState relaxed (after feed count state) := by
  refine after_viewState fun earlier lt => ?_
  refine advance_viewState (fun halted => halted) fun running => ?_
  have still_strict : (after feed earlier state).1.tape.policy = .strict := by
    rw [(fitted_after fitted feed earlier).policy, settings_after, strict]
  exact keeps_relaxed still_strict running (within earlier lt)

end Machine

/-- Two runs have come to the same, on tapes that may have different policies. -/
structure InStep {σ : Type} (state state' : Machine × σ) : Prop where
  position : state.1.position = state'.1.position
  cells : state.1.tape.cells = state'.1.tape.cells
  pointer : state.1.tape.pointer = state'.1.tape.pointer
  output : state.1.output = state'.1.output
  fault : state.1.fault = state'.1.fault
  log : state.1.log = state'.1.log
  source : state.2 = state'.2

theorem inStep_relaxed {σ : Type} (state : Machine × σ) :
    InStep state (Machine.viewState Machine.relaxed state) :=
  ⟨rfl, rfl, rfl, rfl, rfl, rfl, rfl⟩

/-- The classic run of a program keeps step with the strict one as long as the strict one does not
come to a limit or add to a cell of 255 or more.  So a strict run that ends without is the classic
run too. -/
theorem inStep_of_not_exceeds (allocator : Allocator) (program : Program) (settings : Settings)
    {σ : Type} (feed : Feed σ) (source : σ) :
    (∃ fault, Machine.create allocator program { settings with policy := .strict } = .error fault ∧
      Machine.create allocator program { settings with policy := .classic } = .error fault) ∨
    ∃ strict classic,
      Machine.create allocator program { settings with policy := .strict } = .ok strict ∧
      Machine.create allocator program { settings with policy := .classic } = .ok classic ∧
      (∀ count, (∀ earlier < count,
          ¬ Machine.Exceeds feed (Machine.after feed earlier (strict, source))) →
        InStep (Machine.after feed count (strict, source))
          (Machine.after feed count (classic, source))) ∧
      ∀ final, Machine.Ends feed (strict, source) final →
        (∀ count, ¬ Machine.Exceeds feed (Machine.after feed count (strict, source))) →
        ∃ final', Machine.Ends feed (classic, source) final' ∧
          final.1.result = final'.1.result ∧ InStep final final' := by
  rw [Machine.create_classic]
  cases created : Machine.create allocator program { settings with policy := .strict } with
  | error fault => exact .inl ⟨fault, rfl, rfl⟩
  | ok strict =>
    have fitted := Machine.fitted_of_create created
    have policy : strict.settings.policy = .strict := by
      obtain ⟨tape, -, rfl⟩ := Machine.create_eq_ok_iff.mp created
      rfl
    refine .inr ⟨strict, strict.relaxed, rfl, rfl, fun count within => ?_, ?_⟩
    · have step := inStep_relaxed (Machine.after feed count (strict, source))
      rw [← Machine.after_relaxed fitted policy within] at step
      exact step
    · intro final ends within
      obtain ⟨halted, count, rfl⟩ := Machine.ends_iff.mp ends
      have same : Machine.after feed count (strict.relaxed, source) = _ :=
        Machine.after_relaxed fitted policy fun earlier _ => within earlier
      exact ⟨Machine.viewState Machine.relaxed (Machine.after feed count (strict, source)),
        Machine.ends_iff.mpr ⟨halted, count, same⟩, rfl, inStep_relaxed _⟩

/-- A cell of 254 grows to 255, and a `]` without partner ends the run. -/
theorem inStep_of_not_exceeds_at_limit :
    let program := Program.ofString ",+.]"
    let feed := Feed.ofList (.error "closed")
    let answers : List Answer := [.ok "þ"]
    ∃ strict classic final final',
      Machine.create .ample program { policy := .strict } = .ok strict ∧
      Machine.create .ample program { policy := .classic } = .ok classic ∧
      (∀ count, ¬ Machine.Exceeds feed (Machine.after feed count (strict, answers))) ∧
      Machine.Ends feed (strict, answers) final ∧ final.1.fault = some (.unmatched .closing) ∧
      Machine.Ends feed (classic, answers) final' ∧ final.1.result = final'.1.result ∧
      InStep final final' := by
  intro program feed answers
  obtain ⟨fault, failed, -⟩ | ⟨strict, classic, created, created', -, ended⟩ :=
    inStep_of_not_exceeds .ample program {} feed answers
  · contradiction
  have shown : (Machine.after feed 4 (strict, answers)).1.halted ∧
      (Machine.after feed 4 (strict, answers)).1.fault = some (.unmatched .closing) ∧
      ∀ earlier < 4, ¬ Machine.Exceeds feed (Machine.after feed earlier (strict, answers)) := by
    cases created
    decide +kernel
  obtain ⟨halted, faulty, within⟩ := shown
  have within := Machine.not_exceeds_of_halted halted within
  have ends := Machine.ends_iff.mpr ⟨halted, 4, rfl⟩
  obtain ⟨final', ends', same_result, step⟩ := ended _ ends within
  exact ⟨strict, classic, _, final', created, created', within, ends, faulty, ends', same_result,
    step⟩

end Brainfuck
