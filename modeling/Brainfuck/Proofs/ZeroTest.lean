import Brainfuck.Proofs.Comments
import Brainfuck.Proofs.Course

/-! The test of the cell at the ends of a loop.  However a run has come behind a bracket, the cell
is one on which that bracket does not jump: zero behind a `]` and not zero behind a `[`.  Comments
do not change it, so a loop that follows another is passed over. -/

namespace Brainfuck

theorem Bracket.taken_partner (bracket : Bracket) (cell : UInt32) :
    bracket.partner.taken cell = !bracket.taken cell := by
  cases bracket <;> simp [Bracket.partner, Bracket.taken]

namespace Program

variable {program : Program} {opening closing position partner : Nat}

/-- A loop that is not entered is not jumped into. -/
theorem Loop.outside_of_paired (loop : program.Loop opening closing)
    (paired : program.Paired position partner) (outside : position < opening ∨ closing < position) :
    partner < opening ∨ closing < partner := by
  have distinct {index : Nat} (opens : program[index]? = some '[')
      (closes : program[index]? = some ']') : False := by
    rw [opens] at closes
    contradiction
  by_contra inside
  rw [not_or, Nat.not_lt, Nat.not_lt] at inside
  obtain ⟨le, le'⟩ := inside
  obtain loop' | loop' := paired
  · have lt := loop'.lt
    have before : position < opening := by omega
    rcases Nat.eq_or_lt_of_le le with rfl | lt'
    · exact distinct loop.opens loop'.closes
    · have := loop'.nested loop before lt'
      omega
  · have lt := loop'.lt
    have behind : closing < position := by omega
    rcases Nat.eq_or_lt_of_le le with rfl | lt'
    · exact absurd (loop.closing_unique loop') (Nat.ne_of_lt behind)
    · rcases Nat.eq_or_lt_of_le le' with rfl | lt''
      · exact distinct loop'.opens loop.closes
      · have := loop.nested loop' lt' lt''
        omega

end Program

/-- Where only comments stand between a bracket and the position, the cell is one on which the
bracket does not jump. -/
def Tested (machine : Machine) : Prop :=
  ∀ bracket start, start < machine.position →
    machine.program[start]? = some (Bracket.char bracket) →
    machine.program.NoCodeBetween start machine.position →
    bracket.taken machine.tape.current = false

namespace Tested

variable {machine behind : Machine} {last : Nat}

/-- Right behind an instruction only the instruction matters. -/
theorem behind_code (position : behind.position = last + 1) (code : behind.program.IsCodeAt last)
    (passed : ∀ bracket, behind.program[last]? = some (Bracket.char bracket) →
      bracket.taken behind.tape.current = false) : Tested behind := by
  intro bracket start lt at_start comments
  rw [position] at lt comments
  rcases Nat.eq_or_lt_of_le (Nat.le_of_lt_succ lt) with rfl | before
  · exact passed bracket at_start
  · exact absurd code (comments last before (Nat.lt_succ_self last))

theorem of_moves (tested : Tested machine) (moves : Moves machine behind)
    (program : behind.program = machine.program) : Tested behind := by
  cases moves with
  | stops failed position tape jumps =>
    rw [Tested, program, position, tape]
    exact tested
  | next sound position jumps comment pass =>
    cases executes : machine.instruction? with
    | none =>
      intro bracket start lt at_start comments
      rw [program] at at_start comments
      rw [position] at lt comments
      rw [comment executes]
      rcases Nat.eq_or_lt_of_le (Nat.le_of_lt_succ lt) with rfl | before
      · cases executes.symm.trans (Machine.instruction?_of_getElem? at_start)
      · exact tested bracket start before at_start fun index lt lt' =>
          comments index lt (Nat.lt_succ_of_lt lt')
    | some instruction =>
      refine behind_code position (program ▸ Machine.isCodeAt_of_instruction executes)
        fun bracket at_bracket => ?_
      rw [program] at at_bracket
      obtain ⟨straight, tape⟩ := pass bracket (Machine.instruction?_of_getElem? at_bracket)
      rw [tape]
      exact straight
  | @jumps bracket target sound executes taken partners position tape jumps =>
    -- The run stands behind the other end of the loop, which does not jump where this one does.
    have at_target := partners.at_partner
    rw [← program] at at_target
    refine behind_code position ⟨_, at_target, isCode_char _⟩ fun bracket' at_target' => ?_
    obtain rfl : bracket.partner = bracket' := by
      have same := congrArg Bracket.ofChar? (Option.some.inj (at_target.symm.trans at_target'))
      simpa using same
    rw [tape, Bracket.taken_partner, taken]
    rfl

theorem current_eq_zero {first : Nat} (tested : Tested machine) (lt : first < machine.position)
    (closes : machine.program[first]? = some ']')
    (comments : machine.program.NoCodeBetween first machine.position) :
    machine.tape.current = 0 := by
  simpa [Bracket.taken] using tested .closing first lt closes comments

theorem current_ne_zero {first : Nat} (tested : Tested machine) (lt : first < machine.position)
    (opens : machine.program[first]? = some '[')
    (comments : machine.program.NoCodeBetween first machine.position) :
    machine.tape.current ≠ 0 := by
  simpa [Bracket.taken] using tested .opening first lt opens comments

end Tested

namespace Machine

variable {σ : Type} {feed : Feed σ} {state : Machine × σ}

theorem tested_advance (tested : Tested state.1) : Tested (advance feed state).1 := by
  cases running : state.1.halted with
  | true => rwa [advance_of_halted running]
  | false => exact tested.of_moves (moves_advance feed running) program_advance

theorem tested_after (tested : Tested state.1) (feed : Feed σ) (count : Nat) :
    Tested (after feed count state).1 :=
  after_preserves (fun state => Tested state.1) tested (fun _ => tested_advance) count

theorem tested_rewind (machine : Machine) : Tested machine.rewind :=
  fun _ start lt => absurd lt (Nat.not_lt_zero start)

/-- The position is neither in the body of a loop nor at its `]`. -/
def Outside (opening closing : Nat) (machine : Machine) : Prop :=
  machine.position ≤ opening ∨ closing < machine.position

variable {opening closing : Nat}

/-- A `[` at which the cell is zero leads behind its loop, or fails. -/
theorem skipped_advance (feed : Feed σ)
    (opens : state.1.program[state.1.position]? = some '[') (zero : state.1.tape.current = 0) :
    (advance feed state).1.position = state.1.position ∨
      ∃ closing, state.1.program.Loop state.1.position closing ∧
        (advance feed state).1.position = closing + 1 := by
  have executes : state.1.instruction? = some (.loop .opening) := instruction?_of_getElem? opens
  cases running : state.1.halted with
  | true => exact .inl (by rw [advance_of_halted running])
  | false =>
    cases moves_advance feed running with
    | stops failed position tape jumps => exact .inl position
    | next sound position jumps comment pass =>
      obtain ⟨straight, -⟩ := pass .opening executes
      simp [Bracket.taken, zero] at straight
    | @jumps bracket target sound executes' taken partners position tape jumps =>
      cases executes.symm.trans executes'
      exact .inr ⟨target, (Program.partners_opening_iff opens).mp partners, position⟩

/-- No other instruction leads into a loop either. -/
theorem outside_advance (loop : state.1.program.Loop opening closing)
    (zero : state.1.position = opening → state.1.tape.current = 0)
    (outside : Outside opening closing state.1) :
    Outside opening closing (advance feed state).1 := by
  unfold Outside at outside ⊢
  by_cases at_opening : state.1.position = opening
  · subst at_opening
    obtain stays | ⟨closing', loop', behind⟩ := skipped_advance feed loop.opens (zero rfl)
    · exact .inl (Nat.le_of_eq stays)
    · have := loop.closing_unique loop'
      omega
  · cases running : state.1.halted with
    | true => rwa [advance_of_halted running]
    | false =>
      cases moves_advance feed running with
      | stops failed position tape jumps => rwa [position]
      | next sound position jumps comment pass => omega
      | @jumps bracket target sound executes taken partners position tape jumps =>
        have paired := (Program.paired_iff_partners (getElem?_of_loop executes)).mpr partners
        have away := loop.outside_of_paired paired (by omega)
        omega

/-- Behind a loop a `[` is not entered by a run that starts outside. -/
theorem outside_after {first : Nat} (tested : Tested state.1)
    (loop : state.1.program.Loop opening closing) (lt : first < opening)
    (closes : state.1.program[first]? = some ']')
    (comments : state.1.program.NoCodeBetween first opening)
    (outside : Outside opening closing state.1) (feed : Feed σ) (count : Nat) :
    Outside opening closing (after feed count state).1 := by
  induction count with
  | zero => exact outside
  | succ count ih =>
    rw [after_succ']
    refine outside_advance ?_ (fun at_opening => ?_) ih
    · rwa [program_after]
    · subst at_opening
      have same_program : (after feed count state).1.program = state.1.program := program_after
      rw [← same_program] at closes comments
      exact (tested_after tested feed count).current_eq_zero lt closes comments

end Machine

/-- Behind a `]` the cell is zero and behind a `[` it is not, however the run has come there.  So a
loop that follows another one, with comments between, is passed over at its `[`, and the run is
never in its body. -/
theorem zero_test_passed (machine : Machine) {σ : Type} (feed : Feed σ) (source : σ)
    (count : Nat) :
    let program := machine.program
    let now := Machine.after feed count (machine.rewind, source)
    (∀ start, now.1.position = start + 1 →
      (program[start]? = some ']' → now.1.tape.current = 0) ∧
      (program[start]? = some '[' → now.1.tape.current ≠ 0)) ∧
    ∀ first opening, first < opening → program[first]? = some ']' →
      program.NoCodeBetween first opening → program[opening]? = some '[' →
      (now.1.position = opening → now.1.tape.current = 0 ∧
        (Machine.advance feed now).1.position ≠ opening + 1) ∧
      ∀ closing, program.Loop opening closing →
        now.1.position ≤ opening ∨ closing < now.1.position := by
  intro program now
  have tested : Tested now.1 := Machine.tested_after (Machine.tested_rewind machine) feed count
  have same_program : now.1.program = program := Machine.program_after
  constructor
  · intro start position
    have lt : start < now.1.position := by omega
    have comments : now.1.program.NoCodeBetween start now.1.position := by
      intro index after before
      omega
    rw [← same_program]
    exact ⟨fun closes => tested.current_eq_zero lt closes comments,
      fun opens => tested.current_ne_zero lt opens comments⟩
  · intro first opening lt closes comments opens
    refine ⟨fun position => ?_, fun closing loop => ?_⟩
    · rw [← same_program] at closes comments opens
      subst position
      have zero := tested.current_eq_zero lt closes comments
      refine ⟨zero, ?_⟩
      obtain stays | ⟨closing, loop, behind⟩ := Machine.skipped_advance feed opens zero
      · omega
      · have := loop.lt
        omega
    · exact Machine.outside_after (Machine.tested_rewind machine) loop lt closes comments
        (.inl (Nat.zero_le opening)) feed count

/-- In `+[-]x[.]` the cell is one behind the first `[`, zero behind its `]`, and zero at the second
`[`, which is passed over. -/
theorem zero_test_passed_of_note :
    let program := Program.ofString "+[-]x[.]"
    let feed := Feed.ofList (.error "closed")
    ∃ machine, Machine.create .ample program {} = .ok machine ∧
      let now (count : Nat) := Machine.after feed count (machine.rewind, [])
      ((now 2).1.position = 2 ∧ (now 2).1.tape.current ≠ 0) ∧
      ((now 4).1.position = 4 ∧ (now 4).1.tape.current = 0) ∧
      program.NoCodeBetween 3 5 ∧ (now 5).1.position = 5 ∧ (now 5).1.tape.current = 0 ∧
      (Machine.advance feed (now 5)).1.position ≠ 6 := by
  intro program feed
  obtain ⟨machine, created⟩ : ∃ machine, Machine.create .ample program {} = .ok machine :=
    ⟨_, rfl⟩
  refine ⟨machine, created, ?_⟩
  intro now
  have tested := zero_test_passed machine feed []
  obtain ⟨tape, -, rfl⟩ := Machine.create_eq_ok_iff.mp created
  have positions : (now 2).1.position = 2 ∧ (now 4).1.position = 4 ∧ (now 5).1.position = 5 := by
    cases created
    decide +kernel
  obtain ⟨position_2, position_4, position_5⟩ := positions
  have comments : program.NoCodeBetween 3 5 := by decide +kernel
  have entered := ((tested 2).1 1 position_2).2 rfl
  have left := ((tested 4).1 3 position_4).1 rfl
  obtain ⟨zero, skipped⟩ := ((tested 5).2 3 5 (by decide) rfl comments rfl).1 position_5
  exact ⟨⟨position_2, entered⟩, ⟨position_4, left⟩, comments, position_5, zero, skipped⟩

end Brainfuck
