import Brainfuck.Proofs.Course

/-! How long a run can be.  Only a jump from a `]` leads back, so between two of them the run has no
more instructions to execute than the program has characters. -/

namespace Brainfuck

namespace Machine

/-- The next instruction is a `]` that jumps. -/
def JumpsBack (machine : Machine) : Prop :=
  machine.halted = false ∧ machine.instruction? = some (.loop .closing) ∧
    machine.tape.current ≠ 0 ∧ (machine.program.partner? machine.position .closing).isSome

instance {machine : Machine} : Decidable machine.JumpsBack :=
  inferInstanceAs (Decidable (_ ∧ _ ∧ _ ∧ _))

variable {σ : Type} {feed : Feed σ} {state : Machine × σ} {machine : Machine} {count target : Nat}
  {bracket : Bracket}

/-- How many of the next `count` instructions are jumps from a `]`. -/
def jumpsBack (feed : Feed σ) (count : Nat) (state : Machine × σ) : Nat :=
  (List.range count).countP fun earlier => (after feed earlier state).1.JumpsBack

theorem jumpsBack_succ : jumpsBack feed (count + 1) state =
    jumpsBack feed count state + if (after feed count state).1.JumpsBack then 1 else 0 := by
  simp [jumpsBack, List.range_succ, List.countP_append, List.countP_singleton]

/-- The jumps from a `]` in the log. -/
def backward (machine : Machine) : Nat :=
  machine.log.jumps.countP fun jump => machine.program[jump.1]? = some ']'

theorem JumpsBack.exists_loop (back : machine.JumpsBack) :
    ∃ opening, machine.program.Loop opening machine.position := by
  obtain ⟨-, executes, -, found⟩ := back
  obtain ⟨opening, found⟩ := Option.isSome_iff_exists.mp found
  have partners := Program.partner?_eq_some_iff.mp found
  exact ⟨opening, (Program.partners_closing_iff (getElem?_of_loop executes)).mp partners⟩

theorem jumpsBack_of_taken (running : machine.halted = false)
    (executes : machine.instruction? = some (.loop .closing))
    (taken : Bracket.closing.taken machine.tape.current)
    (partners : machine.program.Partners machine.position .closing target) : machine.JumpsBack := by
  refine ⟨running, executes, by simpa [Bracket.taken] using taken, ?_⟩
  rw [Program.partner?_eq_some_iff.mpr partners]
  rfl

theorem advance_of_jump (running : state.1.halted = false)
    (executes : state.1.instruction? = some (.loop bracket))
    (taken : bracket.taken state.1.tape.current)
    (partners : state.1.program.Partners state.1.position bracket target) :
    advance feed state = (state.1.jumped (.ok target), state.2) := by
  rw [advance_of_running running, executes]
  simp only [taken, if_true, jump, Program.target_eq_ok_iff.mpr partners]

/-- An instruction that does not fail leads on, unless it jumps back. -/
theorem position_lt_advance (running : state.1.halted = false) (onward : ¬ state.1.JumpsBack)
    (sound : (advance feed state).1.fault = none) :
    state.1.position < (advance feed state).1.position := by
  cases moves_advance feed running with
  | stops failed position tape jumps => exact absurd sound failed
  | next sound position jumps comment pass => omega
  | @jumps bracket target sound executes taken partners position tape jumps =>
    cases bracket with
    | opening =>
      have loop := (Program.partners_opening_iff (getElem?_of_loop executes)).mp partners
      have lt := loop.lt
      omega
    | closing => exact absurd (jumpsBack_of_taken running executes taken partners) onward

theorem backward_advance : (advance feed state).1.backward =
    state.1.backward + if state.1.JumpsBack then 1 else 0 := by
  have same (jumps : (advance feed state).1.log.jumps = state.1.log.jumps) :
      (advance feed state).1.backward = state.1.backward := by
    rw [backward, program_advance, jumps, backward]
  have pushed {bracket : Bracket} (target : Nat)
      (executes : state.1.instruction? = some (.loop bracket))
      (jumps : (advance feed state).1.log.jumps =
        state.1.log.jumps.push (state.1.position, target)) :
      (advance feed state).1.backward = state.1.backward + if bracket.char = ']' then 1 else 0 := by
    rw [backward, program_advance, jumps, Array.countP_push, getElem?_of_loop executes, ← backward]
    simp
  split
  next back =>
    obtain ⟨running, executes, current, found⟩ := back
    obtain ⟨opening, found⟩ := Option.isSome_iff_exists.mp found
    have taken : Bracket.closing.taken state.1.tape.current := by simpa [Bracket.taken]
    refine pushed opening executes ?_
    rw [advance_of_jump running executes taken (Program.partner?_eq_some_iff.mp found)]
    rfl
  next onward =>
    cases running : state.1.halted with
    | true => rw [advance_of_halted running, Nat.add_zero]
    | false =>
      cases moves_advance feed running with
      | stops failed position tape jumps => exact same jumps
      | next sound position jumps comment pass => exact same jumps
      | @jumps bracket target sound executes taken partners position tape jumps =>
        cases bracket with
        | opening => exact pushed target executes jumps
        | closing => exact absurd (jumpsBack_of_taken running executes taken partners) onward

/-- The log has the jumps from a `]` that have been taken. -/
theorem backward_after : (after feed count state).1.backward =
    state.1.backward + jumpsBack feed count state := by
  induction count with
  | zero => rfl
  | succ count ih => rw [after_succ', backward_advance, ih, jumpsBack_succ, Nat.add_assoc]

/-- The number of instructions executed, as long as none has failed.  A jump back is paid for by
the length of the program. -/
theorem count_le_of_running (running : (after feed count state).1.halted = false) :
    count ≤ jumpsBack feed count state * state.1.program.size +
      (after feed count state).1.position := by
  induction count with
  | zero => exact Nat.zero_le _
  | succ count ih =>
    have before := running_of_le running (Nat.le_succ count)
    have le := ih before
    have inside := position_lt_size before
    have sound := fault_of_running running
    rw [program_after] at inside
    rw [after_succ'] at sound
    rw [after_succ', jumpsBack_succ]
    split
    next back =>
      rw [Nat.add_one_mul]
      omega
    next onward =>
      have lt := position_lt_advance before onward sound
      simp only [Nat.add_zero]
      omega

theorem count_le (running : ∀ earlier < count, (after feed earlier state).1.halted = false) :
    count ≤ (jumpsBack feed count state + 1) * state.1.program.size := by
  cases count with
  | zero => exact Nat.zero_le _
  | succ count =>
    have before := running count (Nat.lt_succ_self count)
    have le := count_le_of_running before
    have inside := position_lt_size before
    rw [program_after] at inside
    calc count + 1
      _ ≤ (jumpsBack feed count state + 1) * state.1.program.size := by
        rw [Nat.add_one_mul]
        omega
      _ ≤ _ := by
        rw [jumpsBack_succ, Nat.add_right_comm]
        exact Nat.mul_le_mul_right _ (Nat.le_add_right ..)

/-- Without loops no jump leads back. -/
theorem jumpsBack_eq_zero (forward : ∀ opening closing, ¬ state.1.program.Loop opening closing) :
    jumpsBack feed count state = 0 := by
  refine List.countP_eq_zero.mpr fun earlier _ back => ?_
  obtain ⟨opening, loop⟩ := (of_decide_eq_true back).exists_loop
  rw [program_after] at loop
  exact forward opening _ loop

section EmptyLoop

variable {opening : Nat} (loop : state.1.program.Loop opening (opening + 1))
  (sound : state.1.fault = none) (position : state.1.position = opening + 1)

include loop sound position

theorem running_of_empty : state.1.halted = false := by
  have inside := Program.lt_size loop.closes
  rw [← position] at inside
  exact halted_eq_false_iff.mpr ⟨sound, inside⟩

variable (current : state.1.tape.current ≠ 0)

include current

theorem advance_of_empty : (advance feed state).1.tape = state.1.tape ∧
    (advance feed state).1.fault = none ∧ (advance feed state).1.position = opening + 1 := by
  have closes : state.1.program[state.1.position]? = some (Bracket.char .closing) :=
    position ▸ loop.closes
  have partners : state.1.program.Partners state.1.position .closing opening := by
    rw [Program.partners_closing_iff closes, position]
    exact loop
  have running := running_of_empty loop sound position
  have taken : Bracket.closing.taken state.1.tape.current := by simpa [Bracket.taken]
  rw [advance_of_jump running (instruction?_of_getElem? closes) taken partners]
  exact ⟨rfl, sound, rfl⟩

/-- At the `]` of a loop with nothing inside the run stays, unless the cell is zero. -/
theorem after_of_empty (feed : Feed σ) (count : Nat) :
    (after feed count state).1.tape = state.1.tape ∧
    (after feed count state).1.fault = none ∧
    (after feed count state).1.position = opening + 1 := by
  induction count with
  | zero => exact ⟨rfl, sound, position⟩
  | succ count ih =>
    obtain ⟨tape, sound, position⟩ := ih
    have again : (after feed count state).1.program.Loop opening (opening + 1) := by
      rwa [program_after]
    rw [← tape] at current
    rw [after_succ', ← tape]
    exact advance_of_empty again sound position current

theorem not_ends_of_empty : ¬ ∃ final, Ends feed state final := by
  rintro ⟨final, ends⟩
  obtain ⟨halted, count, rfl⟩ := ends_iff.mp ends
  obtain ⟨-, sound, position⟩ := after_of_empty loop sound position current feed count
  have again : (after feed count state).1.program.Loop opening (opening + 1) := by
    rwa [program_after]
  rw [running_of_empty again sound position] at halted
  contradiction

end EmptyLoop

end Machine

/-- A run has executed at most as many instructions as the program has characters for each jump it
has taken from a `]`, and as many again.  A run that does not end takes such jumps without bound,
and a program without loops is behind its end, or has failed, after as many instructions as it has
characters.  The log tells how many such jumps have been taken. -/
theorem executed_le_of_jumpsBack (machine : Machine) {σ : Type} (feed : Feed σ) (source : σ) :
    let start := (machine.rewind, source)
    let length := machine.program.size
    let back (count : Nat) := Machine.jumpsBack feed count start
    (∀ count, (∀ earlier < count, (Machine.after feed earlier start).1.halted = false) →
      count ≤ (back count + 1) * length) ∧
    ((¬ ∃ final, Machine.Ends feed start final) → ∀ bound, ∃ count, bound ≤ back count) ∧
    ((∀ opening closing, ¬ machine.program.Loop opening closing) →
      ∃ final, Machine.runFor feed length start = some final) ∧
    ∀ count, (Machine.after feed count start).1.backward = back count := by
  intro start length back
  refine ⟨fun count running => Machine.count_le running, fun endless bound => ?_,
    fun forward => ?_, fun count => Machine.backward_after.trans (Nat.zero_add _)⟩
  · have running (count : Nat) : (Machine.after feed count start).1.halted = false := by
      by_contra halted
      rw [Bool.not_eq_false] at halted
      exact endless ⟨_, Machine.ends_iff.mpr ⟨halted, count, rfl⟩⟩
    refine ⟨bound * length + 1, ?_⟩
    have le := Machine.count_le fun earlier (_ : earlier < bound * length + 1) => running earlier
    exact Nat.le_of_lt_succ (Nat.lt_of_mul_lt_mul_right (Nat.lt_of_succ_le le))
  · refine ⟨_, Machine.runFor_eq_some_iff.mpr ⟨rfl, ?_⟩⟩
    by_contra running
    rw [Bool.not_eq_true] at running
    have le := Machine.count_le_of_running running
    have inside := Machine.position_lt_size running
    rw [Machine.jumpsBack_eq_zero forward, Nat.zero_mul, Nat.zero_add] at le
    rw [Machine.program_after] at inside
    exact absurd (Nat.lt_of_le_of_lt le inside) (Nat.lt_irrefl _)

/-- `+++[-]` executes ten instructions and jumps back twice, `+[]` has no end, and the brackets of
`]+[` do not match. -/
theorem executed_le_of_jumpsBack_of_countdown :
    let feed : Feed Unit := fun _ => (.error "closed", ())
    let makes (program : String) (machine : Machine) :=
      Machine.create .ample (Program.ofString program) {} = .ok machine
    (∃ machine, makes "+++[-]" machine ∧
      (∀ earlier < 10, (Machine.after feed earlier (machine.rewind, ())).1.halted = false) ∧
      Machine.jumpsBack feed 10 (machine.rewind, ()) = 2 ∧ 10 ≤ (2 + 1) * 6) ∧
    (∃ machine, makes "+[]" machine ∧
      (¬ ∃ final, Machine.Ends feed (machine.rewind, ()) final) ∧
      ∃ count, 1000000 ≤ Machine.jumpsBack feed count (machine.rewind, ())) ∧
    ∃ machine, makes "]+[" machine ∧
      (∀ opening closing, ¬ machine.program.Loop opening closing) ∧
      ∃ final, Machine.runFor feed 3 (machine.rewind, ()) = some final := by
  intro feed makes
  have created (program : String) : ∃ machine, makes program machine := ⟨_, rfl⟩
  refine ⟨?countdown, ?endless, ?forward⟩
  case countdown =>
    obtain ⟨machine, created⟩ := created "+++[-]"
    have shown : machine.program.size = 6 ∧
        (∀ earlier < 10, (Machine.after feed earlier (machine.rewind, ())).1.halted = false) ∧
        Machine.jumpsBack feed 10 (machine.rewind, ()) = 2 := by
      cases created
      decide +kernel
    obtain ⟨length, running, twice⟩ := shown
    obtain ⟨bounded, -, -, -⟩ := executed_le_of_jumpsBack machine feed ()
    have le := bounded 10 running
    simp only [twice, length] at le
    exact ⟨machine, created, running, twice, le⟩
  case endless =>
    obtain ⟨machine, created⟩ := created "+[]"
    have shown : (let now := (Machine.after feed 2 (machine.rewind, ())).1
        (now.fault, now.position, now.tape.current)) = (none, 2, 1) ∧
        machine.program.target 2 .closing = .ok 1 ∧ machine.program[2]? = some ']' := by
      cases created
      exact ⟨by decide +kernel, rfl, rfl⟩
    obtain ⟨now, found, closes⟩ := shown
    simp only [Prod.mk.injEq] at now
    obtain ⟨sound, position, current⟩ := now
    have loop := (Program.partners_closing_iff closes).mp (Program.target_eq_ok_iff.mp found)
    have endless : ¬ ∃ final, Machine.Ends feed (machine.rewind, ()) final := by
      rintro ⟨final, ends⟩
      refine Machine.not_ends_of_empty ?_ sound position (by rw [current]; decide)
        ⟨final, Machine.ends_after_iff.mpr ends⟩
      rwa [Machine.program_after]
    obtain ⟨-, unbounded, -, -⟩ := executed_le_of_jumpsBack machine feed ()
    exact ⟨machine, created, endless, unbounded endless 1000000⟩
  case forward =>
    obtain ⟨machine, created⟩ := created "]+["
    have shown : machine.program.size = 3 ∧
        ∀ closing < 3, machine.program[closing]? = some ']' → closing = 0 := by
      cases created
      decide +kernel
    obtain ⟨length, first⟩ := shown
    have forward (opening closing : Nat) : ¬ machine.program.Loop opening closing := by
      intro loop
      have inside := Program.lt_size loop.closes
      rw [length] at inside
      have := first closing inside loop.closes
      have := loop.lt
      omega
    obtain ⟨-, -, ends, -⟩ := executed_le_of_jumpsBack machine feed ()
    rw [length] at ends
    exact ⟨machine, created, forward, ends forward⟩

end Brainfuck
