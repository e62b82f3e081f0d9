import Brainfuck.Machine
import Brainfuck.Proofs.Unbounded

/-! The strict tape does what a tape without limits does, as long as the pointer stays on its cells
and what is written into a cell is a number of 32 bits.  Any other operation fails with the limit
that it would pass, and leaves the tape as it was. -/

namespace Brainfuck

namespace Unbounded

variable (length : Nat) (ideal : Unbounded)

/-- The pointer is on one of the first cells, so many as there are, and this cell has 32 bits. -/
def Fits : Prop :=
  (0 ≤ ideal.pointer ∧ ideal.pointer ≤ length - 1) ∧
    0 ≤ ideal.current ∧ ideal.current ≤ 0xFFFFFFFF

instance : Decidable (Fits length ideal) := inferInstanceAs (Decidable (_ ∧ _))

/-- The limit that is passed, if one is. -/
def fault? : Option Fault :=
  if ideal.pointer < 0 then some (.offTape .left 0)
  else if length - 1 < ideal.pointer then some (.offTape .right (length - 1))
  else if ideal.current < 0 then some (.cellAtMinimum ideal.pointer.toNat)
  else if 0xFFFFFFFF < ideal.current then some (.cellAtMaximum ideal.pointer.toNat)
  else none

/-- An operation that is done only if it keeps to the limits. -/
def attempt (operation : Tape.Operation) : Unbounded :=
  if (ideal.perform operation).Fits length then ideal.perform operation else ideal

variable {length ideal}

theorem fits_iff : ideal.Fits length ↔ ideal.fault? length = none := by
  unfold Fits fault?
  constructor
  · rintro ⟨on_tape, in_cell⟩
    rw [if_neg (by omega), if_neg (by omega), if_neg (by omega), if_neg (by omega)]
  · grind

end Unbounded

namespace Tape

/-- The tape that an operation leaves, whether it is done or fails. -/
def attempt (tape : Tape) (operation : Operation) : Tape :=
  match tape.perform operation with
  | .ok after => after
  | .error _ => tape

variable {tape after : Tape} {operation : Operation} {fault : Fault}

theorem pointer_range : 0 ≤ tape.unbounded.pointer ∧ tape.unbounded.pointer ≤ tape.length - 1 := by
  have inside : tape.pointer < tape.length := tape.pointer_lt
  rw [pointer_unbounded]
  omega

/-- A tape keeps to its limits, whatever is on it. -/
theorem fits_unbounded : tape.unbounded.Fits tape.length :=
  ⟨tape.pointer_range, tape.cells_unbounded_range _⟩

theorem fault?_store (value : Int) : (tape.unbounded.store value).fault? tape.length =
    if value < 0 then some (.cellAtMinimum tape.pointer)
    else if 0xFFFFFFFF < value then some (.cellAtMaximum tape.pointer) else none := by
  have range := tape.pointer_range
  rw [Unbounded.fault?, Unbounded.pointer_store, Unbounded.current_store, if_neg (by omega),
    if_neg (by omega), pointer_unbounded, Int.toNat_natCast]

/-- A strict tape does what the tape without limits does, or fails with the limit that this one
passes. -/
theorem perform_strict (strict : tape.policy = .strict) (operation : Operation) :
    (∃ after, tape.perform operation = .ok after ∧
      after.unbounded = tape.unbounded.perform operation) ∨
    ∃ fault, tape.perform operation = .error fault ∧
      (tape.unbounded.perform operation).fault? tape.length = some fault := by
  have inside : tape.pointer < tape.length := tape.pointer_lt
  have last_eq : tape.last = tape.length - 1 := rfl
  cases operation with
  | move direction =>
    cases direction with
    | left =>
      by_cases first : tape.pointer = 0
      · have below : (tape.pointer : Int) - 1 < 0 := by omega
        exact .inr ⟨_, moveLeft_eq_error_iff.mpr ⟨strict, first, rfl⟩, if_pos below⟩
      · have moved : ((tape.pointer - 1 : Nat) : Int) = tape.pointer - 1 := by omega
        exact .inl ⟨_, if_neg first, Unbounded.ext moved rfl⟩
    | right =>
      by_cases at_last : tape.pointer = tape.last
      · have not_below : ¬ (tape.pointer : Int) + 1 < 0 := by omega
        have above : (tape.length : Int) - 1 < tape.pointer + 1 := by omega
        refine .inr ⟨_, moveRight_eq_error_iff.mpr ⟨strict, at_last, rfl⟩, ?_⟩
        exact (if_neg not_below).trans (if_pos above)
      · have before_last : ¬ tape.last ≤ tape.pointer := by omega
        exact .inl ⟨_, dif_neg before_last, Unbounded.ext rfl rfl⟩
  | increment =>
    by_cases maximum : tape.current = 0xFFFFFFFF
    · refine .inr ⟨_, increment_eq_error_iff.mpr ⟨strict, maximum, rfl⟩, ?_⟩
      rw [Unbounded.perform, fault?_store, current_unbounded, maximum]
      rfl
    · refine .inl ⟨tape.store (tape.current + 1), ?_, ?_⟩
      · simp only [perform, increment, strict, maximum, if_false]
      · rw [unbounded_store, toNat_add_one_of_ne maximum, Unbounded.perform, current_unbounded]
        rfl
  | decrement =>
    by_cases minimum : tape.current = 0
    · refine .inr ⟨_, decrement_eq_error_iff.mpr ⟨strict, minimum, rfl⟩, ?_⟩
      rw [Unbounded.perform, fault?_store, current_unbounded, minimum]
      rfl
    · refine .inl ⟨tape.store (tape.current - 1), ?_, ?_⟩
      · simp only [perform, decrement, strict, minimum, if_false]
      · rw [unbounded_store, toNat_sub_one_of_ne minimum, Unbounded.perform, current_unbounded]
  | reset => exact .inl ⟨tape.reset, rfl, unbounded_reset⟩
  | store value => exact .inl ⟨tape.store value, rfl, unbounded_store value⟩

theorem unbounded_of_perform (strict : tape.policy = .strict)
    (performed : tape.perform operation = .ok after) :
    after.unbounded = tape.unbounded.perform operation := by
  rcases perform_strict strict operation with ⟨other, performed', same⟩ | ⟨fault, failed, -⟩
  · cases performed.symm.trans performed'
    exact same
  · cases performed.symm.trans failed

theorem fits_of_perform (strict : tape.policy = .strict)
    (performed : tape.perform operation = .ok after) :
    (tape.unbounded.perform operation).Fits tape.length := by
  rw [← unbounded_of_perform strict performed, ← (perform_eq_ok performed).1]
  exact after.fits_unbounded

theorem perform_eq_error_iff (strict : tape.policy = .strict) :
    tape.perform operation = .error fault ↔
      (tape.unbounded.perform operation).fault? tape.length = some fault := by
  rcases perform_strict strict operation with ⟨after, performed, -⟩ | ⟨other, failed, passed⟩
  · rw [performed, Unbounded.fits_iff.mp (fits_of_perform strict performed)]
    simp
  · rw [failed, passed, Except.error.injEq, Option.some.injEq]

theorem exists_perform_iff_fits (strict : tape.policy = .strict) :
    (∃ after, tape.perform operation = .ok after) ↔
      (tape.unbounded.perform operation).Fits tape.length := by
  rcases perform_strict strict operation with ⟨after, performed, -⟩ | ⟨fault, failed, passed⟩
  · exact iff_of_true ⟨after, performed⟩ (fits_of_perform strict performed)
  · rw [failed, Unbounded.fits_iff, passed]
    simp

theorem attempt_of_ok (performed : tape.perform operation = .ok after) :
    tape.attempt operation = after := by
  rw [attempt, performed]

theorem attempt_of_error (failed : tape.perform operation = .error fault) :
    tape.attempt operation = tape := by
  rw [attempt, failed]

/-- Done or not, an operation leaves what the same attempt leaves of the tape without limits. -/
theorem attempt_strict (strict : tape.policy = .strict) (operation : Operation) :
    (tape.attempt operation).unbounded = tape.unbounded.attempt tape.length operation ∧
      (tape.attempt operation).length = tape.length ∧
      (tape.attempt operation).policy = .strict := by
  rw [Unbounded.attempt]
  split
  next fits =>
    obtain ⟨after, performed⟩ := (exists_perform_iff_fits strict).mpr fits
    obtain ⟨length, policy⟩ := perform_eq_ok performed
    rw [attempt_of_ok performed]
    exact ⟨unbounded_of_perform strict performed, length, policy.trans strict⟩
  next unfit =>
    cases performed : tape.perform operation with
    | ok after => exact absurd ((exists_perform_iff_fits strict).mp ⟨after, performed⟩) unfit
    | error fault =>
      rw [attempt_of_error performed]
      exact ⟨rfl, rfl, strict⟩

/-- So do any number of operations, those behind failed ones among them. -/
theorem foldl_attempt (strict : tape.policy = .strict) (operations : List Operation) :
    (operations.foldl attempt tape).unbounded =
        operations.foldl (Unbounded.attempt tape.length) tape.unbounded ∧
      (operations.foldl attempt tape).length = tape.length ∧
      (operations.foldl attempt tape).policy = .strict := by
  induction operations generalizing tape with
  | nil => exact ⟨rfl, rfl, strict⟩
  | cons operation rest ih =>
    obtain ⟨same, length, policy⟩ := attempt_strict strict operation
    have behind := ih policy
    rwa [length, same] at behind

end Tape

/-- A machine keeps the tape that the attempt leaves. -/
theorem Machine.tape_operated (machine : Machine) (operation : Tape.Operation) :
    (machine.operated (machine.tape.perform operation)).tape = machine.tape.attempt operation := by
  rw [Tape.attempt]
  cases machine.tape.perform operation <;> rfl

/-- A strict tape is at every moment what the same attempts make of a tape without limits.  Its next
operation is done if what this one would become fits, and then the tape becomes it.  If not, the
operation fails with the limit that would be passed, and the tape stays what it was. -/
theorem perform_iff_fits {allocator : Allocator} {length : Nat} (some_cells : 0 < length)
    (few : length ≤ Tape.maxLength) (room : allocator.grants length)
    (attempted : List Tape.Operation) :
    ∃ start, Tape.create allocator length .strict = .ok start ∧
      let tape := attempted.foldl Tape.attempt start
      tape.unbounded = attempted.foldl (Unbounded.attempt length) Unbounded.blank ∧
      tape.length = length ∧ tape.policy = .strict ∧
      ∀ operation, let ideal := tape.unbounded.perform operation
        ((∃ after, tape.perform operation = .ok after) ↔ ideal.Fits length) ∧
        (∀ after, tape.perform operation = .ok after → tape.attempt operation = after ∧
          after.unbounded = ideal ∧ after.length = length ∧ after.policy = .strict) ∧
        (∀ fault, tape.perform operation = .error fault ↔ ideal.fault? length = some fault) ∧
        (∀ fault, tape.perform operation = .error fault → tape.attempt operation = tape) ∧
        ∀ machine : Machine, machine.tape = tape →
          (machine.operated (tape.perform operation)).tape = tape.attempt operation := by
  obtain ⟨start, created⟩ := Tape.exists_create some_cells few room .strict
  obtain ⟨start_length, start_policy, -⟩ := Tape.create_eq_ok created
  obtain ⟨same, same_length, strict⟩ := Tape.foldl_attempt start_policy attempted
  rw [start_length] at same same_length
  rw [Tape.unbounded_of_create created] at same
  refine ⟨start, created, same, same_length, strict, fun operation => ?_⟩
  generalize attempted.foldl Tape.attempt start = tape at same_length strict
  subst same_length
  refine ⟨Tape.exists_perform_iff_fits strict, fun after performed => ?_,
    fun fault => Tape.perform_eq_error_iff strict, fun fault => Tape.attempt_of_error, ?_⟩
  · obtain ⟨length, policy⟩ := Tape.perform_eq_ok performed
    exact ⟨Tape.attempt_of_ok performed, Tape.unbounded_of_perform strict performed, length,
      policy.trans strict⟩
  · rintro machine rfl
    exact machine.tape_operated operation

/-- Both cells are at a limit, and the pointer is where it stopped. -/
theorem perform_iff_fits_at_limits :
    let attempted : List Tape.Operation := [.move .left, .decrement, .store 0xFFFFFFFF, .increment,
      .move .right, .move .right]
    ∃ start, Tape.create .ample 2 .strict = .ok start ∧
      let tape := attempted.foldl Tape.attempt start
      tape.cells.toList = [0xFFFFFFFF, 0] ∧ tape.pointer = 1 ∧
      ¬ (tape.unbounded.perform .decrement).Fits 2 ∧
      tape.perform .decrement = .error (.cellAtMinimum 1) ∧ tape.attempt .decrement = tape ∧
      ∃ after, tape.perform .increment = .ok after ∧
        after.unbounded = tape.unbounded.perform .increment := by
  intro attempted
  obtain ⟨start, created, -, -, -, outcome⟩ :=
    @perform_iff_fits .ample 2 (by decide) (by decide) rfl attempted
  refine ⟨start, created, ?_⟩
  intro tape
  have reached : tape.cells.toList = [0xFFFFFFFF, 0] ∧ tape.pointer = 1 ∧
      (tape.unbounded.perform .decrement).fault? 2 = some (.cellAtMinimum 1) ∧
      (tape.unbounded.perform .increment).Fits 2 := by
    cases created
    decide +kernel
  obtain ⟨cells, pointer, passed, fits⟩ := reached
  obtain ⟨-, -, failed_iff, unchanged, -⟩ := outcome .decrement
  obtain ⟨after, incremented⟩ := (outcome .increment).1.mpr fits
  have failed := (failed_iff _).mpr passed
  have unfit : ¬ (tape.unbounded.perform .decrement).Fits 2 := by
    rw [Unbounded.fits_iff, passed]
    exact Option.some_ne_none _
  exact ⟨cells, pointer, unfit, failed, unchanged _ failed, after, incremented,
    ((outcome .increment).2.1 after incremented).2.1⟩

end Brainfuck
