import Brainfuck.Fault

/-! The tape: cells of 32 bits, a pointer to one of them, and the policy that decides what happens
where the pointer would leave the tape or a cell its range. -/

namespace Brainfuck

inductive OverflowPolicy
  /-- The pointer goes round the tape and cells go round the bytes. -/
  | classic
  /-- The pointer stays on the tape and cells stay within 32 bits; what would leave is a fault. -/
  | strict
  deriving DecidableEq, Repr

namespace OverflowPolicy

def name : OverflowPolicy → String
  | classic => "classic"
  | strict => "default"

def ofClassic (classic : Bool) : OverflowPolicy := if classic then .classic else .strict

def toggle : OverflowPolicy → OverflowPolicy
  | classic => strict
  | strict => classic

@[simp] theorem toggle_toggle (policy : OverflowPolicy) : policy.toggle.toggle = policy := by
  cases policy <;> rfl

end OverflowPolicy

/-- Which tapes there is room for, by their number of cells. -/
structure Allocator where
  grants : Nat → Bool

/-- Room for every tape whose cells can be addressed. -/
def Allocator.ample : Allocator := ⟨fun _ => true⟩

@[ext]
structure Tape where
  cells : Array UInt32
  pointer : Nat
  policy : OverflowPolicy
  pointer_lt : pointer < cells.size

namespace Tape

/-- The greatest number of four-byte cells within `2^63 - 1` bytes. -/
def maxLength : Nat := 9223372036854775807 / 4

/-- A tape of `length` zeros with the pointer at the first, if there is room for it. -/
def create (allocator : Allocator) (length : Nat) (policy : OverflowPolicy) : Except Fault Tape :=
  if h : length = 0 then .error .noCells
  else if maxLength < length ∨ allocator.grants length = false then .error (.tapeTooLong length)
  else .ok ⟨Array.replicate length 0, 0, policy, by simpa using Nat.pos_of_ne_zero h⟩

variable (tape : Tape)

@[inline] def length : Nat := tape.cells.size

@[inline] def last : Nat := tape.cells.size - 1

@[inline] def current : UInt32 := getElem tape.cells tape.pointer tape.pointer_lt

/-- Stores a value in the cell under the pointer; any value fits. -/
@[inline] def store (value : UInt32) : Tape :=
  ⟨tape.cells.set tape.pointer value tape.pointer_lt, tape.pointer, tape.policy,
    by simpa using tape.pointer_lt⟩

/-- Zeros every cell and returns the pointer to the first. -/
def reset : Tape :=
  ⟨Array.replicate tape.cells.size 0, 0, tape.policy, by
    simpa using Nat.zero_lt_of_lt tape.pointer_lt⟩

@[inline] def moveLeft : Except Fault Tape :=
  if tape.pointer = 0 then
    match tape.policy with
    | .classic => .ok { tape with
        pointer := tape.cells.size - 1
        pointer_lt := Nat.sub_one_lt_of_lt tape.pointer_lt }
    | .strict => .error (.offTape .left 0)
  else .ok { tape with
    pointer := tape.pointer - 1
    pointer_lt := Nat.lt_of_le_of_lt (Nat.sub_le ..) tape.pointer_lt }

@[inline] def moveRight : Except Fault Tape :=
  if h : tape.cells.size - 1 ≤ tape.pointer then
    match tape.policy with
    | .classic => .ok { tape with
        pointer := 0
        pointer_lt := Nat.zero_lt_of_lt tape.pointer_lt }
    | .strict => .error (.offTape .right (tape.cells.size - 1))
  else .ok { tape with
    pointer := tape.pointer + 1
    pointer_lt := by omega }

@[inline] def move : Direction → Except Fault Tape
  | .left => tape.moveLeft
  | .right => tape.moveRight

/-- Adds one to the current cell.  On a classic tape 255 is followed by 0, and so is every greater
value. -/
@[inline] def increment : Except Fault Tape :=
  match tape.policy with
  | .classic => .ok (tape.store (if 255 ≤ tape.current then 0 else tape.current + 1))
  | .strict =>
    if tape.current = 0xFFFFFFFF then .error (.cellAtMaximum tape.pointer)
    else .ok (tape.store (tape.current + 1))

/-- Takes one from the current cell.  On a classic tape 0 is followed by 255. -/
@[inline] def decrement : Except Fault Tape :=
  match tape.policy with
  | .classic => .ok (tape.store (if tape.current = 0 then 255 else tape.current - 1))
  | .strict =>
    if tape.current = 0 then .error (.cellAtMinimum tape.pointer)
    else .ok (tape.store (tape.current - 1))

inductive Operation
  | move (direction : Direction)
  | increment
  | decrement
  | reset
  | store (value : UInt32)
  deriving DecidableEq, Repr

def perform : Operation → Except Fault Tape
  | .move direction => tape.move direction
  | .increment => tape.increment
  | .decrement => tape.decrement
  | .reset => .ok tape.reset
  | .store value => .ok (tape.store value)

theorem length_pos : 0 < tape.length := Nat.zero_lt_of_lt tape.pointer_lt

@[simp] theorem length_store (value : UInt32) : (tape.store value).length = tape.length := by
  simp [store, length]

@[simp] theorem policy_store (value : UInt32) : (tape.store value).policy = tape.policy := rfl

@[simp] theorem pointer_store (value : UInt32) : (tape.store value).pointer = tape.pointer := rfl

@[simp] theorem current_store (value : UInt32) : (tape.store value).current = value := by
  simp [store, current]

theorem getElem?_store_of_ne {index : Nat} (value : UInt32) (ne : index ≠ tape.pointer) :
    (tape.store value).cells[index]? = tape.cells[index]? := by
  simp [store, ne.symm]

@[simp] theorem length_reset : tape.reset.length = tape.length := by
  simp [reset, length]

@[simp] theorem policy_reset : tape.reset.policy = tape.policy := rfl

@[simp] theorem pointer_reset : tape.reset.pointer = 0 := rfl

variable {tape} {allocator : Allocator}

theorem create_eq_ok {length : Nat} {policy : OverflowPolicy}
    (created : create allocator length policy = .ok tape) :
    tape.length = length ∧ tape.policy = policy ∧ tape.pointer = 0 := by
  unfold create at created
  split at created
  · contradiction
  split at created
  · contradiction
  cases created
  simp [Tape.length]

theorem length_le_of_create {length : Nat} {policy : OverflowPolicy}
    (created : create allocator length policy = .ok tape) : 1 ≤ length ∧ length ≤ maxLength := by
  unfold create at created
  split at created
  · contradiction
  next some_cells =>
    split at created
    · contradiction
    next few =>
      rw [not_or] at few
      exact ⟨Nat.pos_of_ne_zero some_cells, Nat.le_of_not_lt few.1⟩

theorem exists_create {length : Nat} (some_cells : 0 < length) (few : length ≤ maxLength)
    (room : allocator.grants length) (policy : OverflowPolicy) :
    ∃ tape, create allocator length policy = .ok tape := by
  unfold create
  rw [dif_neg (Nat.ne_of_gt some_cells), if_neg (by simp [room, few])]
  exact ⟨_, rfl⟩

/-- A new tape is what a reset leaves of any tape of its length and policy. -/
theorem create_eq_reset {length : Nat} {policy : OverflowPolicy} {other : Tape}
    (created : create allocator length policy = .ok tape) (same_length : other.length = length)
    (same_policy : other.policy = policy) : other.reset = tape := by
  unfold create at created
  split at created
  · contradiction
  split at created
  · contradiction
  cases created
  subst same_length same_policy
  rfl

/-- No operation changes the length of a tape or its policy. -/
theorem perform_eq_ok {operation : Operation} {after : Tape}
    (performed : tape.perform operation = .ok after) :
    after.length = tape.length ∧ after.policy = tape.policy := by
  cases operation with
  | move direction =>
    cases direction <;> simp only [perform, move, moveLeft, moveRight] at performed <;>
      split at performed <;> try split at performed
    all_goals cases performed <;> exact ⟨rfl, rfl⟩
  | increment =>
    simp only [perform, increment] at performed
    split at performed <;> try split at performed
    all_goals cases performed <;> simp
  | decrement =>
    simp only [perform, decrement] at performed
    split at performed <;> try split at performed
    all_goals cases performed <;> simp
  | reset => cases performed; simp
  | store value => cases performed; simp

theorem moveLeft_eq_error_iff {fault : Fault} : tape.moveLeft = .error fault ↔
    tape.policy = .strict ∧ tape.pointer = 0 ∧ fault = .offTape .left 0 := by
  unfold moveLeft
  by_cases first : tape.pointer = 0
  · cases policy : tape.policy <;> simp [first, eq_comm]
  · simp [first]

theorem moveRight_eq_error_iff {fault : Fault} : tape.moveRight = .error fault ↔
    tape.policy = .strict ∧ tape.pointer = tape.last ∧ fault = .offTape .right tape.last := by
  have inside := tape.pointer_lt
  have last_iff : tape.cells.size - 1 ≤ tape.pointer ↔ tape.pointer = tape.cells.size - 1 := by
    omega
  unfold moveRight last
  by_cases at_last : tape.pointer = tape.cells.size - 1
  · cases policy : tape.policy <;> simp [at_last, eq_comm]
  · simp [last_iff, at_last]

theorem increment_eq_error_iff {fault : Fault} : tape.increment = .error fault ↔
    tape.policy = .strict ∧ tape.current = 0xFFFFFFFF ∧ fault = .cellAtMaximum tape.pointer := by
  unfold increment
  by_cases maximum : tape.current = 0xFFFFFFFF
  · cases policy : tape.policy <;> simp [maximum, eq_comm]
  · cases policy : tape.policy <;> simp [maximum]

theorem decrement_eq_error_iff {fault : Fault} : tape.decrement = .error fault ↔
    tape.policy = .strict ∧ tape.current = 0 ∧ fault = .cellAtMinimum tape.pointer := by
  unfold decrement
  by_cases minimum : tape.current = 0
  · cases policy : tape.policy <;> simp [minimum, eq_comm]
  · cases policy : tape.policy <;> simp [minimum]

variable (tape)

/-- The cells that are not zero, with their indexes, in order. -/
def nonzero : List (Nat × UInt32) :=
  tape.cells.toList.zipIdx.filterMap fun (value, index) =>
    if value = 0 then none else some (index, value)

end Tape
end Brainfuck
