import Mathlib.Data.List.DropRight
import Mathlib.Data.List.Induction
import Brainfuck.Proofs.Unbounded

/-! The classic tape is a ring of counters.  It does what a tape without limits does, with the
pointer modulo the length and the cells modulo 256.  So where the pointer is and what is in a cell
can be counted in the operations since the last reset. -/

namespace Brainfuck

namespace Tape.Operation

/-- How far an operation moves the pointer to the right. -/
def shift : Operation → Int
  | .move .left => -1
  | .move .right => 1
  | _ => 0

/-- What an operation makes of the number at the pointer. -/
def effect (number : Int) : Operation → Int
  | .increment => number + 1
  | .decrement => number - 1
  | .store value => value.toNat
  | _ => number

def stored? : Operation → Option UInt32
  | .store value => some value
  | _ => none

/-- The operations behind the last reset. -/
def sinceReset (operations : List Operation) : List Operation :=
  operations.rtakeWhile (· ≠ .reset)

/-- How far some operations move the pointer to the right, taken together. -/
def displacement (operations : List Operation) : Int :=
  operations.count (.move .right) - operations.count (.move .left)

/-- The operations done at one cell of a ring, if the first of all is done at its first cell. -/
def doneAt (length index : Nat) (operations : List Operation) : List Operation :=
  (operations.zipIdx.filter fun done =>
    displacement (operations.take done.2) % length = index).map Prod.fst

/-- The last value stored, or zero, with the increments behind it and without the decrements. -/
def total (operations : List Operation) : Int :=
  let sinceStore := operations.rtakeWhile (·.stored?.isNone)
  ((operations.filterMap stored?).getLastD 0).toNat + sinceStore.count .increment
    - sinceStore.count .decrement

variable {length index : Nat} {operations : List Operation} {operation : Operation}

theorem sinceReset_concat : sinceReset (operations ++ [operation]) =
    if operation = .reset then [] else sinceReset operations ++ [operation] := by
  rw [sinceReset, List.rtakeWhile_concat]
  by_cases reset : operation = .reset
  · simp [reset]
  · simp [reset, sinceReset]

theorem displacement_concat :
    displacement (operations ++ [operation]) = displacement operations + operation.shift := by
  cases operation with
  | move direction => cases direction <;> simp [displacement, shift] <;> omega
  | increment => simp [displacement, shift]
  | decrement => simp [displacement, shift]
  | reset => simp [displacement, shift]
  | store value => simp [displacement, shift]

theorem doneAt_concat : doneAt length index (operations ++ [operation]) =
    if displacement operations % length = index then doneAt length index operations ++ [operation]
    else doneAt length index operations := by
  have earlier : ∀ done ∈ operations.zipIdx,
      (operations ++ [operation]).take done.2 = operations.take done.2 := fun done among =>
    List.take_append_of_le_length (Nat.le_of_lt (List.snd_lt_of_mem_zipIdx among))
  have same : (operations.zipIdx.filter fun done =>
        displacement ((operations ++ [operation]).take done.2) % length = index) =
      operations.zipIdx.filter fun done =>
        displacement (operations.take done.2) % length = index :=
    List.filter_congr fun done among => by rw [earlier done among]
  rw [doneAt, List.zipIdx_append, List.filter_append, List.map_append, same, Nat.zero_add,
    List.zipIdx_singleton, List.filter_singleton, List.take_left]
  split
  next here => rw [decide_eq_true here]; rfl
  next elsewhere => rw [decide_eq_false elsewhere]; exact List.append_nil _

theorem total_concat : total (operations ++ [operation]) = operation.effect (total operations) := by
  cases operation with
  | move direction => simp [total, stored?, effect]
  | increment => simp [total, stored?, effect]; omega
  | decrement => simp [total, stored?, effect]; omega
  | reset => simp [total, stored?, effect]
  | store value => simp [total, stored?, effect]

/-- Of the number at the pointer no more counts than the remainder. -/
theorem effect_emod (number : Int) :
    operation.effect (number % 256) % 256 = operation.effect number % 256 := by
  cases operation <;> simp [effect]

end Tape.Operation

open Tape.Operation

namespace Unbounded

/-- The pointer modulo the length of a ring, and the cells modulo 256. -/
def modulo (length : Nat) (ideal : Unbounded) : Unbounded where
  pointer := ideal.pointer % length
  cells index := ideal.cells index % 256

variable {length : Nat} {ideal : Unbounded} {operation : Tape.Operation}

@[simp] theorem modulo_modulo : (ideal.modulo length).modulo length = ideal.modulo length := by
  simp only [modulo, Int.emod_emod]

theorem cells_emod (reduced : ideal.modulo length = ideal) (index : Int) :
    ideal.cells index % 256 = ideal.cells index :=
  congrFun (congrArg cells reduced) index

theorem modulo_blank : blank.modulo length = blank :=
  Unbounded.ext (Int.zero_emod _) rfl

/-- Where everything is reduced, a move leaves no more than the pointer to be reduced. -/
theorem modulo_move (reduced : ideal.modulo length = ideal) (pointer : Int) :
    { ideal with pointer }.modulo length = { ideal with pointer := pointer % length } := by
  simp only [modulo, cells_emod reduced]

/-- Where everything is reduced, a store leaves no more than its value to be reduced. -/
theorem modulo_store (reduced : ideal.modulo length = ideal) (value : Int) :
    (ideal.store value).modulo length = ideal.store (value % 256) := by
  have pointer : ideal.pointer % length = ideal.pointer := congrArg Unbounded.pointer reduced
  refine Unbounded.ext pointer (funext fun index => ?_)
  simp only [modulo, cells_store]
  split
  · rfl
  · exact cells_emod reduced index

/-- Any operation but a reset moves the pointer or changes the number there. -/
theorem perform_of_ne_reset (other : operation ≠ .reset) : ideal.perform operation =
    { ideal.store (operation.effect ideal.current) with
      pointer := ideal.pointer + operation.shift } := by
  have kept : ideal.store ideal.current = ideal :=
    Unbounded.ext rfl (Function.update_eq_self _ _)
  cases operation with
  | move direction =>
    cases direction <;> simp only [perform, effect, shift, kept, Int.sub_eq_add_neg]
  | increment => simp [perform, effect, shift, store]
  | decrement => simp [perform, effect, shift, store]
  | reset => contradiction
  | store value => simp [perform, effect, shift, store]

end Unbounded

namespace Tape

variable {tape after : Tape} {operation : Operation} {since : List Operation} {value : UInt32}

/-- Adding one to a byte as a classic tape does is adding one modulo 256. -/
theorem toNat_increment_classic (byte : value.toNat < 256) :
    ((if 255 ≤ value then 0 else value + 1).toNat : Int) = (value.toNat + 1) % 256 := by
  split
  next greatest =>
    have le : 255 ≤ value.toNat := UInt32.le_iff_toNat_le.mp greatest
    have same : value.toNat = 255 := by omega
    rw [same]
    rfl
  next smaller =>
    have lt : value.toNat < 255 := UInt32.lt_iff_toNat_lt.mp (UInt32.not_le.mp smaller)
    have other : value ≠ 0xFFFFFFFF := by
      rintro rfl
      contradiction
    rw [toNat_add_one_of_ne other]
    omega

/-- Taking one from a byte as a classic tape does is taking one modulo 256. -/
theorem toNat_decrement_classic (byte : value.toNat < 256) :
    ((if value = 0 then 255 else value - 1).toNat : Int) = (value.toNat - 1) % 256 := by
  split
  next zero =>
    rw [zero]
    rfl
  next positive =>
    have taken := toNat_sub_one_of_ne positive
    omega

/-- A place on a ring is the remainder of the numbers that lead to it with a turn or without. -/
theorem place_eq_emod {place length : Nat} {number : Int} (inside : place < length)
    (leads : number = place ∨ number + length = place ∨ number - length = place) :
    (place : Int) = number % length := by
  have remainder : (place : Int) % length = place := Int.emod_eq_of_lt (by omega) (by omega)
  rcases leads with rfl | forwards | backwards
  · exact remainder.symm
  · rw [← Int.add_emod_right, forwards, remainder]
  · rw [← Int.sub_emod_right, backwards, remainder]

/-- Going left from the first cell to the last is taking one modulo the length, and going right from
the last to the first is adding one. -/
theorem perform_move_classic (classic : tape.policy = .classic) (direction : Direction) :
    ∃ after, tape.perform (.move direction) = .ok after ∧ after.unbounded =
      { tape.unbounded with
        pointer := (tape.pointer + shift (.move direction)) % tape.length } := by
  obtain ⟨cells, pointer, policy, inside⟩ := tape
  obtain rfl : policy = .classic := classic
  cases direction with
  | left =>
    by_cases first : pointer = 0
    · have turned : ((cells.size - 1 : Nat) : Int) = (pointer + -1) % cells.size :=
        place_eq_emod (by omega) (by omega)
      exact ⟨_, if_pos first, Unbounded.ext turned rfl⟩
    · have moved : ((pointer - 1 : Nat) : Int) = (pointer + -1) % cells.size :=
        place_eq_emod (by omega) (by omega)
      exact ⟨_, if_neg first, Unbounded.ext moved rfl⟩
  | right =>
    by_cases at_last : cells.size - 1 ≤ pointer
    · have turned : ((0 : Nat) : Int) = (pointer + 1) % cells.size :=
        place_eq_emod (by omega) (by omega)
      exact ⟨_, dif_pos at_last, Unbounded.ext turned rfl⟩
    · have moved : ((pointer + 1 : Nat) : Int) = (pointer + 1) % cells.size :=
        place_eq_emod (by omega) (by omega)
      exact ⟨_, dif_neg at_last, Unbounded.ext moved rfl⟩

/-- An operation on a classic tape of bytes does what it does without limits, modulo the length and
modulo 256. -/
theorem perform_classic (classic : tape.policy = .classic)
    (reduced : tape.unbounded.modulo tape.length = tape.unbounded)
    (byte : ∀ value, operation = .store value → value.toNat ≤ 255) :
    ∃ after, tape.perform operation = .ok after ∧
      after.unbounded = (tape.unbounded.perform operation).modulo tape.length := by
  have current_lt : tape.current.toNat < 256 := by
    have remainder := Unbounded.cells_emod reduced tape.unbounded.pointer
    rw [← Unbounded.current, current_unbounded] at remainder
    omega
  cases operation with
  | move direction =>
    obtain ⟨after, performed, moved⟩ := perform_move_classic classic direction
    refine ⟨after, performed, moved.trans ?_⟩
    rw [← Unbounded.modulo_move reduced]
    cases direction <;> rfl
  | increment =>
    refine ⟨tape.store (if 255 ≤ tape.current then 0 else tape.current + 1), ?_, ?_⟩
    · simp only [perform, increment, classic]
    · rw [unbounded_store, toNat_increment_classic current_lt, Unbounded.perform,
        Unbounded.modulo_store reduced, current_unbounded]
  | decrement =>
    refine ⟨tape.store (if tape.current = 0 then 255 else tape.current - 1), ?_, ?_⟩
    · simp only [perform, decrement, classic]
    · rw [unbounded_store, toNat_decrement_classic current_lt, Unbounded.perform,
        Unbounded.modulo_store reduced, current_unbounded]
  | reset => exact ⟨tape.reset, rfl, unbounded_reset.trans Unbounded.modulo_blank.symm⟩
  | store value =>
    have small : value.toNat ≤ 255 := byte value rfl
    refine ⟨tape.store value, rfl, ?_⟩
    rw [unbounded_store, Unbounded.perform, Unbounded.modulo_store reduced,
      Int.emod_eq_of_lt (by omega) (by omega)]

/-- What a classic tape tells of the operations since it was blank. -/
structure Counts (tape : Tape) (since : List Operation) : Prop where
  classic : tape.policy = .classic
  pointer : (tape.pointer : Int) = displacement since % tape.length
  cells : ∀ index < tape.length,
    tape.unbounded.cells index = total (doneAt tape.length index since) % 256
  reduced : tape.unbounded.modulo tape.length = tape.unbounded

theorem counts_of_blank (classic : tape.policy = .classic)
    (blank : tape.unbounded = Unbounded.blank) : tape.Counts [] where
  classic := classic
  pointer := by
    rw [← pointer_unbounded, blank]
    exact (Int.zero_emod _).symm
  cells index _ := by
    rw [blank]
    rfl
  reduced := by rw [blank, Unbounded.modulo_blank]

theorem Counts.concat (counts : tape.Counts since) (other : operation ≠ .reset)
    (classic : after.policy = .classic) (same_length : after.length = tape.length)
    (same : after.unbounded = (tape.unbounded.perform operation).modulo tape.length) :
    after.Counts (since ++ [operation]) where
  classic := classic
  pointer := by
    rw [← pointer_unbounded, same, same_length, Unbounded.perform_of_ne_reset other,
      displacement_concat, ← Int.emod_add_emod, ← counts.pointer]
    rfl
  cells index inside := by
    rw [same_length] at inside ⊢
    have cell : after.unbounded.cells index =
        (tape.unbounded.store (operation.effect tape.unbounded.current)).cells index % 256 := by
      rw [same, Unbounded.perform_of_ne_reset other]
      rfl
    rw [cell, Unbounded.cells_store, pointer_unbounded, doneAt_concat, ← counts.pointer]
    by_cases here : (tape.pointer : Int) = index
    · have number : tape.unbounded.current = total (doneAt tape.length index since) % 256 := by
        rw [Unbounded.current, pointer_unbounded, here, counts.cells index inside]
      rw [if_pos here.symm, if_pos here, number, effect_emod, total_concat]
    · rw [if_neg (Ne.symm here), if_neg here, counts.cells index inside, Int.emod_emod]
  reduced := by rw [same, same_length, Unbounded.modulo_modulo]

/-- One operation more. -/
theorem Counts.perform (counts : tape.Counts since)
    (byte : ∀ value, operation = .store value → value.toNat ≤ 255) :
    ∃ after, tape.perform operation = .ok after ∧ after.length = tape.length ∧
      after.Counts (if operation = .reset then [] else since ++ [operation]) := by
  obtain ⟨after, performed, same⟩ := perform_classic counts.classic counts.reduced byte
  obtain ⟨same_length, same_policy⟩ := perform_eq_ok performed
  have classic : after.policy = .classic := same_policy.trans counts.classic
  refine ⟨after, performed, same_length, ?_⟩
  split
  next reset =>
    subst reset
    exact counts_of_blank classic (same.trans Unbounded.modulo_blank)
  next other => exact counts.concat other classic same_length same

/-- Any number of operations.  The induction is on the last of them, since a reset wipes out what
was counted in front of it. -/
theorem counts_run (classic : tape.policy = .classic) (blank : tape.unbounded = Unbounded.blank)
    (operations : List Operation)
    (bytes : ∀ value, .store value ∈ operations → value.toNat ≤ 255) :
    ∃ after, operations.foldlM perform tape = .ok after ∧ after.length = tape.length ∧
      after.Counts (sinceReset operations) := by
  induction operations using List.reverseRecOn with
  | nil => exact ⟨tape, rfl, rfl, counts_of_blank classic blank⟩
  | append_singleton operations operation ih =>
    obtain ⟨behind, run, length, counts⟩ := ih fun value among =>
      bytes value (List.mem_append_left _ among)
    obtain ⟨after, performed, same_length, counts'⟩ := counts.perform fun value last =>
      bytes value (List.mem_append_right _ (List.mem_singleton.mpr last.symm))
    refine ⟨after, ?_, same_length.trans length, ?_⟩
    · rw [List.foldlM_append, run]
      exact (bind_pure _).trans performed
    · rwa [sinceReset_concat]

end Tape

/-- Behind any operations that store bytes a classic tape has its pointer where their moves since
the last reset lead to, modulo the length.  A cell holds the last value stored there since the
reset, or zero, with one more for each increment there since and one less for each decrement,
modulo 256.  No operation fails. -/
theorem run_classic {allocator : Allocator} {length : Nat} (some_cells : 0 < length)
    (few : length ≤ Tape.maxLength) (room : allocator.grants length)
    (operations : List Tape.Operation)
    (bytes : ∀ value, .store value ∈ operations → value.toNat ≤ 255) :
    ∃ start, Tape.create allocator length .classic = .ok start ∧
      ∃ after, operations.foldlM Tape.perform start = .ok after ∧
        after.length = length ∧ after.policy = .classic ∧
        (after.pointer : Int) = displacement (sinceReset operations) % length ∧
        ∀ index (inside : index < after.cells.size),
          (after.cells[index].toNat : Int) =
            total (doneAt length index (sinceReset operations)) % 256 ∧
          after.cells[index].toNat ≤ 255 := by
  obtain ⟨start, created⟩ := Tape.exists_create some_cells few room .classic
  obtain ⟨start_length, classic, -⟩ := Tape.create_eq_ok created
  obtain ⟨after, run, same_length, counts⟩ :=
    Tape.counts_run classic (Tape.unbounded_of_create created) operations bytes
  rw [start_length] at same_length
  subst same_length
  refine ⟨start, created, after, run, rfl, counts.classic, counts.pointer, fun index inside => ?_⟩
  have cell := counts.cells index inside
  rw [Tape.cells_unbounded, Array.getElem?_eq_getElem inside, Option.getD_some] at cell
  exact ⟨cell, by omega⟩

/-- Behind a reset the pointer goes round to the left, one cell goes round upwards, and one
downwards. -/
theorem run_classic_of_turns :
    let operations : List Tape.Operation := [.move .right, .increment, .reset, .move .left,
      .decrement, .move .left, .store 255, .increment, .increment, .move .right, .move .right]
    (∀ value, .store value ∈ operations → value.toNat ≤ 255) ∧
      ∃ start, Tape.create .ample 3 .classic = .ok start ∧
        ∃ after, operations.foldlM Tape.perform start = .ok after ∧ after.length = 3 ∧
          (after.pointer : Int) = 0 ∧ ∀ index (inside : index < after.cells.size),
            (after.cells[index].toNat : Int) = [0, 1, 255].getD index 0 := by
  intro operations
  have bytes : ∀ value, .store value ∈ operations → value.toNat ≤ 255 := by
    intro value among
    obtain rfl : value = 255 := by simpa [operations] using among
    decide
  obtain ⟨start, created, after, run, length, -, pointer, cells⟩ :=
    @run_classic .ample 3 (by decide) (by decide) rfl operations bytes
  have moved : displacement (sinceReset operations) % 3 = 0 := by decide +kernel
  have totals : ∀ index < 3,
      total (doneAt 3 index (sinceReset operations)) % 256 = [0, 1, 255].getD index 0 := by
    decide +kernel
  refine ⟨bytes, start, created, after, run, length, pointer.trans moved, fun index inside => ?_⟩
  rw [(cells index inside).1]
  exact totals index (length ▸ inside)

end Brainfuck
