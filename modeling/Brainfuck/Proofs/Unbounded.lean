import Mathlib.Logic.Function.Basic
import Brainfuck.Tape

/-! A tape without limits.  It has a cell at every integer, each cell holds an integer, and every
operation on it is done.  The tapes of both policies are measured by it. -/

namespace Brainfuck

@[ext]
structure Unbounded where
  pointer : Int
  cells : Int → Int

namespace Unbounded

/-- Zeros everywhere, and the pointer at zero. -/
def blank : Unbounded := ⟨0, fun _ => 0⟩

variable (ideal : Unbounded)

def current : Int := ideal.cells ideal.pointer

def store (value : Int) : Unbounded :=
  { ideal with cells := Function.update ideal.cells ideal.pointer value }

def perform : Tape.Operation → Unbounded
  | .move .left => { ideal with pointer := ideal.pointer - 1 }
  | .move .right => { ideal with pointer := ideal.pointer + 1 }
  | .increment => ideal.store (ideal.current + 1)
  | .decrement => ideal.store (ideal.current - 1)
  | .reset => blank
  | .store value => ideal.store value.toNat

@[simp] theorem pointer_store (value : Int) : (ideal.store value).pointer = ideal.pointer := rfl

theorem cells_store (value index : Int) : (ideal.store value).cells index =
    if index = ideal.pointer then value else ideal.cells index :=
  Function.update_apply ..

@[simp] theorem current_store (value : Int) : (ideal.store value).current = value :=
  Function.update_self ..

end Unbounded

theorem toNat_add_one_of_ne {value : UInt32} (below : value ≠ 0xFFFFFFFF) :
    (value + 1).toNat = value.toNat + 1 := by
  have small := value.toNat_lt
  have other : value.toNat ≠ 0xFFFFFFFF := fun same => below (UInt32.toNat_inj.mp same)
  rw [UInt32.toNat_add, UInt32.toNat_one]
  omega

theorem toNat_sub_one_of_ne {value : UInt32} (positive : value ≠ 0) :
    ((value - 1).toNat : Int) = value.toNat - 1 := by
  have other : value.toNat ≠ 0 := fun same => positive (UInt32.toNat_inj.mp same)
  have one_le : 1 ≤ value := by
    rw [UInt32.le_iff_toNat_le, UInt32.toNat_one]
    omega
  rw [UInt32.toNat_sub_of_le _ _ one_le, UInt32.toNat_one]
  omega

namespace Tape

/-- The tape among those without limits, with zeros where it has no cells. -/
def unbounded (tape : Tape) : Unbounded where
  pointer := tape.pointer
  cells index := if index < 0 then 0 else (tape.cells[index.toNat]?.getD 0).toNat

variable {tape : Tape}

@[simp] theorem pointer_unbounded : tape.unbounded.pointer = tape.pointer := rfl

theorem cells_unbounded (index : Nat) :
    tape.unbounded.cells index = (tape.cells[index]?.getD 0).toNat := by
  simp only [unbounded, Int.toNat_natCast]
  exact if_neg (by omega)

theorem cells_unbounded_of_neg {index : Int} (negative : index < 0) :
    tape.unbounded.cells index = 0 := by
  simp [unbounded, negative]

@[simp] theorem current_unbounded : tape.unbounded.current = tape.current.toNat := by
  rw [Unbounded.current, pointer_unbounded, cells_unbounded, current,
    Array.getElem?_eq_getElem tape.pointer_lt, Option.getD_some]

theorem cells_unbounded_range (index : Int) :
    0 ≤ tape.unbounded.cells index ∧ tape.unbounded.cells index ≤ 0xFFFFFFFF := by
  simp only [unbounded]
  have small := (tape.cells[index.toNat]?.getD 0).toNat_lt
  split <;> omega

theorem unbounded_store (value : UInt32) :
    (tape.store value).unbounded = tape.unbounded.store value.toNat := by
  refine Unbounded.ext rfl (funext fun index => ?_)
  rw [Unbounded.cells_store, pointer_unbounded]
  rcases Int.lt_or_le index 0 with negative | nonneg
  · rw [cells_unbounded_of_neg negative, if_neg (by omega), cells_unbounded_of_neg negative]
  · obtain ⟨index, rfl⟩ := Int.eq_ofNat_of_zero_le nonneg
    by_cases here : index = tape.pointer
    · subst here
      simp [cells_unbounded, store, tape.pointer_lt]
    · rw [if_neg (by omega), cells_unbounded, cells_unbounded, getElem?_store_of_ne tape value here]

theorem unbounded_reset : tape.reset.unbounded = Unbounded.blank := by
  refine Unbounded.ext rfl (funext fun index => ?_)
  rcases Int.lt_or_le index 0 with negative | nonneg
  · rw [cells_unbounded_of_neg negative, Unbounded.blank]
  · obtain ⟨index, rfl⟩ := Int.eq_ofNat_of_zero_le nonneg
    rw [cells_unbounded, reset, Array.getElem?_replicate]
    split <;> rfl

theorem unbounded_of_create {allocator : Allocator} {length : Nat} {policy : OverflowPolicy}
    (created : create allocator length policy = .ok tape) : tape.unbounded = Unbounded.blank := by
  obtain ⟨same_length, same_policy, -⟩ := create_eq_ok created
  rw [← create_eq_reset created same_length same_policy, unbounded_reset]

end Tape
end Brainfuck
