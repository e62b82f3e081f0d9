import Brainfuck.Proofs.Checked
import Brainfuck.Proofs.Window

/-! Positions behind the end of a program, up to the last that a machine word holds.  A search from
there finds nothing to the right, and to the left it finds what it does from the end.  A window
around such a position shows in each of its columns what belongs there, but it ends early.  The
words next to the last one are out of reach: there a sum is out of range. -/

namespace Brainfuck

namespace Program

variable {program : Program} {position partner : Nat}

theorem partner?_opening_of_le (beyond : program.size ≤ position) :
    program.partner? position .opening = none := by
  rw [partner?, Nat.sub_eq_zero_of_le (Nat.le_succ_of_le beyond), seekClosing]

theorem partner?_closing_of_le (beyond : program.size ≤ position) :
    program.partner? position .closing = program.partner? program.size .closing := by
  rw [partner?, partner?, Nat.min_eq_right beyond, Nat.min_self]

/-- The word after the last one is zero, so from the last one the search to the right goes through
the whole program. -/
theorem partnerAt?_opening_of_last {word : UInt64} (last : word.toNat + 1 = UInt64.size) :
    program.partnerAt? word .opening = some partner ↔ program.ClosesAt 0 0 partner := by
  have next : (word + 1).toNat = 0 := by
    rw [UInt64.toNat_add]
    show (word.toNat + 1) % UInt64.size = 0
    rw [last, Nat.mod_self]
  rw [partnerAt?, next, Nat.sub_zero, seekClosing_eq_some_iff (Nat.le_refl _), Nat.sub_self]

end Program

namespace Checked

open Diagnostic

variable {limit : Nat} {program : Program} {position : Nat}

theorem add?_eq_none {first second : Nat} (outside : ¬ first + second < limit) :
    add? limit first second = none :=
  if_neg outside

/-- The sum in a search to the right is all that can go wrong in it. -/
theorem target?_opening_of_le (beyond : program.size ≤ position) :
    target? limit program position .opening =
      if position + 1 < limit then some (.error (.unmatched .opening)) else none := by
  rw [target?]
  split
  next fits =>
    have none_left : program.size - (position + 1) = 0 :=
      Nat.sub_eq_zero_of_le (Nat.le_succ_of_le beyond)
    rw [add?_eq fits, Option.bind_eq_bind, Option.bind_some, none_left]
    rfl
  next outside =>
    rw [add?_eq_none outside]
    rfl

theorem target?_closing_of_le (beyond : program.size ≤ position) (fits : program.size + 1 < limit) :
    target? limit program position .closing = some (program.target program.size .closing) := by
  rw [target?, Nat.min_eq_right beyond,
    seekOpening?_eq (Nat.le_refl _) (Nat.le_refl _) (by omega), Program.target, Program.partner?,
    Nat.min_self]
  rfl

theorem window?_eq_ite : window? limit program position =
    if position + margin < limit then some (windowChars program position) else none := by
  split
  next fits => exact window?_eq fits
  next outside =>
    rw [window?, add?_eq_none outside]
    rfl

end Checked

open Diagnostic

/-- From a position behind the end the search to the right finds nothing, unless the position is the
last word, from which it goes through the whole program, and the search to the left finds what it
does from the end.  The window shows in each of its columns what belongs there, but it lacks a
column for each character that the position is behind the end, up to fourteen.  A sum is out of
range only where the next position, or the one a margin further, is needed and is no word. -/
theorem search_and_window_beyond_end (program : Program) (position : UInt64)
    (beyond : program.size ≤ position.toNat) :
    (position.toNat + 1 < UInt64.size →
      program.targetAt position .opening = .error (.unmatched .opening)) ∧
    (position.toNat + 1 = UInt64.size → ∀ partner,
      program.targetAt position .opening = .ok partner ↔ program.ClosesAt 0 0 partner) ∧
    program.targetAt position .closing = program.target program.size .closing ∧
    windowChars program position.toNat =
      (List.range (28 - min 14 (position.toNat - program.size))).map
        (shownAt program position.toNat) ∧
    (Checked.target? UInt64.size program position.toNat .opening =
      if position.toNat + 1 < UInt64.size then some (.error (.unmatched .opening)) else none) ∧
    (program.size + 1 < UInt64.size →
      Checked.target? UInt64.size program position.toNat .closing =
        some (program.target program.size .closing)) ∧
    Checked.window? UInt64.size program position.toNat =
      if position.toNat + 14 < UInt64.size then some (windowChars program position.toNat)
      else none := by
  refine ⟨fun fits => ?_, fun last partner => ?_, ?_, windowChars_eq_map_shownAt .., ?_,
    Checked.target?_closing_of_le beyond, Checked.window?_eq_ite⟩
  · rw [Program.targetAt_eq_target fits, Program.target, Program.partner?_opening_of_le beyond]
    rfl
  · rw [Program.targetAt, Program.found_eq_ok_iff, Program.partnerAt?_opening_of_last last]
  · rw [Program.targetAt, Program.partnerAt?, Program.partner?_closing_of_le beyond, Program.target]
  · exact Checked.target?_opening_of_le beyond

/-- Two characters behind the end the window lacks two columns. -/
theorem search_and_window_beyond_end_of_tab :
    let program := Program.ofString "+\t[<"
    program.size ≤ (6 : UInt64).toNat ∧
      program.targetAt 6 .opening = .error (.unmatched .opening) ∧
      program.targetAt 6 .closing = .ok 2 ∧
      String.ofList (windowChars program 6) = "        + [<              " ∧
      Checked.window? UInt64.size program 6 = some (windowChars program 6) := by
  intro program
  have beyond : program.size ≤ (6 : UInt64).toNat := by decide
  obtain ⟨opening, -, closing, window, -, -, checked⟩ :=
    search_and_window_beyond_end program 6 beyond
  refine ⟨beyond, opening (by decide), closing.trans rfl, ?_, checked.trans (if_pos (by decide))⟩
  rw [show (6 : UInt64).toNat = 6 from rfl] at window
  rw [window]
  decide +kernel

/-- Right behind the end of the empty program the window is whole, but not one further.  At the last
word the search to the right begins anew, and the window cannot be counted. -/
theorem window_short_beyond_end :
    (windowChars (Program.ofString "") 0).length = 28 ∧
      (windowChars (Program.ofString "") 1).length = 27 ∧
      (Program.ofString "]").targetAt 18446744073709551615 .opening = .ok 0 ∧
      Checked.target? UInt64.size (Program.ofString "]") 18446744073709551615 .opening = none ∧
      Checked.window? UInt64.size (Program.ofString "") 18446744073709551615 = none :=
  ⟨rfl, rfl, rfl, rfl, rfl⟩

end Brainfuck
