import Brainfuck.Proofs.Failure
import Brainfuck.Proofs.Policy

/-! What the classic policy guarantees.  A classic tape performs every operation, and none makes a
cell greater than 255.  So a greater cell holds what a `,` has stored, or less, and where no `,`
stores more than a byte every cell can be written as a character. -/

namespace Brainfuck

namespace Tape

variable {tape after : Tape} {operation : Operation} {bound : Nat} {value : UInt32}

/-- No cell is greater than `bound`. -/
def AtMost (bound : Nat) (tape : Tape) : Prop := ∀ cell ∈ tape.cells, cell.toNat ≤ bound

theorem AtMost.current (below : tape.AtMost bound) : tape.current.toNat ≤ bound :=
  below _ (Array.getElem_mem _)

theorem AtMost.store (below : tape.AtMost bound) (le : value.toNat ≤ bound) :
    (tape.store value).AtMost bound := by
  intro cell among
  obtain old | rfl := Array.mem_or_eq_of_mem_set (w := tape.pointer_lt) among
  · exact below cell old
  · exact le

theorem atMost_reset : tape.reset.AtMost bound := by
  intro cell among
  obtain rfl := Array.eq_of_mem_replicate among
  exact Nat.zero_le _

theorem atMost_of_create {allocator : Allocator} {length : Nat} {policy : OverflowPolicy}
    (created : create allocator length policy = .ok tape) : tape.AtMost bound := by
  rw [← create_eq_reset created (create_eq_ok created).1 (create_eq_ok created).2.1]
  exact atMost_reset

theorem cells_move {direction : Direction} (moved : tape.move direction = .ok after) :
    after.cells = tape.cells := by
  cases direction <;> simp only [move, moveLeft, moveRight] at moved <;> split at moved <;>
    try split at moved
  all_goals cases moved <;> rfl

/-- The operations on a classic tape keep to 255, or to a greater bound for what is stored. -/
theorem AtMost.perform (below : tape.AtMost bound) (classic : tape.policy = .classic)
    (byte : 255 ≤ bound) (stored : ∀ value, operation = .store value → value.toNat ≤ bound)
    (performed : tape.perform operation = .ok after) : after.AtMost bound := by
  cases operation with
  | move direction =>
    rw [AtMost, cells_move performed]
    exact below
  | increment =>
    simp only [Tape.perform, increment, classic] at performed
    cases performed
    refine below.store ?_
    split
    · exact Nat.zero_le _
    next small =>
      rw [UInt32.not_le, UInt32.lt_iff_toNat_lt] at small
      rw [UInt32.toNat_add]
      exact Nat.le_trans (Nat.mod_le ..) (Nat.le_trans small byte)
  | decrement =>
    simp only [Tape.perform, decrement, classic] at performed
    cases performed
    refine below.store ?_
    split
    · exact byte
    next positive =>
      have one_le : 1 ≤ tape.current := by
        rw [UInt32.le_iff_toNat_le]
        exact Nat.pos_of_ne_zero fun zero => positive (UInt32.toNat_inj.mp zero)
      rw [UInt32.toNat_sub_of_le _ _ one_le]
      exact Nat.le_trans (Nat.sub_le ..) below.current
  | reset =>
    cases performed
    exact atMost_reset
  | store value =>
    cases performed
    exact below.store (stored value rfl)

end Tape

namespace Machine

variable {σ : Type} {feed : Feed σ} {state final : Machine × σ} {count : Nat} {machine : Machine}
  {bound : Nat}

/-- The value that the next instruction stores, if it is a `,` for which one is read. -/
def stores? (feed : Feed σ) (state : Machine × σ) : Option UInt32 :=
  if state.1.asks then (state.1.settings.input.read (feed state.2).1).toOption else none

theorem asks_iff : machine.asks ↔ machine.halted = false ∧ machine.instruction? = some .read := by
  simp [asks]

theorem reads_advance : (advance feed state).1.log.reads =
    state.1.log.reads + if state.1.asks then 1 else 0 := by
  cases running : state.1.halted with
  | true => simp [advance_of_halted running, not_asks_of_halted running]
  | false =>
    refine advance_cases (motive := fun behind => behind.1.log.reads = _) running ?comment ?operate
      ?write ?read ?jump ?pass
    case comment | pass =>
      intros
      simp_all [next, asks]
    case operate =>
      intro instruction operation executes stands
      have other : instruction ≠ .read := by
        rintro rfl
        contradiction
      cases state.1.tape.perform operation <;> simp [operated, fail, asks, executes, other]
    case write =>
      intro executes
      rw [write]
      cases state.1.settings.output.encode state.1.tape.current <;> simp [fail, asks, executes]
    case read =>
      intro executes
      cases state.1.settings.input.read (feed state.2).1 <;>
        simp [supply, asks, running, executes]
    case jump =>
      intro bracket executes _
      rw [jump]
      cases state.1.program.target state.1.position bracket <;>
        simp [jumped, fail, asks, executes]

/-- A run that has executed no `,` has stored nothing. -/
theorem observed_stores_of_reads (unread : (after feed count state).1.log.reads = 0) :
    observed (stores? feed) feed count state = [] := by
  induction count with
  | zero => rfl
  | succ count ih =>
    rw [after_succ', reads_advance, Nat.add_eq_zero_iff] at unread
    obtain ⟨unread, quiet⟩ := unread
    have asks : (after feed count state).1.asks = false := by simpa using quiet
    rw [observed_succ, ih unread, stores?, asks]
    rfl

/-- Numeric input stores no more than two digits spell. -/
theorem stores_le_of_numeric {value : UInt32} (numeric : state.1.settings.input = .numeric)
    (stored : value ∈ observed (stores? feed) feed count state) : value.toNat ≤ 255 := by
  obtain ⟨earlier, -, stored⟩ := mem_observed_iff.mp stored
  rw [stores?, Option.ite_none_right_eq_some, settings_after, numeric] at stored
  obtain ⟨-, read⟩ := stored
  cases answered : (feed (after feed earlier state).2).1 with
  | error reason =>
    rw [answered] at read
    contradiction
  | ok text =>
    rw [answered, CellFormat.read] at read
    cases decoded : CellFormat.numeric.decode text with
    | error fault =>
      rw [decoded] at read
      contradiction
    | ok value =>
      rw [decoded] at read
      cases read
      exact Nat.le_trans (CellFormat.decode_numeric_le decoded) (by decide)

theorem atMost_advance (below : state.1.tape.AtMost bound)
    (classic : state.1.tape.policy = .classic) (byte : 255 ≤ bound)
    (stored : ∀ value ∈ stores? feed state, value.toNat ≤ bound) :
    (advance feed state).1.tape.AtMost bound := by
  cases running : state.1.halted with
  | true => rwa [advance_of_halted running]
  | false =>
    refine advance_cases (motive := fun behind => behind.1.tape.AtMost bound) running ?comment
      ?operate ?write ?read ?jump ?pass
    case comment | pass =>
      intros
      exact below
    case operate =>
      intro instruction operation _ stands
      cases performed : state.1.tape.perform operation with
      | error fault => exact below
      | ok tape =>
        refine below.perform classic byte ?_ performed
        rintro value rfl
        cases instruction <;> cases stands
    case write =>
      intro _
      rwa [tape_write]
    case read =>
      intro executes
      cases read : state.1.settings.input.read (feed state.2).1 with
      | error fault => exact below
      | ok value =>
        refine below.store (stored value ?_)
        rw [stores?, asks_iff.mpr ⟨running, executes⟩, read]
        rfl
    case jump =>
      intro bracket _ _
      rwa [tape_jump]

/-- A bound on what a run has stored so far is one on its cells, from 255 on. -/
theorem atMost_after (fitted : Fitted state.1) (classic : state.1.settings.policy = .classic)
    (start : state.1.tape.AtMost bound) (byte : 255 ≤ bound)
    (stored : ∀ value ∈ observed (stores? feed) feed count state, value.toNat ≤ bound) :
    (after feed count state).1.tape.AtMost bound := by
  induction count with
  | zero => exact start
  | succ count ih =>
    rw [observed_succ] at stored
    have earlier := ih fun value among => stored value (List.mem_append_left _ among)
    have still_classic : (after feed count state).1.tape.policy = .classic := by
      rw [(fitted_after fitted feed count).policy, settings_after, classic]
    rw [after_succ']
    refine atMost_advance earlier still_classic byte fun value among => ?_
    exact stored value (List.mem_append_right _ (Option.mem_toList.mpr among))

theorem stored_le_byte (small :
      state.1.settings.input = .numeric ∨ (after feed count state).1.log.reads = 0) :
    ∀ value ∈ observed (stores? feed) feed count state, value.toNat ≤ 255 := by
  intro value among
  obtain numeric | unread := small
  · exact stores_le_of_numeric numeric among
  · rw [observed_stores_of_reads unread] at among
    contradiction

end Machine

theorem Stops.isOverflow_eq_false {machine : Machine} {answer : Answer} {instruction : Instruction}
    {fault : Fault} (stops : Stops machine answer instruction fault)
    (classic : machine.settings.policy = .classic) : fault.isOverflow = false := by
  cases stops with
  | left strict | right strict | increment strict | decrement strict =>
    rw [classic] at strict
    contradiction
  | _ => rfl

/-- A byte is the code of a character. -/
theorem exists_char_of_le {value : UInt32} (le : value.toNat ≤ 255) :
    ∃ c : Char, c.val = value := by
  have small : value.toNat < 0xD800 := Nat.lt_of_le_of_lt le (by decide)
  exact ⟨⟨value, .inl small⟩, rfl⟩

/-- A classic run raises no fault of the strict policy, and its cells are at most 255 or the
greatest value that a `,` has stored.  So they stay bytes, and can be written as characters, where
input is numeric or there is none. -/
theorem atMost_greatest_stored {allocator : Allocator} {program : Program} {settings : Settings}
    {machine : Machine}
    (classic : settings.policy = .classic)
    (created : Machine.create allocator program settings = .ok machine)
    {σ : Type} (feed : Feed σ) (source : σ) :
    let state (count : Nat) := Machine.after feed count (machine, source)
    let stored (count : Nat) :=
      (Machine.observed (Machine.stores? feed) feed count (machine, source)).map UInt32.toNat
    (∀ final fault, Machine.Ends feed (machine, source) final → final.1.fault = some fault →
      fault.isOverflow = false) ∧
    (∀ count, (state count).1.tape.AtMost ((255 :: stored count).max (List.cons_ne_nil _ _))) ∧
    (∀ count, settings.input = .numeric ∨ (state count).1.log.reads = 0 →
      (state count).1.tape.AtMost 255) ∧
    ∀ final, Machine.Ends feed (machine, source) final →
      settings.input = .numeric ∨ final.1.log.reads = 0 →
      ∀ value, final.1.fault ≠ some (.notCharacter value) := by
  intro state stored
  have fitted := Machine.fitted_of_create created
  obtain ⟨tape, built, rfl⟩ := Machine.create_eq_ok_iff.mp created
  have bytes (count : Nat)
      (small : settings.input = .numeric ∨ (state count).1.log.reads = 0) :
      (state count).1.tape.AtMost 255 :=
    Machine.atMost_after fitted classic (Tape.atMost_of_create built) (Nat.le_refl _)
      (Machine.stored_le_byte small)
  refine ⟨fun final fault ends failed => ?_, fun count => ?_, bytes, ?_⟩
  · obtain ⟨count, before, instruction, rfl, -, -, -, stops, -⟩ :=
      ends.exists_stops fitted rfl failed
    exact stops.isOverflow_eq_false (by rwa [Machine.settings_after])
  · refine Machine.atMost_after fitted classic (Tape.atMost_of_create built) ?_
      fun value among => ?_
    · exact List.le_max_of_mem List.mem_cons_self
    · exact List.le_max_of_mem (List.mem_cons_of_mem _ (List.mem_map_of_mem among))
  · intro final ends small value failed
    obtain ⟨count, before, instruction, rfl, -, rfl, -, stops, unchanged⟩ :=
      ends.exists_stops fitted rfl failed
    cases stops with
    | write _ no_character =>
      rw [← Machine.after_succ'] at small unchanged
      have below := bytes (count + 1) small
      rw [show (state (count + 1)).1 = _ from unchanged] at below
      obtain ⟨c, same⟩ := exists_char_of_le below.current
      exact no_character c same

/-- A cell is taken below zero and written, and the pointer is moved off the left end. -/
theorem atMost_greatest_stored_of_wrap :
    let program := Program.ofString ",[-]-.<"
    let settings : Settings := { policy := .classic, input := .numeric, tapeLength := 3 }
    let feed := Feed.ofList (.error "closed")
    let answers : List Answer := [.ok "3"]
    ∃ machine final, settings.policy = .classic ∧
      Machine.create .ample program settings = .ok machine ∧
      Machine.Ends feed (machine, answers) final ∧ final.1.result = .ok "ÿ" ∧
      final.1.tape.cells.toList = [255, 0, 0] ∧ final.1.tape.pointer = 2 ∧
      final.1.tape.AtMost 255 ∧ ∀ value, final.1.fault ≠ some (.notCharacter value) := by
  intro program settings feed answers
  obtain ⟨machine, created⟩ : ∃ machine, Machine.create .ample program settings = .ok machine :=
    ⟨_, rfl⟩
  have ran : (Machine.runFor feed 20 (machine, answers)).map (fun final =>
      (final.1.output, final.1.fault, final.1.tape.cells.toList, final.1.tape.pointer)) =
      some ("ÿ", none, [255, 0, 0], 2) := by
    cases created
    decide +kernel
  obtain ⟨final, ends, shown⟩ := Machine.exists_ends_of_map ran
  simp only [Prod.mk.injEq] at shown
  obtain ⟨output, sound, cells, pointer⟩ := shown
  have result := Machine.result_eq_ok_iff.mpr ⟨sound, output.symm⟩
  obtain ⟨-, -, bytes, written⟩ := atMost_greatest_stored rfl created feed answers
  obtain ⟨-, count, rfl⟩ := Machine.ends_iff.mp ends
  exact ⟨machine, _, rfl, created, ends, result, cells, pointer, bytes count (.inl rfl),
    written _ ends (.inl rfl)⟩

end Brainfuck
