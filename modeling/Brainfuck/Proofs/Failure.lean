import Brainfuck.Proofs.Invariant

/-! Failures.  `Stops` lists the faults to which an instruction can come, with the machines on which
it does.  One instruction fails if and only if it is stopped, and leaves the machine as it was, so
the report of a run that failed describes the machine before its last instruction. -/

namespace Brainfuck

/-- An instruction that is stopped by a fault on this machine, where a read is given this answer. -/
inductive Stops (machine : Machine) (answer : Answer) : Instruction → Fault → Prop
  | left (strict : machine.settings.policy = .strict) (first : machine.tape.pointer = 0) :
      Stops machine answer (.move .left) (.offTape .left 0)
  | right (strict : machine.settings.policy = .strict)
      (last : machine.tape.pointer = machine.settings.tapeLength - 1) :
      Stops machine answer (.move .right) (.offTape .right (machine.settings.tapeLength - 1))
  | increment (strict : machine.settings.policy = .strict)
      (maximum : machine.tape.current = 4294967295) :
      Stops machine answer .increment (.cellAtMaximum machine.tape.pointer)
  | decrement (strict : machine.settings.policy = .strict) (minimum : machine.tape.current = 0) :
      Stops machine answer .decrement (.cellAtMinimum machine.tape.pointer)
  | write (format : machine.settings.output = .character)
      (no_character : ∀ c : Char, c.val ≠ machine.tape.current) :
      Stops machine answer .write (.notCharacter machine.tape.current)
  | unreadable {reason : String} (failed : answer = .error reason) :
      Stops machine answer .read (.unreadable reason)
  | inputLength {text : String} (answered : answer = .ok text)
      (rejected : machine.settings.input.decode text = .error (.inputLength text.length)) :
      Stops machine answer .read (.inputLength text.length)
  | notDigits {text : String} (answered : answer = .ok text)
      (format : machine.settings.input = .numeric)
      (rejected : machine.settings.input.decode text = .error .notDigits) :
      Stops machine answer .read .notDigits
  | unmatched {bracket : Bracket} (taken : bracket.taken machine.tape.current)
      (alone : ¬ ∃ partner, machine.program.Partners machine.position bracket partner) :
      Stops machine answer (.loop bracket) (.unmatched bracket)

section Stops

variable {machine : Machine} {answer : Answer} {fault : Fault}

theorem stops_move_iff (fitted : Fitted machine) {direction : Direction} :
    machine.tape.move direction = .error fault ↔ Stops machine answer (.move direction) fault := by
  have last : machine.tape.last = machine.settings.tapeLength - 1 := by
    rw [← fitted.length]
    rfl
  cases direction with
  | left =>
    rw [Tape.move, Tape.moveLeft_eq_error_iff, fitted.policy]
    constructor
    · rintro ⟨strict, first, rfl⟩
      exact .left strict first
    · intro stops
      cases stops with
      | left strict first => exact ⟨strict, first, rfl⟩
  | right =>
    rw [Tape.move, Tape.moveRight_eq_error_iff, fitted.policy, last]
    constructor
    · rintro ⟨strict, at_last, rfl⟩
      exact .right strict at_last
    · intro stops
      cases stops with
      | right strict at_last => exact ⟨strict, at_last, rfl⟩

theorem stops_increment_iff (fitted : Fitted machine) :
    machine.tape.increment = .error fault ↔ Stops machine answer .increment fault := by
  rw [Tape.increment_eq_error_iff, fitted.policy]
  constructor
  · rintro ⟨strict, maximum, rfl⟩
    exact .increment strict maximum
  · intro stops
    cases stops with
    | increment strict maximum => exact ⟨strict, maximum, rfl⟩

theorem stops_decrement_iff (fitted : Fitted machine) :
    machine.tape.decrement = .error fault ↔ Stops machine answer .decrement fault := by
  rw [Tape.decrement_eq_error_iff, fitted.policy]
  constructor
  · rintro ⟨strict, minimum, rfl⟩
    exact .decrement strict minimum
  · intro stops
    cases stops with
    | decrement strict minimum => exact ⟨strict, minimum, rfl⟩

theorem stops_write_iff :
    machine.settings.output.encode machine.tape.current = .error fault ↔
      Stops machine answer .write fault := by
  rw [CellFormat.encode_eq_error_iff]
  constructor
  · rintro ⟨format, no_character, rfl⟩
    exact .write format no_character
  · intro stops
    cases stops with
    | write format no_character => exact ⟨format, no_character, rfl⟩

theorem stops_read_iff :
    machine.settings.input.read answer = .error fault ↔ Stops machine answer .read fault := by
  constructor
  · intro failed
    cases answer with
    | error reason =>
      cases failed
      exact .unreadable rfl
    | ok text =>
      obtain rfl | ⟨numeric, rfl⟩ := CellFormat.decode_eq_error failed
      · exact .inputLength rfl failed
      · exact .notDigits rfl numeric failed
  · intro stops
    cases stops with
    | unreadable failed => rw [failed, CellFormat.read]
    | inputLength answered rejected => rw [answered, CellFormat.read, rejected]
    | notDigits answered _ rejected => rw [answered, CellFormat.read, rejected]

theorem stops_loop_iff {bracket : Bracket} :
    (bracket.taken machine.tape.current ∧
      machine.program.target machine.position bracket = .error fault) ↔
      Stops machine answer (.loop bracket) fault := by
  rw [Program.target_eq_error_iff]
  constructor
  · rintro ⟨taken, alone, rfl⟩
    exact .unmatched taken alone
  · intro stops
    cases stops with
    | unmatched taken alone => exact ⟨taken, alone, rfl⟩

end Stops

namespace Machine

variable {σ : Type} {feed : Feed σ} {state final : Machine × σ} {count : Nat} {machine : Machine}
  {fault : Fault}

theorem fault_operated_iff (sound : machine.fault = none) {result : Except Fault Tape} :
    (machine.operated result).fault = some fault ↔ result = .error fault := by
  cases result <;> simp [operated, fail, sound]

theorem fault_jumped_iff (sound : machine.fault = none) {result : Except Fault Nat} :
    (machine.jumped result).fault = some fault ↔ result = .error fault := by
  cases result <;> simp [jumped, fail, sound]

theorem fault_write_iff (sound : machine.fault = none) :
    machine.write.fault = some fault ↔
      machine.settings.output.encode machine.tape.current = .error fault := by
  unfold write
  split
  next failed => simp [fail, failed]
  next written => simp [sound, written]

theorem fault_supply_iff (sound : machine.fault = none) {value : Except Fault UInt32} :
    (machine.supply value).fault = some fault ↔ value = .error fault := by
  cases value <;> simp [supply, sound]

/-- One instruction fails if and only if it is stopped. -/
theorem fault_advance_iff (fitted : Fitted state.1) (running : state.1.halted = false) :
    (advance feed state).1.fault = some fault ↔
      ∃ instruction, state.1.instruction? = some instruction ∧
        Stops state.1 (feed state.2).1 instruction fault := by
  have sound := fault_of_running running
  rw [advance_of_running running]
  cases executes : state.1.instruction? with
  | none => simp [next, sound]
  | some instruction =>
    simp only [Option.some.injEq, exists_eq_left']
    cases instruction with
    | move direction => exact (fault_operated_iff sound).trans (stops_move_iff fitted)
    | increment => exact (fault_operated_iff sound).trans (stops_increment_iff fitted)
    | decrement => exact (fault_operated_iff sound).trans (stops_decrement_iff fitted)
    | write => exact (fault_write_iff sound).trans stops_write_iff
    | read => exact (fault_supply_iff sound).trans stops_read_iff
    | loop bracket =>
      rw [← stops_loop_iff]
      by_cases taken : bracket.taken state.1.tape.current
      · simpa [taken, jump] using fault_jumped_iff sound
      · simp [taken, next, sound]

/-- An instruction that fails changes nothing but the count of reads. -/
theorem advance_of_fault (running : state.1.halted = false)
    (failed : (advance feed state).1.fault = some fault) :
    (advance feed state).1 =
      { state.1.fail fault with log.reads := (advance feed state).1.log.reads } := by
  have sound := fault_of_running running
  revert failed
  refine advance_cases (motive := fun behind => behind.1.fault = some fault →
    behind.1 = { state.1.fail fault with log.reads := behind.1.log.reads }) running ?comment
      ?operate ?write ?read ?jump ?pass
  case comment | pass =>
    intros
    simp_all [next]
  case operate =>
    intro instruction operation _ _ failed
    rw [fault_operated_iff sound] at failed
    rw [failed]
    rfl
  case write =>
    intro _ failed
    rw [fault_write_iff sound] at failed
    rw [write, failed]
  case read =>
    intro _ failed
    rw [fault_supply_iff sound] at failed
    rw [failed]
    rfl
  case jump =>
    intro bracket _ _ failed
    rw [jump, fault_jumped_iff sound] at failed
    rw [jump, failed]
    rfl

/-- A run that ends with a fault is stopped by it at its last instruction. -/
theorem Ends.exists_stops (ends : Ends feed state final) (fitted : Fitted state.1)
    (sound : state.1.fault = none) (failed : final.1.fault = some fault) :
    ∃ count before instruction, after feed count state = before ∧ before.1.halted = false ∧
      advance feed before = final ∧ before.1.instruction? = some instruction ∧
      Stops before.1 (feed before.2).1 instruction fault ∧
      final.1 = { before.1.fail fault with log.reads := final.1.log.reads } := by
  obtain ⟨count, rfl, running⟩ := ends.exists_running
  cases count with
  | zero => simp [sound] at failed
  | succ count =>
    have last := running count (Nat.lt_succ_self _)
    rw [after_succ'] at failed ⊢
    obtain ⟨instruction, executes, stops⟩ :=
      (fault_advance_iff (fitted_after fitted feed count) last).mp failed
    exact ⟨count, _, instruction, rfl, last, rfl, executes, stops, advance_of_fault last failed⟩

theorem result_eq_ok_iff {output : String} :
    machine.result = .ok output ↔ machine.fault = none ∧ output = machine.output := by
  unfold result
  cases machine.fault <;> simp [eq_comm]

theorem result_eq_error_iff {diagnostic : Diagnostic} :
    machine.result = .error diagnostic ↔ ∃ fault, machine.fault = some fault ∧
      diagnostic = Diagnostic.of machine.program machine.position machine.output fault := by
  unfold result
  cases machine.fault <;> simp [eq_comm]

end Machine

/-- A report of failure names an instruction, which was stopped by the fault that is reported, on
the tape and after the output that the run has left. -/
theorem exists_stops_of_failure {allocator : Allocator} {program : Program} {settings : Settings}
    {machine : Machine}
    (created : Machine.create allocator program settings = .ok machine) {σ : Type} {feed : Feed σ}
    {source : σ} {final : Machine × σ} (ends : Machine.Ends feed (machine, source) final)
    {diagnostic : Diagnostic} (failed : final.1.result = .error diagnostic) :
    ∃ (count : Nat) (before : Machine × σ) (instruction : Instruction),
      Machine.after feed count (machine, source) = before ∧ before.1.halted = false ∧
      Machine.advance feed before = final ∧
      before.1.program = program ∧ before.1.settings = settings ∧
      before.1.position = diagnostic.position ∧
      program[diagnostic.position]?.bind Instruction.ofChar? = some instruction ∧
      Stops before.1 (feed before.2).1 instruction diagnostic.fault ∧
      final.1.tape = before.1.tape ∧ final.1.output = before.1.output ∧
      diagnostic.output = before.1.output ∧
      final.1.log.fragments = before.1.log.fragments ∧ final.1.log.jumps = before.1.log.jumps := by
  obtain ⟨fault, faulty, rfl⟩ := Machine.result_eq_error_iff.mp failed
  have fitted := Machine.fitted_of_create created
  obtain ⟨tape, -, rfl⟩ := Machine.create_eq_ok_iff.mp created
  obtain ⟨count, before, instruction, reached, running, advanced, executes, stops, unchanged⟩ :=
    ends.exists_stops fitted rfl faulty
  have same_program : before.1.program = program := reached ▸ Machine.program_after
  have same_settings : before.1.settings = settings := reached ▸ Machine.settings_after
  have same_position : final.1.position = before.1.position := by rw [unchanged]; rfl
  rw [Machine.instruction?, same_program, ← same_position] at executes
  refine ⟨count, before, instruction, reached, running, advanced, same_program, same_settings,
    same_position.symm, executes, stops, ?_⟩
  rw [unchanged]
  exact ⟨rfl, rfl, rfl, rfl, rfl⟩

/-- The second round of a loop leaves the tape at its right end. -/
theorem exists_stops_of_failure_at_end :
    let program := Program.ofString "+[>+.]"
    let settings : Settings := { output := .numeric, tapeLength := 2 }
    let feed := Feed.ofList (.ok "")
    let diagnostic := Diagnostic.of program 2 "1" (.offTape .right 1)
    ∃ machine final, Machine.create .ample program settings = .ok machine ∧
      Machine.Ends feed (machine, []) final ∧ final.1.result = .error diagnostic ∧
      ∃ before : Machine × List Answer, Machine.advance feed before = final ∧
        final.1.tape = before.1.tape ∧
        Stops before.1 (feed before.2).1 (.move .right) diagnostic.fault := by
  intro program settings feed diagnostic
  obtain ⟨machine, created⟩ : ∃ machine, Machine.create .ample program settings = .ok machine :=
    ⟨_, rfl⟩
  have ran : (Machine.runFor feed 9 (machine, [])).map
      (fun final => (final.1.program.toList, final.1.position, final.1.output, final.1.fault)) =
      some (program.toList, 2, "1", some (.offTape .right 1)) := by
    cases created
    decide +kernel
  obtain ⟨final, ends, shown⟩ := Machine.exists_ends_of_map ran
  simp only [Prod.mk.injEq] at shown
  obtain ⟨same_program, same_position, same_output, faulty⟩ := shown
  have failed : final.1.result = .error diagnostic := by
    rw [Machine.result_eq_error_iff]
    refine ⟨_, faulty, ?_⟩
    rw [same_position, same_output, Array.toList_inj.mp same_program]
  obtain ⟨count, before, instruction, -, -, advanced, -, -, -, executes, stops, same_tape, -⟩ :=
    exists_stops_of_failure created ends failed
  obtain rfl : .move .right = instruction := Option.some.inj executes
  exact ⟨machine, final, created, ends, failed, before, advanced, same_tape, stops⟩

end Brainfuck
