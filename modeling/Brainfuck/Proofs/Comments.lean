import Brainfuck.Proofs.Rank
import Brainfuck.Proofs.Trace

/-! Comments are inert.  `strip` takes the comments from the program of a machine and keeps the
machine at the same instruction.  An instruction does the same before and after, and a comment
changes nothing of the stripped machine, so two programs with the same instructions run alike. -/

namespace Brainfuck

variable {σ : Type} {feed : Feed σ} {state final : Machine × σ} {machine : Machine}
  {instruction : Instruction} {fuel count : Nat}

namespace Machine

/-- The machine at the same instruction of its program without the comments. -/
def strip (machine : Machine) : Machine :=
  { machine with
    program := machine.program.code
    position := machine.program.rank machine.position
    log.jumps := machine.log.jumps.map (Prod.map machine.program.rank machine.program.rank) }

def stripState (state : Machine × σ) : Machine × σ := (state.1.strip, state.2)

@[simp] theorem settings_strip : machine.strip.settings = machine.settings := rfl

@[simp] theorem tape_strip : machine.strip.tape = machine.tape := rfl

theorem isCodeAt_of_instruction (executes : machine.instruction? = some instruction) :
    machine.program.IsCodeAt machine.position := by
  obtain ⟨c, at_position, of_char⟩ := Option.bind_eq_some_iff.mp executes
  exact ⟨c, at_position, by rw [isCode, of_char]; rfl⟩

theorem instruction?_strip (executes : machine.instruction? = some instruction) :
    machine.strip.instruction? = some instruction := by
  obtain ⟨c, at_position, of_char⟩ := Option.bind_eq_some_iff.mp executes
  have code : isCode c := by rw [isCode, of_char]; rfl
  exact Option.bind_eq_some_iff.mpr ⟨c, Program.code_getElem?_rank at_position code, of_char⟩

theorem halted_strip (halted : machine.halted) : machine.strip.halted := by
  rw [Machine.halted, Bool.or_eq_true, decide_eq_true_eq] at halted ⊢
  exact halted.imp id fun le => Nat.le_of_eq (Program.rank_of_size_le le).symm

theorem running_strip (running : machine.halted = false)
    (executes : machine.instruction? = some instruction) : machine.strip.halted = false := by
  obtain ⟨c, at_rank, -⟩ := Option.bind_eq_some_iff.mp (instruction?_strip executes)
  have inside := Program.lt_size at_rank
  rw [Machine.halted, Bool.or_eq_false_iff] at running ⊢
  exact ⟨running.1, by simpa using inside⟩

theorem strip_next (executes : machine.instruction? = some instruction) :
    machine.next.strip = machine.strip.next := by
  simp [strip, next, Program.rank_next (isCodeAt_of_instruction executes)]

theorem strip_operated (executes : machine.instruction? = some instruction)
    (result : Except Fault Tape) :
    (machine.operated result).strip = machine.strip.operated result := by
  cases result with
  | ok tape => simp [strip, operated, Program.rank_next (isCodeAt_of_instruction executes)]
  | error fault => rfl

theorem strip_write (executes : machine.instruction? = some instruction) :
    machine.write.strip = machine.strip.write := by
  rw [write, write, settings_strip, tape_strip]
  cases machine.settings.output.encode machine.tape.current with
  | ok text => simp [strip, Program.rank_next (isCodeAt_of_instruction executes)]
  | error fault => rfl

theorem strip_supply (executes : machine.instruction? = some instruction)
    (value : Except Fault UInt32) :
    (machine.supply value).strip = machine.strip.supply value := by
  cases value with
  | ok value => simp [strip, supply, Program.rank_next (isCodeAt_of_instruction executes)]
  | error fault => rfl

theorem strip_jump {bracket : Bracket} (executes : machine.instruction? = some (.loop bracket)) :
    (machine.jump bracket).strip = machine.strip.jump bracket := by
  have at_bracket := getElem?_of_loop executes
  rw [jump, jump, show machine.strip.program.target machine.strip.position bracket =
    (machine.program.target machine.position bracket).map machine.program.rank from
      Program.target_code_rank at_bracket]
  cases found : machine.program.target machine.position bracket with
  | ok target =>
    have code := Program.isCodeAt_of_partners (Program.target_eq_ok_iff.mp found)
    simp [strip, jumped, Except.map, Program.rank_next code]
  | error fault => rfl

theorem advance_stripState (running : state.1.halted = false)
    (executes : state.1.instruction? = some instruction) :
    advance feed (stripState state) = stripState (advance feed state) := by
  obtain ⟨machine, source⟩ := state
  have executes' := instruction?_strip executes
  rw [advance_of_running running, stripState, advance_of_running (running_strip running executes),
    executes, executes']
  cases instruction with
  | move direction => exact congrArg (·, source) (strip_operated executes _).symm
  | increment => exact congrArg (·, source) (strip_operated executes _).symm
  | decrement => exact congrArg (·, source) (strip_operated executes _).symm
  | write => exact congrArg (·, source) (strip_write executes).symm
  | read => exact congrArg (·, (feed source).2) (strip_supply executes _).symm
  | loop bracket =>
    by_cases taken : bracket.taken machine.tape.current
    · simp only [tape_strip, taken, if_true, stripState]
      exact congrArg (·, source) (strip_jump executes).symm
    · simp only [tape_strip, taken, stripState]
      exact congrArg (·, source) (strip_next executes).symm

theorem strip_next_of_comment (running : machine.halted = false)
    (comment : machine.instruction? = none) : machine.next.strip = machine.strip := by
  have at_position := Array.getElem?_eq_getElem (position_lt_size running)
  rw [instruction?, at_position, Option.bind_some] at comment
  simp [strip, next, Program.rank_succ at_position, isCode, comment]

theorem stripState_advance_of_comment (running : state.1.halted = false)
    (comment : state.1.instruction? = none) :
    stripState (advance feed state) = stripState state := by
  rw [advance_of_running running, comment]
  exact congrArg (·, state.2) (strip_next_of_comment running comment)

/-- The stripped machine takes no more steps than the machine. -/
theorem exists_stripState_after (feed : Feed σ) (count : Nat) (state : Machine × σ) :
    ∃ less ≤ count, stripState (after feed count state) = after feed less (stripState state) := by
  induction count generalizing state with
  | zero => exact ⟨0, Nat.le_refl _, rfl⟩
  | succ count ih =>
    obtain ⟨less, le, same⟩ := ih (advance feed state)
    rw [after_succ, same]
    cases halted : state.1.halted with
    | true => exact ⟨less, Nat.le_succ_of_le le, by rw [advance_of_halted halted]⟩
    | false =>
      cases executes : state.1.instruction? with
      | none =>
        rw [stripState_advance_of_comment halted executes]
        exact ⟨less, Nat.le_succ_of_le le, rfl⟩
      | some instruction =>
        rw [← advance_stripState halted executes]
        exact ⟨less + 1, Nat.succ_le_succ le, rfl⟩

theorem Ends.strip (ends : Ends feed state final) :
    Ends feed (stripState state) (stripState final) := by
  obtain ⟨halted, count, rfl⟩ := ends_iff.mp ends
  obtain ⟨less, -, same⟩ := exists_stripState_after feed count state
  exact ends_iff.mpr ⟨halted_strip halted, less, same.symm⟩

/-- The comments at hand lead to an instruction or to the end of the program. -/
theorem exists_after_comments (feed : Feed σ) (state : Machine × σ) :
    ∃ count, stripState (after feed count state) = stripState state ∧
      ((after feed count state).1.halted ∨ (after feed count state).1.halted = false ∧
        ∃ instruction, (after feed count state).1.instruction? = some instruction) := by
  induction left : state.1.program.size - state.1.position generalizing state with
  | zero =>
    refine ⟨0, rfl, .inl ?_⟩
    rw [after_zero, Machine.halted, Bool.or_eq_true, decide_eq_true_eq]
    exact .inr (Nat.le_of_sub_eq_zero left)
  | succ rest ih =>
    cases halted : state.1.halted with
    | true => exact ⟨0, rfl, .inl halted⟩
    | false =>
      cases executes : state.1.instruction? with
      | some instruction => exact ⟨0, rfl, .inr ⟨halted, instruction, executes⟩⟩
      | none =>
        have next : advance feed state = (state.1.next, state.2) := by
          rw [advance_of_running halted, executes]
        obtain ⟨count, same, stops⟩ := ih (advance feed state) (by
          rw [next]
          show state.1.program.size - (state.1.position + 1) = rest
          omega)
        exact ⟨count + 1, same.trans (stripState_advance_of_comment halted executes), stops⟩

theorem ends_of_strip (ran : runFor feed fuel (stripState state) = some final) :
    ∃ final, Ends feed state final := by
  induction fuel generalizing state with
  | zero =>
    obtain ⟨count, same, halted | ⟨running, instruction, executes⟩⟩ :=
      exists_after_comments feed state
    · exact ⟨_, ends_after_iff.mp (ends_of_halted halted)⟩
    · rw [← same, runFor, stripState, running_strip running executes] at ran
      contradiction
  | succ fuel ih =>
    obtain ⟨count, same, halted | ⟨running, instruction, executes⟩⟩ :=
      exists_after_comments feed state
    · exact ⟨_, ends_after_iff.mp (ends_of_halted halted)⟩
    · rw [← same, runFor_succ, advance_stripState running executes] at ran
      obtain ⟨final, ends⟩ := ih ran
      exact ⟨final, ends_after_iff.mp (ends_advance_iff.mp ends)⟩

/-- A machine halts somewhere if and only if it does without the comments. -/
theorem exists_ends_strip_iff :
    (∃ final, Ends feed (stripState state) final) ↔ ∃ final, Ends feed state final := by
  constructor
  · rintro ⟨final, fuel, ran⟩
    exact ends_of_strip ran
  · rintro ⟨final, ends⟩
    exact ⟨stripState final, ends.strip⟩

theorem strip_strip : machine.strip.strip = machine.strip := by
  simp [strip, Program.code_code, Program.rank_code]

/-- Only instructions fail, and jumps lead from brackets to brackets. -/
structure Marked (machine : Machine) : Prop where
  fault : machine.fault ≠ none → machine.program.IsCodeAt machine.position
  jumps : ∀ jump ∈ machine.log.jumps,
    machine.program.IsCodeAt jump.1 ∧ machine.program.IsCodeAt jump.2

namespace Marked

theorem start {program : Program} {settings : Settings} {tape : Tape} :
    Marked { program, settings, tape } :=
  ⟨fun failed => absurd rfl failed, fun _ member => absurd member (Array.not_mem_empty _)⟩

theorem fail (marked : Marked machine) (executes : machine.instruction? = some instruction)
    (fault : Fault) : Marked (machine.fail fault) :=
  ⟨fun _ => isCodeAt_of_instruction executes, marked.jumps⟩

theorem operated (marked : Marked machine) (running : machine.fault = none)
    (executes : machine.instruction? = some instruction) (result : Except Fault Tape) :
    Marked (machine.operated result) := by
  cases result with
  | ok tape => exact ⟨fun failed => absurd running failed, marked.jumps⟩
  | error fault => exact marked.fail executes fault

theorem jump {bracket : Bracket} (marked : Marked machine) (running : machine.fault = none)
    (executes : machine.instruction? = some (.loop bracket)) : Marked (machine.jump bracket) := by
  rw [Machine.jump]
  cases found : machine.program.target machine.position bracket with
  | error fault => exact marked.fail executes fault
  | ok target =>
    refine ⟨fun failed => absurd running failed, fun jump member => ?_⟩
    obtain member | rfl := Array.mem_push.mp member
    · exact marked.jumps jump member
    · exact ⟨isCodeAt_of_instruction executes,
        Program.isCodeAt_of_partners (Program.target_eq_ok_iff.mp found)⟩

theorem advance (marked : Marked state.1) : Marked (advance feed state).1 := by
  cases halted : state.1.halted with
  | true => rwa [advance_of_halted halted]
  | false =>
    have running : state.1.fault = none := by
      rw [Machine.halted, Bool.or_eq_false_iff] at halted
      simpa using halted.1
    have unchanged : Marked state.1.next := ⟨fun failed => absurd running failed, marked.jumps⟩
    rw [advance_of_running halted]
    cases executes : state.1.instruction? with
    | none => exact unchanged
    | some instruction =>
      cases instruction with
      | move direction => exact marked.operated running executes _
      | increment => exact marked.operated running executes _
      | decrement => exact marked.operated running executes _
      | write =>
        simp only [Machine.write]
        cases state.1.settings.output.encode state.1.tape.current with
        | ok text => exact ⟨fun failed => absurd running failed, marked.jumps⟩
        | error fault => exact marked.fail executes fault
      | read =>
        simp only
        cases state.1.settings.input.read (feed state.2).1 with
        | ok value => exact ⟨fun failed => absurd running failed, marked.jumps⟩
        | error fault => exact ⟨fun _ => isCodeAt_of_instruction executes, marked.jumps⟩
      | loop bracket =>
        simp only
        split
        · exact marked.jump running executes
        · exact unchanged

theorem ends (marked : Marked state.1) (ends : Ends feed state final) : Marked final.1 := by
  obtain ⟨-, count, rfl⟩ := ends_iff.mp ends
  exact after_preserves (fun state => Marked state.1) marked (fun _ => Marked.advance) count

theorem strip (marked : Marked machine) : Marked machine.strip where
  fault failed := Program.isCodeAt_rank (marked.fault failed)
  jumps jump member := by
    obtain ⟨jump, among, rfl⟩ := Array.mem_map.mp member
    obtain ⟨code, code'⟩ := marked.jumps jump among
    exact ⟨Program.isCodeAt_rank code, Program.isCodeAt_rank code'⟩

end Marked
end Machine

/-- The same instruction stands at both positions, with as many instructions before it. -/
def SameRank (first second : Program) (position position' : Nat) : Prop :=
  ∃ c, isCode c ∧ first[position]? = some c ∧ second[position']? = some c ∧
    first.rank position = second.rank position'

/-- Both outputs are the same, or both faults, at the same instruction and after the same output. -/
def SameResult (first second : Program) (result result' : Except Diagnostic String) : Prop :=
  match result, result' with
  | .ok output, .ok output' => output = output'
  | .error diagnostic, .error diagnostic' => diagnostic.fault = diagnostic'.fault ∧
      diagnostic.output = diagnostic'.output ∧
      SameRank first second diagnostic.position diagnostic'.position
  | _, _ => False

/-- The runs of two programs have come to the same, up to the places of the instructions. -/
structure Alike (first second : Program) (state state' : Machine × σ) : Prop where
  result : SameResult first second state.1.result state'.1.result
  fragments : state.1.log.fragments = state'.1.log.fragments
  reads : state.1.log.reads = state'.1.log.reads
  source : state.2 = state'.2
  tape : state.1.tape = state'.1.tape
  jumps_size : state.1.log.jumps.size = state'.1.log.jumps.size
  jumps : ∀ (index : Nat) (jump jump' : Nat × Nat), state.1.log.jumps[index]? = some jump →
    state'.1.log.jumps[index]? = some jump' →
    SameRank first second jump.1 jump'.1 ∧ SameRank first second jump.2 jump'.2

section Alike

variable {first second : Program} {position position' : Nat} {state' : Machine × σ}

theorem sameRank (same : first.code = second.code) (code : first.IsCodeAt position)
    (code' : second.IsCodeAt position') (same_rank : first.rank position = second.rank position') :
    SameRank first second position position' := by
  obtain ⟨c, at_position, code⟩ := code
  obtain ⟨c', at_position', code'⟩ := code'
  have at_rank := Program.code_getElem?_rank at_position code
  have at_rank' := Program.code_getElem?_rank at_position' code'
  rw [same, same_rank, at_rank'] at at_rank
  obtain rfl := Option.some.inj at_rank
  exact ⟨c', code', at_position, at_position', same_rank⟩

theorem sameResult (marked : state.1.Marked) (marked' : state'.1.Marked)
    (same : Machine.stripState state = Machine.stripState state') :
    SameResult state.1.program state'.1.program state.1.result state'.1.result := by
  have same_fault : state.1.fault = state'.1.fault := congrArg (·.1.fault) same
  have same_output : state.1.output = state'.1.output := congrArg (·.1.output) same
  have same_rank := congrArg (·.1.position) same
  rw [Machine.result, Machine.result, same_fault, same_output]
  cases fault : state'.1.fault with
  | none => rfl
  | some fault =>
    exact ⟨rfl, rfl, sameRank (congrArg (·.1.program) same)
      (marked.fault (by simp [same_fault, fault])) (marked'.fault (by simp [fault])) same_rank⟩

theorem alike_of_strip (marked : state.1.Marked) (marked' : state'.1.Marked)
    (same : Machine.stripState state = Machine.stripState state') :
    Alike state.1.program state'.1.program state state' := by
  have same_code : state.1.program.code = state'.1.program.code := congrArg (·.1.program) same
  have same_jumps : state.1.log.jumps.map (Prod.map state.1.program.rank state.1.program.rank) =
      state'.1.log.jumps.map (Prod.map state'.1.program.rank state'.1.program.rank) :=
    congrArg (·.1.log.jumps) same
  refine ⟨sameResult marked marked' same, congrArg (·.1.log.fragments) same,
    congrArg (·.1.log.reads) same, congrArg (·.2) same, congrArg (·.1.tape) same, ?_, ?_⟩
  · simpa using congrArg Array.size same_jumps
  · intro index jump jump' found found'
    have codes := marked.jumps jump (Array.mem_of_getElem? found)
    have codes' := marked'.jumps jump' (Array.mem_of_getElem? found')
    have same_ranks := congrArg (·[index]?) same_jumps
    simp only [Array.getElem?_map, found, found', Option.map_some, Option.some.injEq, Prod.map,
      Prod.mk.injEq] at same_ranks
    exact ⟨sameRank same_code codes.1 codes'.1 same_ranks.1,
      sameRank same_code codes.2 codes'.2 same_ranks.2⟩

theorem alike_strip (marked : state.1.Marked) :
    Alike state.1.program state.1.program.code state (Machine.stripState state) := by
  have same : Machine.stripState state = Machine.stripState (Machine.stripState state) :=
    congrArg (·, state.2) Machine.strip_strip.symm
  exact alike_of_strip marked marked.strip same

end Alike

/-- Programs with the same instructions fail to start alike, or run alike: both forever, or both to
the same result, with the same writes, reads and jumps, and to the same tape. -/
theorem alike_of_code_eq (allocator : Allocator) {first second : Program}
    (same : first.code = second.code) (settings : Settings) (feed : Feed σ) (source : σ) :
    (∃ fault, Machine.create allocator first settings = .error fault ∧
      Machine.create allocator second settings = .error fault) ∨
    ∃ machine machine', Machine.create allocator first settings = .ok machine ∧
      Machine.create allocator second settings = .ok machine' ∧
      ((∃ final, Machine.Ends feed (machine, source) final) ↔
        ∃ final, Machine.Ends feed (machine', source) final) ∧
      ∀ final final', Machine.Ends feed (machine, source) final →
        Machine.Ends feed (machine', source) final' → Alike first second final final' := by
  cases created : Tape.create allocator settings.tapeLength settings.policy with
  | error fault =>
    exact .inl ⟨fault, by simp [Machine.create, created, bind, Except.bind],
      by simp [Machine.create, created, bind, Except.bind]⟩
  | ok tape =>
    have stripped : Machine.stripState (({ program := first, settings, tape } : Machine), source) =
        Machine.stripState (({ program := second, settings, tape } : Machine), source) := by
      simp [Machine.stripState, Machine.strip, same, Program.rank]
    refine .inr ⟨_, _, Machine.create_eq_ok_iff.mpr ⟨tape, created, rfl⟩,
      Machine.create_eq_ok_iff.mpr ⟨tape, created, rfl⟩, ?_, fun final final' ends ends' => ?_⟩
    · rw [← Machine.exists_ends_strip_iff, stripped, Machine.exists_ends_strip_iff]
    · have same_final := ends.strip.unique (stripped ▸ ends'.strip)
      have alike := alike_of_strip (Machine.Marked.start.ends ends) (Machine.Marked.start.ends ends')
        same_final
      rwa [ends.program, ends'.program] at alike

/-- Comments before, between and behind the instructions of a loop, and a read that fails. -/
theorem alike_of_code_eq_of_commented :
    let first := Program.ofString "++[->+<]>,"
    let second := Program.ofString "α++ [ - > + < ]β\n>,γ"
    first.code = second.code ∧
      ∃ machine machine' final final',
        Machine.create .ample first { tapeLength := 2 } = .ok machine ∧
        Machine.create .ample second { tapeLength := 2 } = .ok machine' ∧
        Machine.Ends (Feed.ofList (.error "closed")) (machine, []) final ∧
        Machine.Ends (Feed.ofList (.error "closed")) (machine', []) final' ∧
        Alike first second final final' := by
  intro first second
  have same : first.code = second.code := by decide +kernel
  refine ⟨same, ?_⟩
  obtain ⟨fault, failed, -⟩ | ⟨machine, machine', created, created', ends_iff, alike⟩ :=
    alike_of_code_eq .ample same { tapeLength := 2 } (Feed.ofList (.error "closed")) []
  · contradiction
  have ran : (Machine.runFor (Feed.ofList (.error "closed")) 30 (machine, [])).isSome := by
    cases created
    decide +kernel
  obtain ⟨final, ran⟩ := Option.isSome_iff_exists.mp ran
  obtain ⟨final', ends'⟩ := ends_iff.mp ⟨final, 30, ran⟩
  exact ⟨machine, machine', final, final', created, created', ⟨30, ran⟩, ends',
    alike final final' ⟨30, ran⟩ ends'⟩

end Brainfuck
