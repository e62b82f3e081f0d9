import Brainfuck.Proofs.Code
import Brainfuck.Proofs.Trace

/-! The machine executes the tree of its program.  A machine that stands before a piece of code
reaches the end of the code, or the instruction that fails, in the world that `Code.eval` gives it;
and where the machine halts, `Code.eval` has an outcome.  A machine on the `]` of a loop stands
before the loop as much as a machine on its `[`, which is why a jump may go on behind the `[`. -/

namespace Brainfuck

variable {σ : Type} {feed : Feed σ} {program : Program} {settings : Settings}
  {state final : Machine × σ} {position stop opening closing fuel : Nat} {world : World σ}
  {outcome : Outcome σ} {code inner : Code} {c : Char} {primitive : Primitive}

def World.of (state : Machine × σ) : World σ where
  tape := state.1.tape
  output := state.1.output
  reads := state.1.log.reads
  source := state.2

/-- Where the machine stands after an instruction at `position`: it does not leave one that fails. -/
def behind (position : Nat) : Option Fault → Nat
  | none => position + 1
  | some _ => position

/-- The machine has come to `position` of the program, in `world` and with `fault`. -/
structure Shows (program : Program) (settings : Settings) (position : Nat) (world : World σ)
    (fault : Option Fault) (state : Machine × σ) : Prop where
  program : state.1.program = program
  settings : state.1.settings = settings
  position : state.1.position = position
  world : World.of state = world
  fault : state.1.fault = fault

namespace Shows

theorem halted {fault : Fault} (shows : Shows program settings position world (some fault) state) :
    state.1.halted := by
  simp [Machine.halted, shows.fault]

theorem running (shows : Shows program settings position world none state)
    (at_position : program[position]? = some c) : state.1.halted = false := by
  have := Program.lt_size at_position
  simp only [Machine.halted, shows.fault, shows.program, shows.position]
  simpa using this

theorem instruction (shows : Shows program settings position world none state)
    (at_position : program[position]? = some c) :
    state.1.instruction? = Instruction.ofChar? c := by
  rw [Machine.instruction?, shows.program, shows.position, at_position, Option.bind_some]

theorem next (shows : Shows program settings position world none state) :
    Shows program settings (position + 1) world none (state.1.next, state.2) :=
  ⟨shows.program, shows.settings, congrArg (· + 1) shows.position, shows.world, shows.fault⟩

theorem comment (shows : Shows program settings position world none state)
    (at_position : program[position]? = some c) (token : Token.ofChar c = .comment) :
    Shows program settings (position + 1) world none (Machine.advance feed state) := by
  rw [Token.ofChar_eq_comment_iff] at token
  rw [Machine.advance_of_running (shows.running at_position), shows.instruction at_position, token]
  exact shows.next

theorem operated (shows : Shows program settings position world none state)
    (result : Except Fault Tape) :
    Shows program settings (behind position (Primitive.operate world result).2)
      (Primitive.operate world result).1 (Primitive.operate world result).2
      (state.1.operated result, state.2) := by
  obtain ⟨rfl, rfl, rfl, rfl, fault⟩ := shows
  cases result with
  | ok tape => exact ⟨rfl, rfl, rfl, rfl, fault⟩
  | error fault => exact ⟨rfl, rfl, rfl, rfl, rfl⟩

theorem perform (shows : Shows program settings position world none state) (feed : Feed σ)
    (at_position : program[position]? = some c) (token : Token.ofChar c = .primitive primitive) :
    Shows program settings (behind position (primitive.perform settings feed world).2)
      (primitive.perform settings feed world).1 (primitive.perform settings feed world).2
      (Machine.advance feed state) := by
  rw [Token.ofChar_eq_primitive_iff] at token
  rw [Machine.advance_of_running (shows.running at_position), shows.instruction at_position, token]
  have same_tape : state.1.tape = world.tape := congrArg World.tape shows.world
  cases primitive with
  | move direction =>
    rw [Primitive.perform, ← same_tape]
    exact shows.operated _
  | increment =>
    rw [Primitive.perform, ← same_tape]
    exact shows.operated _
  | decrement =>
    rw [Primitive.perform, ← same_tape]
    exact shows.operated _
  | write =>
    obtain ⟨rfl, rfl, rfl, rfl, fault⟩ := shows
    simp only [Primitive.perform, Primitive.instruction, World.of, Machine.write]
    cases state.1.settings.output.encode state.1.tape.current with
    | ok text => exact ⟨rfl, rfl, rfl, rfl, fault⟩
    | error fault => exact ⟨rfl, rfl, rfl, rfl, rfl⟩
  | read =>
    obtain ⟨rfl, rfl, rfl, rfl, fault⟩ := shows
    simp only [Primitive.perform, Primitive.instruction, World.of, Machine.supply]
    cases state.1.settings.input.read (feed state.2).1 with
    | ok value => exact ⟨rfl, rfl, rfl, rfl, fault⟩
    | error fault => exact ⟨rfl, rfl, rfl, rfl, rfl⟩

/-- At either end of a loop the machine goes on in the body, or behind the loop if the current cell
is zero. -/
theorem test (shows : Shows program settings position world none state) (feed : Feed σ)
    (loop : program.Loop opening closing) (at_end : position = opening ∨ position = closing) :
    Shows program settings (if world.tape.current = 0 then closing + 1 else opening + 1) world none
      (Machine.advance feed state) := by
  have same_tape : state.1.tape = world.tape := congrArg World.tape shows.world
  have forward : state.1.program.target opening .opening = .ok closing := by
    rw [shows.program, Program.target_eq_ok_iff, Program.partners_opening_iff loop.opens]
    exact loop
  have backward : state.1.program.target closing .closing = .ok opening := by
    rw [shows.program, Program.target_eq_ok_iff, Program.partners_closing_iff loop.closes]
    exact loop
  rcases at_end with rfl | rfl
  · rw [Machine.advance_of_running (shows.running loop.opens), shows.instruction loop.opens]
    by_cases zero : world.tape.current = 0
    · simp only [Instruction.ofChar?, Bracket.taken, same_tape, zero, decide_true, if_true,
        Machine.jump, shows.position, forward]
      exact ⟨shows.program, shows.settings, rfl, shows.world, shows.fault⟩
    · simp only [Instruction.ofChar?, Bracket.taken, same_tape, zero, decide_false]
      exact shows.next
  · rw [Machine.advance_of_running (shows.running loop.closes), shows.instruction loop.closes]
    by_cases zero : world.tape.current = 0
    · simp only [Instruction.ofChar?, Bracket.taken, same_tape, zero, ne_eq, not_true_eq_false,
        decide_false]
      exact shows.next
    · simp only [Instruction.ofChar?, Bracket.taken, same_tape, zero, ne_eq, not_false_eq_true,
        decide_true, if_true, Machine.jump, shows.position, backward]
      exact ⟨shows.program, shows.settings, rfl, shows.world, shows.fault⟩

end Shows

/-- A machine at `position` stands before the code: at its start, or at the `]` of the loop that it
begins with. -/
inductive Enters (program : Program) : Code → (position stop : Nat) → Prop
  | start {code : Code} {start stop : Nat} (spans : Spans program code start stop) :
      Enters program code start stop
  | again {inner code : Code} {opening closing stop : Nat} (loop : program.Loop opening closing)
      (body : Spans program inner (opening + 1) closing)
      (rest : Spans program code (closing + 1) stop) :
      Enters program (.loop inner code) closing stop

theorem Spans.loop_of (opens : program[opening]? = some '[')
    (body : Spans program inner (opening + 1) closing) (closes : program[closing]? = some ']') :
    program.Loop opening closing :=
  ⟨body.le, opens, closes, body.balanced⟩

/-- Where code that ends at `stop` leaves a machine. -/
def Outcome.place (outcome : Outcome σ) (stop : Nat) : Nat :=
  match outcome.failure with
  | none => stop
  | some (position, _) => position

def Outcome.fault (outcome : Outcome σ) : Option Fault := outcome.failure.map Prod.snd

/-- The machine comes to the end of code that ends at `stop`, with its outcome. -/
def Reaches (program : Program) (settings : Settings) (feed : Feed σ) (stop : Nat)
    (outcome : Outcome σ) (state : Machine × σ) : Prop :=
  ∃ count, Shows program settings (outcome.place stop) outcome.world outcome.fault
    (Machine.after feed count state)

theorem Reaches.of_advance
    (reaches : Reaches program settings feed stop outcome (Machine.advance feed state)) :
    Reaches program settings feed stop outcome state :=
  let ⟨count, shows⟩ := reaches
  ⟨count + 1, shows⟩

theorem Reaches.of_after {count : Nat}
    (reaches : Reaches program settings feed stop outcome (Machine.after feed count state)) :
    Reaches program settings feed stop outcome state := by
  obtain ⟨more, shows⟩ := reaches
  exact ⟨count + more, Machine.after_add ▸ shows⟩

/-- What code with less fuel comes to, the machine reaches from every place before the code. -/
def ReachesWithin (program : Program) (settings : Settings) (feed : Feed σ) (fuel : Nat) : Prop :=
  ∀ ⦃code position stop world outcome state⦄, Enters program code position stop →
    Shows program settings position world none state →
    code.eval settings feed fuel world = some outcome →
    Reaches program settings feed stop outcome state

theorem ReachesWithin.loop (within : ReachesWithin program settings feed fuel)
    (shows : Shows program settings position world none state)
    (loop : program.Loop opening closing) (at_end : position = opening ∨ position = closing)
    (body : Spans program inner (opening + 1) closing)
    (rest : Spans program code (closing + 1) stop)
    (ended : (Code.loop inner code).eval settings feed (fuel + 1) world = some outcome) :
    Reaches program settings feed stop outcome state := by
  have tested := shows.test feed loop at_end
  refine Reaches.of_advance ?_
  rw [Code.eval] at ended
  by_cases zero : world.tape.current = 0
  · rw [if_pos zero] at ended tested
    exact within (.start rest) tested ended
  · rw [if_neg zero] at ended tested
    split at ended
    · contradiction
    next world' round =>
      obtain ⟨count, round⟩ := within (.start body) tested round
      exact Reaches.of_after (within (.again loop body rest) round ended)
    next world' failure round =>
      cases ended
      obtain ⟨count, failed⟩ := within (.start body) tested round
      exact ⟨count, failed⟩

theorem reachesWithin (program : Program) (settings : Settings) (feed : Feed σ) (fuel : Nat) :
    ReachesWithin program settings feed fuel := by
  induction fuel with
  | zero => intro _ _ _ _ _ _ _ _ ended; contradiction
  | succ fuel within =>
    intro code position stop world outcome state enters shows ended
    cases enters with
    | again loop body rest => exact within.loop shows loop (.inr rfl) body rest ended
    | start spans =>
      -- comments take steps of the machine and no fuel
      induction spans generalizing state with
      | done =>
        cases ended
        exact ⟨0, shows⟩
      | comment at_start token rest ih =>
        exact Reaches.of_advance (ih (shows.comment at_start token) ended)
      | command at_start token rest =>
        refine Reaches.of_advance ?_
        have performed := shows.perform feed at_start token
        rw [Code.eval] at ended
        split at ended
        next effect =>
          rw [effect] at performed
          exact within (.start rest) performed ended
        next effect =>
          rw [effect] at performed
          cases ended
          exact ⟨0, performed⟩
      | loop opens body closes rest =>
        exact within.loop shows (Spans.loop_of opens body closes) (.inl rfl) body rest ended

/-- Before code from which the machine halts with less fuel, the code has an outcome. -/
def YieldsWithin (program : Program) (settings : Settings) (feed : Feed σ) (fuel : Nat) : Prop :=
  ∀ ⦃code position stop world state final⦄, Enters program code position stop →
    Shows program settings position world none state →
    Machine.runFor feed fuel state = some final → ∃ outcome, code.Yields settings feed world outcome

/-- A round of a loop ends, and the rounds after it end, as the machine is at the `]` by then. -/
theorem YieldsWithin.loop (within : ∀ less < fuel + 1, YieldsWithin program settings feed less)
    (shows : Shows program settings position world none state)
    (loop : program.Loop opening closing) (at_end : position = opening ∨ position = closing)
    (body : Spans program inner (opening + 1) closing)
    (rest : Spans program code (closing + 1) stop)
    (ran : Machine.runFor feed fuel (Machine.advance feed state) = some final) :
    ∃ outcome, (Code.loop inner code).Yields settings feed world outcome := by
  have tested := shows.test feed loop at_end
  by_cases zero : world.tape.current = 0
  · rw [if_pos zero] at tested
    obtain ⟨outcome, less, ended⟩ := within fuel (Nat.lt_succ_self _) (.start rest) tested ran
    exact ⟨outcome, less + 1, by rw [Code.eval, if_pos zero, ended]⟩
  · rw [if_neg zero] at tested
    obtain ⟨⟨world', failure⟩, less, round⟩ :=
      within fuel (Nat.lt_succ_self _) (.start body) tested ran
    cases failure with
    | some failure =>
      exact ⟨⟨world', some failure⟩, less + 1, by rw [Code.eval, if_neg zero, round]⟩
    | none =>
      obtain ⟨count, at_closing⟩ := reachesWithin _ _ _ less (.start body) tested round
      obtain ⟨le, ran⟩ := Machine.runFor_after ran (at_closing.running loop.closes)
      obtain ⟨outcome, less', ended⟩ :=
        within (fuel - count) (by omega) (.again loop body rest) at_closing ran
      refine ⟨outcome, max less less' + 1, ?_⟩
      rw [Code.eval, if_neg zero, Code.eval_of_le round (Nat.le_max_left ..)]
      exact Code.eval_of_le ended (Nat.le_max_right ..)

theorem yieldsWithin (program : Program) (settings : Settings) (feed : Feed σ) (fuel : Nat) :
    YieldsWithin program settings feed fuel := by
  induction fuel using Nat.strongRecOn with
  | _ fuel within =>
  intro code position stop world state final enters shows ran
  -- a machine at a character has not halted, so it has fuel for one more instruction
  have takes_step : ∀ {c}, program[position]? = some c → ∃ less, fuel = less + 1 ∧
      Machine.runFor feed less (Machine.advance feed state) = some final := by
    intro c at_position
    have running := shows.running at_position
    cases fuel with
    | zero => simp [Machine.runFor, running] at ran
    | succ less => exact ⟨less, rfl, by rwa [Machine.runFor_succ] at ran⟩
  cases enters with
  | again loop body rest =>
    obtain ⟨less, rfl, rest_ran⟩ := takes_step loop.closes
    exact YieldsWithin.loop within shows loop (.inr rfl) body rest rest_ran
  | start spans =>
    cases spans with
    | done => exact ⟨⟨world, none⟩, 1, rfl⟩
    | comment at_start token rest =>
      obtain ⟨less, rfl, rest_ran⟩ := takes_step at_start
      exact within less (Nat.lt_succ_self _) (.start rest) (shows.comment at_start token) rest_ran
    | @command primitive _ _ _ _ at_start token rest =>
      obtain ⟨less, rfl, rest_ran⟩ := takes_step at_start
      have performed := shows.perform feed at_start token
      cases effect : primitive.perform settings feed world with
      | mk world' fault =>
      rw [effect] at performed
      cases fault with
      | some fault => exact ⟨⟨world', some (position, fault)⟩, 1, by rw [Code.eval, effect]⟩
      | none =>
        obtain ⟨outcome, fuel, ended⟩ :=
          within less (Nat.lt_succ_self _) (.start rest) performed rest_ran
        exact ⟨outcome, fuel + 1, by rw [Code.eval, effect]; exact ended⟩
    | loop opens body closes rest =>
      obtain ⟨less, rfl, rest_ran⟩ := takes_step opens
      have loop := Spans.loop_of opens body closes
      exact YieldsWithin.loop within shows loop (.inl rfl) body rest rest_ran

/-- A machine at the end of its program, or at the instruction that failed, has the result of the
code. -/
theorem Shows.result (shows : Shows program settings (outcome.place program.size) outcome.world
    outcome.fault state) :
    state.1.halted ∧ state.1.result = outcome.result program ∧ World.of state = outcome.world := by
  obtain ⟨⟨tape, output, reads, source⟩, failure⟩ := outcome
  obtain ⟨rfl, rfl, place, world, fault⟩ := shows
  have same_output : state.1.output = output := congrArg World.output world
  cases failure with
  | none =>
    refine ⟨?_, ?_, world⟩
    · simp [Machine.halted, show state.1.position = state.1.program.size from place]
    · simp [Machine.result, show state.1.fault = none from fault, Outcome.result, same_output]
  | some failure =>
    obtain ⟨position, cause⟩ := failure
    refine ⟨?_, ?_, world⟩
    · simp [Machine.halted, show state.1.fault = some cause from fault]
    · simp [Machine.result, show state.1.fault = some cause from fault, Outcome.result, same_output,
        show state.1.position = position from place]

/-- The run of a balanced program ends if and only if the execution of its tree does, and then with
the same result, and in the same world. -/
theorem ends_iff_yields {allocator : Allocator} (balanced : Balanced program.toList)
    {machine : Machine}
    (created : Machine.create allocator program settings = .ok machine) (feed : Feed σ)
    (source : σ) :
    ∃ code, Code.parse program = some code ∧
      ((∃ final, Machine.Ends feed (machine, source) final) ↔
        ∃ outcome, code.Yields settings feed { tape := machine.tape, source } outcome) ∧
      ∀ final outcome, Machine.Ends feed (machine, source) final →
        code.Yields settings feed { tape := machine.tape, source } outcome →
        final.1.result = outcome.result program ∧ World.of final = outcome.world := by
  obtain ⟨code, parsed, spans⟩ := parse_eq_some balanced
  obtain ⟨tape, -, rfl⟩ := Machine.create_eq_ok_iff.mp created
  have shows : Shows program settings 0 { tape, source } none
      (({ program, settings, tape } : Machine), source) := ⟨rfl, rfl, rfl, rfl, rfl⟩
  have ends_of_yields : ∀ outcome, code.Yields settings feed { tape, source } outcome →
      ∃ final, Machine.Ends feed (({ program, settings, tape } : Machine), source) final ∧
        final.1.result = outcome.result program ∧ World.of final = outcome.world := by
    rintro outcome ⟨fuel, ended⟩
    obtain ⟨count, reached⟩ := reachesWithin _ _ _ fuel (.start spans) shows ended
    obtain ⟨halted, same⟩ := reached.result
    exact ⟨_, Machine.ends_iff.mpr ⟨halted, count, rfl⟩, same⟩
  refine ⟨code, parsed, ⟨?_, ?_⟩, ?_⟩
  · rintro ⟨final, fuel, ran⟩
    exact yieldsWithin _ _ _ fuel (.start spans) shows ran
  · rintro ⟨outcome, yields⟩
    obtain ⟨final, ends, -⟩ := ends_of_yields outcome yields
    exact ⟨final, ends⟩
  · intro final outcome ends yields
    obtain ⟨final', ends', same⟩ := ends_of_yields outcome yields
    exact ends.unique ends' ▸ same

/-- Two rounds of a loop that moves a cell, then its value and a failing read. -/
theorem ends_iff_yields_of_moving :
    let program := Program.ofString "++[>+<-]>.,"
    let settings : Settings := { output := .numeric, tapeLength := 2 }
    ∃ machine, Balanced program.toList ∧ Machine.create .ample program settings = .ok machine ∧
      ∃ final, Machine.Ends (Feed.ofList (.error "closed")) (machine, []) final ∧
        final.1.result = .error (Diagnostic.of program 10 "2" (.unreadable "closed")) ∧
        final.1.log.reads = 1 := by
  intro program settings
  have balanced : Balanced program.toList := by decide
  refine ⟨_, balanced, rfl, ?_⟩
  have created : Machine.create .ample program settings = .ok _ := rfl
  obtain ⟨code, parsed, ends_iff, same⟩ :=
    ends_iff_yields balanced created (Feed.ofList (.error "closed")) []
  have shown : (code.eval settings (Feed.ofList (.error "closed")) 20
      { tape := ⟨#[0, 0], 0, .strict, by decide⟩, source := [] }).map (fun outcome =>
        (outcome.failure, outcome.world.output, outcome.world.reads)) =
      some (some (10, .unreadable "closed"), "2", 1) := by
    cases parsed
    decide +kernel
  obtain ⟨⟨world, failure⟩, ended, shown⟩ := Option.map_eq_some_iff.mp shown
  have yields : code.Yields _ _ _ ⟨world, failure⟩ := ⟨20, ended⟩
  obtain ⟨final, ends⟩ := ends_iff.mpr ⟨_, yields⟩
  obtain ⟨result, rfl⟩ := same final _ ends yields
  obtain ⟨rfl, output, reads⟩ : failure = some (10, .unreadable "closed") ∧
    final.1.output = "2" ∧ final.1.log.reads = 1 := by simpa [World.of] using shown
  refine ⟨final, ends, ?_, reads⟩
  rw [result]
  simp [Outcome.result, World.of, output]

end Brainfuck
