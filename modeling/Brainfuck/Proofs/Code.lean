import Brainfuck.Proofs.Partner
import Brainfuck.Run

/-! Programs as trees.  `Code.parse` reads a program into its instructions and loops, and
`Code.eval` executes the tree: a loop tests the current cell before each round of its body, and no
position is ever jumped to.  Every balanced program has a tree, and `Spans` says which part of the
text each subtree is. -/

namespace Brainfuck

/-- An instruction that is no bracket. -/
inductive Primitive
  | move (direction : Direction)
  | increment
  | decrement
  | write
  | read
  deriving DecidableEq, Repr

/-- What a character is to the structure of a program. -/
inductive Token
  | comment
  | bracket (side : Bracket)
  | primitive (instruction : Primitive)
  deriving DecidableEq, Repr

def Token.ofChar (c : Char) : Token :=
  match Instruction.ofChar? c with
  | none => comment
  | some (.loop side) => bracket side
  | some (.move direction) => primitive (.move direction)
  | some .increment => primitive .increment
  | some .decrement => primitive .decrement
  | some .write => primitive .write
  | some .read => primitive .read

def Primitive.instruction : Primitive → Instruction
  | move direction => .move direction
  | increment => .increment
  | decrement => .decrement
  | write => .write
  | read => .read

namespace Token

variable {c : Char} {side : Bracket} {primitive : Primitive}

theorem ofChar_eq_comment_iff : ofChar c = comment ↔ Instruction.ofChar? c = none := by
  unfold ofChar
  split <;> simp_all

theorem ofChar_eq_primitive_iff :
    ofChar c = .primitive primitive ↔ Instruction.ofChar? c = some primitive.instruction := by
  unfold ofChar
  split <;> cases primitive <;> simp_all [Primitive.instruction]

theorem ofChar_eq_bracket_iff : ofChar c = bracket side ↔ c = side.char := by
  rw [← Bracket.ofChar?_eq_some_iff, ← Instruction.ofChar?_eq_loop_iff]
  unfold ofChar
  split <;> simp_all

theorem bracket_eq_none (other : ∀ side, ofChar c ≠ bracket side) : Bracket.ofChar? c = none := by
  rw [Option.eq_none_iff_forall_ne_some]
  intro side of_char
  exact other side (ofChar_eq_bracket_iff.mpr (Bracket.ofChar?_eq_some_iff.mp of_char))

end Token

structure World (σ : Type) where
  tape : Tape
  output : String := ""
  /-- The number of `,` executed, failed ones included. -/
  reads : Nat := 0
  source : σ

namespace Primitive

variable {σ : Type}

/-- The world after an operation on its tape, and the fault if it fails. -/
def operate (world : World σ) : Except Fault Tape → World σ × Option Fault
  | .ok tape => ({ world with tape }, none)
  | .error fault => (world, some fault)

/-- The world after an instruction, and the fault if it fails.  A failed read has taken its answer;
nothing else that fails changes anything. -/
def perform (settings : Settings) (feed : Feed σ) (world : World σ) :
    Primitive → World σ × Option Fault
  | move direction => operate world (world.tape.move direction)
  | increment => operate world world.tape.increment
  | decrement => operate world world.tape.decrement
  | write =>
    match settings.output.encode world.tape.current with
    | .ok text => ({ world with output := world.output ++ text }, none)
    | .error fault => (world, some fault)
  | read =>
    let (answer, source) := feed world.source
    let world := { world with source, reads := world.reads + 1 }
    match settings.input.read answer with
    | .ok value => ({ world with tape := world.tape.store value }, none)
    | .error fault => (world, some fault)

end Primitive

inductive Code
  | done
  /-- An instruction, at its position in the text, and what follows. -/
  | command (position : Nat) (primitive : Primitive) (rest : Code)
  /-- A loop, and what follows. -/
  | loop (body rest : Code)
  deriving DecidableEq, Repr

/-- What code comes to: the world it leaves, and the position and the fault where it failed. -/
structure Outcome (σ : Type) where
  world : World σ
  failure : Option (Nat × Fault) := none

/-- What code that has come to an end has to show for itself. -/
def Outcome.result {σ : Type} (program : Program) (outcome : Outcome σ) : Except Diagnostic String :=
  match outcome.failure with
  | none => .ok outcome.world.output
  | some (position, fault) =>
    .error (Diagnostic.of program position outcome.world.output fault)

namespace Code

/-- Puts the character at `position` in front of the code that follows it: the code up to the next
`]` that the text does not open, and the code behind each such `]`. -/
def prepend (position : Nat) (c : Char) (current : Code) (outer : List Code) :
    Option (Code × List Code) :=
  match Token.ofChar c, outer with
  | .comment, outer => some (current, outer)
  | .primitive primitive, outer => some (command position primitive current, outer)
  | .bracket .closing, outer => some (done, current :: outer)
  | .bracket .opening, rest :: outer => some (loop current rest, outer)
  | .bracket .opening, [] => none

/-- Reads a text that starts at `position`, from its end to its start. -/
def parseFrom : (position : Nat) → List Char → Option (Code × List Code)
  | _, [] => some (done, [])
  | position, c :: text =>
    (parseFrom (position + 1) text).bind fun (current, outer) => prepend position c current outer

/-- The tree of a program, unless a bracket has no partner. -/
def parse (program : Program) : Option Code :=
  match parseFrom 0 program.toList with
  | some (code, []) => some code
  | _ => none

variable {σ : Type}

/-- Executes code.  Each instruction, each loop entered and each round of one takes one unit of
`fuel` from what follows, and code that needs more has no outcome. -/
def eval (settings : Settings) (feed : Feed σ) : (fuel : Nat) → Code → World σ → Option (Outcome σ)
  | 0, _, _ => none
  | _ + 1, done, world => some { world }
  | fuel + 1, command position primitive rest, world =>
    match primitive.perform settings feed world with
    | (world, none) => eval settings feed fuel rest world
    | (world, some fault) => some { world, failure := some (position, fault) }
  | fuel + 1, loop body rest, world =>
    if world.tape.current = 0 then eval settings feed fuel rest world
    else
      match eval settings feed fuel body world with
      | none => none
      | some ⟨world, none⟩ => eval settings feed fuel (loop body rest) world
      | some ⟨world, some failure⟩ => some ⟨world, some failure⟩

/-- The execution of code from `world` ends, with `outcome`. -/
def Yields (settings : Settings) (feed : Feed σ) (code : Code) (world : World σ)
    (outcome : Outcome σ) : Prop :=
  ∃ fuel, eval settings feed fuel code world = some outcome

variable {settings : Settings} {feed : Feed σ} {fuel : Nat} {code : Code} {world : World σ}
  {outcome : Outcome σ}

theorem eval_succ (ended : code.eval settings feed fuel world = some outcome) :
    code.eval settings feed (fuel + 1) world = some outcome := by
  induction fuel generalizing code world outcome with
  | zero => contradiction
  | succ fuel ih =>
    cases code with
    | done => exact ended
    | command position primitive rest =>
      rw [eval] at ended ⊢
      split at ended
      · exact ih ended
      · exact ended
    | loop body rest =>
      rw [eval] at ended ⊢
      by_cases zero : world.tape.current = 0
      · rw [if_pos zero] at ended ⊢
        exact ih ended
      · rw [if_neg zero] at ended ⊢
        split at ended
        · contradiction
        next round => rw [ih round]; exact ih ended
        next round => rw [ih round]; exact ended

theorem eval_of_le {more : Nat} (ended : code.eval settings feed fuel world = some outcome)
    (le : fuel ≤ more) : code.eval settings feed more world = some outcome := by
  induction le with
  | refl => exact ended
  | step _ ih => exact eval_succ ih

theorem Yields.unique {outcome' : Outcome σ} (yields : code.Yields settings feed world outcome)
    (yields' : code.Yields settings feed world outcome') : outcome = outcome' := by
  obtain ⟨fuel, ended⟩ := yields
  obtain ⟨fuel', ended'⟩ := yields'
  have more := eval_of_le ended (Nat.le_max_left fuel fuel')
  have more' := eval_of_le ended' (Nat.le_max_right fuel fuel')
  exact Option.some.inj (more.symm.trans more')

end Code

/-- The text from `start` on and before `stop` is that of the code. -/
inductive Spans (program : Program) : Code → (start stop : Nat) → Prop
  | done {stop : Nat} : Spans program .done stop stop
  | comment {code : Code} {start stop : Nat} {c : Char} (at_start : program[start]? = some c)
      (token : Token.ofChar c = .comment) (rest : Spans program code (start + 1) stop) :
      Spans program code start stop
  | command {primitive : Primitive} {code : Code} {start stop : Nat} {c : Char}
      (at_start : program[start]? = some c) (token : Token.ofChar c = .primitive primitive)
      (rest : Spans program code (start + 1) stop) :
      Spans program (.command start primitive code) start stop
  | loop {inner code : Code} {opening closing stop : Nat} (opens : program[opening]? = some '[')
      (body : Spans program inner (opening + 1) closing) (closes : program[closing]? = some ']')
      (rest : Spans program code (closing + 1) stop) :
      Spans program (.loop inner code) opening stop

namespace Spans

variable {program : Program} {code : Code} {start stop : Nat}

theorem le (spans : Spans program code start stop) : start ≤ stop := by
  induction spans with
  | done => exact Nat.le_refl _
  | comment _ _ _ ih => exact Nat.le_of_succ_le ih
  | command _ _ _ ih => exact Nat.le_of_succ_le ih
  | loop _ _ _ _ body rest => omega

theorem balanced (spans : Spans program code start stop) :
    Balanced (program.between start stop) := by
  induction spans with
  | done => rw [Program.between_self]; exact Balanced.nil
  | comment at_start token rest ih =>
    rw [Program.between_eq_cons rest.le at_start]
    exact Balanced.skip (Token.bracket_eq_none (by simp [token])) ih
  | command at_start token rest ih =>
    rw [Program.between_eq_cons rest.le at_start]
    exact Balanced.skip (Token.bracket_eq_none (by simp [token])) ih
  | loop opens body closes rest inner outer =>
    have le := rest.le
    have lt := body.le
    rw [Program.between_eq_cons (by omega) opens, Program.between_append lt (by omega),
      Program.between_eq_cons le closes]
    exact inner.loop outer

end Spans

/-- What stands behind a position: code up to the first `]` not opened there, and more code behind
each such `]`. -/
def Stacked (program : Program) : (start : Nat) → Code → List Code → Prop
  | start, current, [] => Spans program current start program.size
  | start, current, next :: outer => ∃ closing, Spans program current start closing ∧
      program[closing]? = some ']' ∧ Stacked program (closing + 1) next outer

namespace Stacked

variable {program : Program} {start : Nat} {c : Char} {current code : Code} {outer codes : List Code}

/-- What can be put in front of the current code can be put in front of the stack. -/
theorem mono {start' : Nat}
    (spans : ∀ stop, Spans program current start stop → Spans program code start' stop)
    (stacked : Stacked program start current outer) : Stacked program start' code outer := by
  cases outer with
  | nil => exact spans _ stacked
  | cons next outer =>
    obtain ⟨closing, current, rest⟩ := stacked
    exact ⟨closing, spans _ current, rest⟩

theorem prepend (stacked : Stacked program (start + 1) current outer)
    (at_start : program[start]? = some c)
    (prepended : Code.prepend start c current outer = some (code, codes)) :
    Stacked program start code codes := by
  unfold Code.prepend at prepended
  split at prepended
  next token =>
    cases prepended
    exact stacked.mono fun stop => Spans.comment at_start token
  next token =>
    cases prepended
    exact stacked.mono fun stop => Spans.command at_start token
  next token =>
    cases prepended
    obtain rfl := Token.ofChar_eq_bracket_iff.mp token
    exact ⟨start, .done, at_start, stacked⟩
  next token =>
    cases prepended
    obtain rfl := Token.ofChar_eq_bracket_iff.mp token
    obtain ⟨closing, body, closes, rest⟩ := stacked
    exact rest.mono fun stop => Spans.loop at_start body closes
  · contradiction

theorem parseFrom {text : List Char} (le : start ≤ program.size)
    (suffix : program.toList.drop start = text)
    (parsed : Code.parseFrom start text = some (current, outer)) :
    Stacked program start current outer := by
  induction text generalizing start current outer with
  | nil =>
    cases parsed
    have ge := List.drop_eq_nil_iff.mp suffix
    obtain rfl : start = program.size := Nat.le_antisymm le ge
    exact Spans.done
  | cons c text ih =>
    obtain ⟨⟨current, outer⟩, parsed, prepended⟩ := Option.bind_eq_some_iff.mp parsed
    have at_start : program[start]? = some c := by
      rw [← Array.getElem?_toList, ← Nat.add_zero start, ← List.getElem?_drop, suffix]
      rfl
    refine (ih (Program.lt_size at_start) ?_ parsed).prepend at_start prepended
    rw [← List.tail_drop, suffix, List.tail_cons]

end Stacked

/-- A text that closes `depth` more loops than it opens can be read, with as much code behind it. -/
theorem parseFrom_eq_some {depth : Nat} (start : Nat) {text : List Char}
    (none_left : depthAfter depth text = some 0) :
    ∃ current outer, Code.parseFrom start text = some (current, outer) ∧ outer.length = depth := by
  induction text generalizing depth start with
  | nil =>
    obtain rfl : depth = 0 := Option.some.inj none_left
    exact ⟨.done, [], rfl, rfl⟩
  | cons c text ih =>
    rw [depthAfter_cons, Option.bind_eq_some_iff] at none_left
    obtain ⟨inner, nested, none_left⟩ := none_left
    obtain ⟨current, outer, parsed, rfl⟩ := ih (start + 1) none_left
    simp only [Code.parseFrom, parsed, Option.bind_some]
    cases token : Token.ofChar c with
    | comment =>
      rw [nest_of_none (Token.bracket_eq_none (by simp [token]))] at nested
      exact ⟨current, outer, by simp [Code.prepend, token], (Option.some.inj nested).symm⟩
    | primitive primitive =>
      rw [nest_of_none (Token.bracket_eq_none (by simp [token]))] at nested
      exact ⟨_, outer, by simp [Code.prepend, token]; rfl, (Option.some.inj nested).symm⟩
    | bracket side =>
      obtain rfl := Token.ofChar_eq_bracket_iff.mp token
      cases side with
      | closing =>
        refine ⟨.done, current :: outer, by simp [Code.prepend, token], ?_⟩
        exact (nest_closing_eq_some_iff.mp nested).symm
      | opening =>
        obtain ⟨rest, outer, rfl⟩ := List.exists_cons_of_length_eq_add_one
          (Option.some.inj nested).symm
        refine ⟨.loop current rest, outer, by simp [Code.prepend, token], ?_⟩
        exact Nat.succ.inj (Option.some.inj nested).symm

/-- A balanced program has a tree, and the tree is that of its whole text. -/
theorem parse_eq_some {program : Program} (balanced : Balanced program.toList) :
    ∃ code, Code.parse program = some code ∧ Spans program code 0 program.size := by
  obtain ⟨code, outer, parsed, none_outer⟩ :=
    parseFrom_eq_some 0 (balanced_iff_depthAfter.mp balanced)
  obtain rfl := List.eq_nil_of_length_eq_zero none_outer
  have spans := Stacked.parseFrom (Nat.zero_le _) (List.drop_zero ..) parsed
  exact ⟨code, by rw [Code.parse, parsed], spans⟩

end Brainfuck
