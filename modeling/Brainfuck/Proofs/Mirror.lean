import Brainfuck.Proofs.Classic
import Brainfuck.Proofs.Rerun
import Brainfuck.Proofs.Ring

/-! Left and right.  On a classic tape the first cell is no edge, and the cell as far to its left as
another is to its right stands in for that one.  So a program in which `<` and `>` have changed
places runs as the program itself does, on the mirror image of its tape. -/

namespace Brainfuck

def Direction.opposite : Direction → Direction
  | left => right
  | right => left

/-- The same operation with left and right exchanged. -/
def Tape.Operation.mirror : Tape.Operation → Tape.Operation
  | move direction => move direction.opposite
  | operation => operation

def Instruction.mirror : Instruction → Instruction
  | move direction => move direction.opposite
  | instruction => instruction

theorem Instruction.operation?_mirror (instruction : Instruction) :
    instruction.mirror.operation? = instruction.operation?.map Tape.Operation.mirror := by
  cases instruction <;> rfl

/-- `>` for `<`, `<` for `>`, and any other character for itself. -/
def mirrorChar (c : Char) : Char := if c = '<' then '>' else if c = '>' then '<' else c

theorem ofChar?_mirrorChar (c : Char) :
    Instruction.ofChar? (mirrorChar c) = (Instruction.ofChar? c).map Instruction.mirror := by
  unfold mirrorChar
  split
  next left => subst left; rfl
  next no_left =>
    split
    next right => subst right; rfl
    next no_right =>
      unfold Instruction.ofChar?
      split <;> first | contradiction | rfl

theorem bracket_mirrorChar (c : Char) : Bracket.ofChar? (mirrorChar c) = Bracket.ofChar? c := by
  unfold mirrorChar
  split
  next left => subst left; rfl
  next =>
    split
    next right => subst right; rfl
    next => rfl

namespace Program

variable {program : Program} {position rest depth : Nat}

def mirror (program : Program) : Program := program.map mirrorChar

@[simp] theorem size_mirror : program.mirror.size = program.size := Array.size_map

theorem getElem?_mirror : program.mirror[position]? = program[position]?.map mirrorChar :=
  Array.getElem?_map

theorem bracketAt_mirror :
    program.mirror[position]?.bind Bracket.ofChar? = program[position]?.bind Bracket.ofChar? := by
  rw [getElem?_mirror, Option.bind_map]
  exact congrArg _ (funext bracket_mirrorChar)

theorem seekClosing_mirror :
    program.mirror.seekClosing rest depth = program.seekClosing rest depth := by
  induction rest generalizing depth with
  | zero => rfl
  | succ rest ih => simp only [seekClosing, size_mirror, bracketAt_mirror, ih]

theorem seekOpening_mirror :
    program.mirror.seekOpening position depth = program.seekOpening position depth := by
  induction position generalizing depth with
  | zero => rfl
  | succ position ih => simp only [seekOpening, bracketAt_mirror, ih]

/-- A jump leads to the same position. -/
theorem target_mirror (bracket : Bracket) :
    program.mirror.target position bracket = program.target position bracket := by
  rw [target, target]
  cases bracket with
  | opening => rw [partner?, partner?, size_mirror, seekClosing_mirror]
  | closing => rw [partner?, partner?, size_mirror, seekOpening_mirror]

end Program

namespace Tape

/-- The index as far to the left of the first cell of a ring as this one is to the right. -/
def across (length index : Nat) : Nat := (length - index) % length

section Across

variable {length index other : Nat}

theorem across_lt (inside : index < length) : across length index < length :=
  Nat.mod_lt _ (Nat.zero_lt_of_lt inside)

theorem across_eq_ite (inside : index < length) :
    across length index = if index = 0 then 0 else length - index := by
  split
  next first => rw [first, across, Nat.sub_zero, Nat.mod_self]
  next => exact Nat.mod_eq_of_lt (by omega)

theorem across_across (inside : index < length) : across length (across length index) = index := by
  rw [across_eq_ite (across_lt inside), across_eq_ite inside]
  split <;> split <;> omega

theorem across_eq_iff (inside : index < length) (inside' : other < length) :
    across length index = other ↔ index = across length other := by
  constructor
  · rintro rfl
    exact (across_across inside).symm
  · rintro rfl
    exact across_across inside'

/-- On a ring the index across is the negative. -/
theorem natCast_across (inside : index < length) :
    (across length index : Int) = -index % length := by
  rw [across, Int.natCast_emod, Int.ofNat_sub (Nat.le_of_lt inside), Int.sub_emod_left]

/-- As far as one place is moved, so far is the place across moved back. -/
theorem eq_across_of_moved {back : Nat} {shift : Int} (inside : index < length)
    (inside' : other < length) (moved : (other : Int) = (index + shift) % length)
    (moved_back : (back : Int) = (across length index + -shift) % length) :
    back = across length other := by
  apply Int.ofNat_inj.mp
  calc (back : Int)
    _ = (-index % length + -shift) % length := by rw [moved_back, natCast_across inside]
    _ = (0 - (index + shift)) % length := by
      rw [Int.emod_add_emod, Int.zero_sub, Int.neg_add]
    _ = -other % length := by rw [← Int.sub_emod_emod, ← moved, Int.zero_sub]
    _ = across length other := (natCast_across inside').symm

end Across

/-- The tape with every cell in the place across the first one, and the pointer with its cell. -/
def mirror (tape : Tape) : Tape where
  cells := Array.ofFn fun index : Fin tape.length =>
    getElem tape.cells (across tape.length index) (across_lt index.isLt)
  pointer := across tape.length tape.pointer
  policy := tape.policy
  pointer_lt := by
    rw [Array.size_ofFn]
    exact across_lt tape.pointer_lt

variable {tape : Tape}

@[simp] theorem length_mirror : tape.mirror.length = tape.length := Array.size_ofFn

theorem getElem?_mirror {index : Nat} (inside : index < tape.length) :
    tape.mirror.cells[index]? = tape.cells[across tape.length index]? := by
  have inside' : across tape.length index < tape.cells.size := across_lt inside
  rw [Array.getElem?_eq_getElem inside']
  exact Array.getElem?_ofFn.trans (dif_pos inside)

theorem getElem?_mirror_across {index : Nat} (inside : index < tape.length) :
    tape.mirror.cells[across tape.length index]? = tape.cells[index]? := by
  rw [getElem?_mirror (across_lt inside), across_across inside]

theorem getElem?_current : tape.cells[tape.pointer]? = some tape.current :=
  Array.getElem?_eq_getElem tape.pointer_lt

@[simp] theorem current_mirror : tape.mirror.current = tape.current := by
  have same := getElem?_mirror_across tape.pointer_lt
  rw [getElem?_current] at same
  exact Option.some.inj (getElem?_current.symm.trans same)

/-- A tape is the mirror image of another if each cell is what the cell across is. -/
theorem eq_mirror {image : Tape} (length : image.length = tape.length)
    (cells : ∀ index < tape.length, image.cells[index]? = tape.cells[across tape.length index]?)
    (pointer : image.pointer = across tape.length tape.pointer)
    (policy : image.policy = tape.policy) : image = tape.mirror := by
  refine Tape.ext (Array.ext_getElem? fun index => ?_) pointer policy
  rcases Nat.lt_or_ge index tape.length with inside | outside
  · rw [cells index inside, getElem?_mirror inside]
  · rw [Array.getElem?_eq_none (Nat.le_trans (Nat.le_of_eq length) outside),
      Array.getElem?_eq_none (Nat.le_trans (Nat.le_of_eq length_mirror) outside)]

@[simp] theorem store_mirror (value : UInt32) :
    tape.mirror.store value = (tape.store value).mirror := by
  refine eq_mirror (by simp) (fun index inside => ?_) (by simp [mirror]) rfl
  rw [length_store] at inside ⊢
  rcases eq_or_ne (across tape.length index) tape.pointer with here | elsewhere
  · have here' := (across_eq_iff inside tape.pointer_lt).mp here
    rw [here, here']
    exact (getElem?_current.trans (by simp)).trans getElem?_current.symm
  · have elsewhere' : index ≠ tape.mirror.pointer :=
      fun here => elsewhere ((across_eq_iff inside tape.pointer_lt).mpr here)
    rw [getElem?_store_of_ne _ value elsewhere, getElem?_store_of_ne _ value elsewhere',
      getElem?_mirror inside]

theorem mirror_reset : tape.reset.mirror = tape.reset := by
  refine (eq_mirror rfl (fun index inside => ?_) ?_ rfl).symm
  · have inside' := across_lt inside
    simp only [reset, length, Array.size_replicate, Array.getElem?_replicate] at inside inside' ⊢
    rw [if_pos inside, if_pos inside']
  · exact (Nat.mod_self _).symm

theorem mirror_of_create {allocator : Allocator} {length : Nat} {policy : OverflowPolicy}
    (created : create allocator length policy = .ok tape) : tape.mirror = tape := by
  obtain ⟨rfl, rfl, -⟩ := create_eq_ok created
  rw [← create_eq_reset created rfl rfl, mirror_reset]

theorem pointer_move_classic {direction : Direction} {after : Tape}
    (classic : tape.policy = .classic) (moved : tape.perform (.move direction) = .ok after) :
    (after.pointer : Int) =
      (tape.pointer + Operation.shift (.move direction)) % tape.length := by
  obtain ⟨after', moved', same⟩ := perform_move_classic classic direction
  obtain rfl := Except.ok.inj (moved'.symm.trans moved)
  exact congrArg Unbounded.pointer same

theorem perform_move_mirror (classic : tape.policy = .classic) (direction : Direction) :
    tape.mirror.perform (.move direction.opposite) =
      (tape.perform (.move direction)).map mirror := by
  have classic' : tape.mirror.policy = .classic := classic
  obtain ⟨after, moved, -⟩ := perform_move_classic classic direction
  obtain ⟨image, moved', -⟩ := perform_move_classic classic' direction.opposite
  obtain ⟨length, policy⟩ := perform_eq_ok moved
  obtain ⟨length', policy'⟩ := perform_eq_ok moved'
  rw [length_mirror] at length'
  have pointer : image.pointer = across tape.length after.pointer := by
    have back : Operation.shift (.move direction.opposite) =
        -Operation.shift (.move direction) := by
      cases direction <;> rfl
    have reached := pointer_move_classic classic' moved'
    rw [length_mirror, back] at reached
    exact eq_across_of_moved tape.pointer_lt (length ▸ after.pointer_lt)
      (pointer_move_classic classic moved) reached
  rw [moved, moved']
  refine congrArg Except.ok (eq_mirror (length'.trans length.symm) (fun index inside => ?_) ?_ ?_)
  · rw [length] at inside ⊢
    rw [cells_move moved', cells_move moved, getElem?_mirror inside]
  · rw [length, pointer]
  · rw [policy', policy]
    rfl

/-- What an operation does to a classic tape its mirror image does to the mirror image. -/
theorem perform_mirror (classic : tape.policy = .classic) (operation : Operation) :
    tape.mirror.perform operation.mirror = (tape.perform operation).map mirror := by
  have classic' : tape.mirror.policy = .classic := classic
  cases operation with
  | move direction => exact perform_move_mirror classic direction
  | increment =>
    simp only [Operation.mirror, perform, increment, classic, classic', current_mirror,
      store_mirror, Except.map]
  | decrement =>
    simp only [Operation.mirror, perform, decrement, classic, classic', current_mirror,
      store_mirror, Except.map]
  | reset =>
    have same : tape.mirror.reset = tape.reset :=
      Tape.ext (congrArg (Array.replicate · 0) length_mirror) rfl rfl
    exact congrArg Except.ok (same.trans mirror_reset.symm)
  | store value => exact congrArg Except.ok (store_mirror value)

end Tape

namespace Machine

variable {σ : Type} {feed : Feed σ} {state : Machine × σ} {machine : Machine} {count : Nat}

/-- The machine with `<` and `>` exchanged in its program, on the mirror image of its tape. -/
def mirror (machine : Machine) : Machine :=
  { machine with program := machine.program.mirror, tape := machine.tape.mirror }

@[simp] theorem halted_mirror : machine.mirror.halted = machine.halted := by
  simp [halted, mirror]

theorem instruction?_mirror :
    machine.mirror.instruction? = machine.instruction?.map Instruction.mirror := by
  rw [instruction?, instruction?, mirror, Program.getElem?_mirror, Option.bind_map, Option.map_bind]
  exact congrArg _ (funext ofChar?_mirrorChar)

theorem operated_mirror (result : Except Fault Tape) :
    machine.mirror.operated (result.map Tape.mirror) = (machine.operated result).mirror := by
  cases result <;> rfl

theorem write_mirror : machine.mirror.write = machine.write.mirror := by
  rw [write, write, show machine.mirror.tape.current = machine.tape.current from
    Tape.current_mirror, show machine.mirror.settings = machine.settings from rfl]
  cases machine.settings.output.encode machine.tape.current <;> rfl

theorem supply_mirror (value : Except Fault UInt32) :
    machine.mirror.supply value = (machine.supply value).mirror := by
  cases value with
  | error fault => rfl
  | ok value =>
    have stored : machine.tape.mirror.store value = (machine.tape.store value).mirror :=
      Tape.store_mirror value
    simp only [supply, mirror, stored]

theorem jump_mirror (bracket : Bracket) :
    machine.mirror.jump bracket = (machine.jump bracket).mirror := by
  rw [jump, jump, show machine.mirror.program.target machine.mirror.position bracket =
    machine.program.target machine.position bracket from Program.target_mirror bracket]
  cases machine.program.target machine.position bracket <;> rfl

/-- An instruction does to a classic machine what its mirror image does to the mirror image. -/
theorem advance_mirror (classic : state.1.tape.policy = .classic) :
    advance feed (viewState mirror state) = viewState mirror (advance feed state) := by
  obtain ⟨machine, source⟩ := state
  cases running : machine.halted with
  | true => rw [advance_of_halted (halted_mirror.trans running), advance_of_halted running]
  | false =>
    have running' : machine.mirror.halted = false := halted_mirror.trans running
    have executes' {next : Option Instruction} (executes : machine.instruction? = next) :
        machine.mirror.instruction? = next.map Instruction.mirror := by
      rw [instruction?_mirror, executes]
    have current : machine.mirror.tape.current = machine.tape.current := Tape.current_mirror
    refine advance_cases (motive := fun behind =>
      advance feed (machine.mirror, source) = viewState mirror behind) running ?comment ?operate
      ?write ?read ?jump ?pass
    case comment =>
      intro executes
      rw [advance_of_running running', executes' executes]
      rfl
    case operate =>
      intro instruction operation executes stands
      have stands' : instruction.mirror.operation? = some operation.mirror := by
        rw [Instruction.operation?_mirror, stands]
        rfl
      rw [advance_of_operation running' (executes' executes) stands', show machine.mirror.tape =
        machine.tape.mirror from rfl, Tape.perform_mirror classic, operated_mirror]
      rfl
    case write =>
      intro executes
      rw [advance_of_running running', executes' executes]
      exact congrArg (·, source) write_mirror
    case read =>
      intro executes
      rw [advance_of_running running', executes' executes]
      exact congrArg (·, (feed source).2) (supply_mirror _)
    case jump =>
      intro bracket executes taken
      have taken' : bracket.taken machine.mirror.tape.current := by
        rw [current]
        exact taken
      rw [advance_of_running running', executes' executes]
      exact congrArg (·, source) ((if_pos taken').trans (jump_mirror bracket))
    case pass =>
      intro bracket executes passed
      have passed' : ¬ bracket.taken machine.mirror.tape.current := by
        rw [current]
        exact Bool.not_eq_true _ ▸ passed
      rw [advance_of_running running', executes' executes]
      exact congrArg (·, source) (if_neg passed')

theorem after_mirror (fitted : Fitted state.1) (classic : state.1.settings.policy = .classic)
    (count : Nat) :
    after feed count (viewState mirror state) = viewState mirror (after feed count state) := by
  refine after_viewState fun earlier _ => advance_mirror ?_
  rw [(fitted_after fitted feed earlier).policy, settings_after, classic]

theorem create_mirror {allocator : Allocator} {program : Program} {settings : Settings} :
    create allocator program.mirror settings = (create allocator program settings).map mirror := by
  rw [create, create]
  cases created : Tape.create allocator settings.tapeLength settings.policy with
  | error fault => rfl
  | ok tape =>
    have image : ({ program := program.mirror, settings, tape } : Machine) =
        mirror { program, settings, tape } := by
      rw [mirror, Tape.mirror_of_create created]
    exact congrArg Except.ok image

end Machine

/-- Two runs have come to the same, the second one on the mirror image of the tape of the first. -/
structure Mirrored {σ : Type} (state state' : Machine × σ) : Prop where
  position : state'.1.position = state.1.position
  output : state'.1.output = state.1.output
  fault : state'.1.fault = state.1.fault
  log : state'.1.log = state.1.log
  source : state'.2 = state.2
  length : state'.1.tape.length = state.1.tape.length
  pointer : state'.1.tape.pointer =
    (state.1.tape.length - state.1.tape.pointer) % state.1.tape.length
  cells : ∀ index < state.1.tape.length,
    state'.1.tape.cells[(state.1.tape.length - index) % state.1.tape.length]? =
      state.1.tape.cells[index]?

/-- What a report says of a failure, apart from the program shown around it. -/
def Diagnostic.account (diagnostic : Diagnostic) : Fault × Nat × String :=
  (diagnostic.fault, diagnostic.position, diagnostic.output)

namespace Mirrored

variable {σ : Type} {state state' : Machine × σ}

theorem of_eq (same : state' = Machine.viewState Machine.mirror state) : Mirrored state state' := by
  rw [same]
  exact ⟨rfl, rfl, rfl, rfl, rfl, Tape.length_mirror, rfl, fun _ => Tape.getElem?_mirror_across⟩

theorem result (mirrored : Mirrored state state') :
    state'.1.result.mapError Diagnostic.account = state.1.result.mapError Diagnostic.account := by
  rw [Machine.result, Machine.result, mirrored.fault, mirrored.output, mirrored.position]
  cases state.1.fault <;> rfl

end Mirrored

/-- Under the classic policy a program and the one with `<` and `>` exchanged keep step with each
other on tapes that are mirror images.  So both fail to start, both run forever, or both come to the
same result, with the same writes, reads and jumps. -/
theorem mirrored_of_classic (allocator : Allocator) (program : Program) (settings : Settings)
    {σ : Type} (feed : Feed σ) (source : σ) :
    let classic : Settings := { settings with policy := .classic }
    (∃ fault, Machine.create allocator program classic = .error fault ∧
      Machine.create allocator program.mirror classic = .error fault) ∨
    ∃ machine image, Machine.create allocator program classic = .ok machine ∧
      Machine.create allocator program.mirror classic = .ok image ∧
      (∀ count, Mirrored (Machine.after feed count (machine, source))
        (Machine.after feed count (image, source))) ∧
      ((∃ final, Machine.Ends feed (image, source) final) ↔
        ∃ final, Machine.Ends feed (machine, source) final) ∧
      ∀ final final', Machine.Ends feed (machine, source) final →
        Machine.Ends feed (image, source) final' →
        Mirrored final final' ∧ final'.1.result.mapError Diagnostic.account =
          final.1.result.mapError Diagnostic.account := by
  intro classic
  rw [Machine.create_mirror]
  cases created : Machine.create allocator program classic with
  | error fault => exact .inl ⟨fault, rfl, rfl⟩
  | ok machine =>
    have made := Machine.madeFrom_of_create created
    have keeps_step (count : Nat) :
        Machine.after feed count (Machine.viewState Machine.mirror (machine, source)) =
          Machine.viewState Machine.mirror (Machine.after feed count (machine, source)) :=
      Machine.after_mirror made.fitted (congrArg Settings.policy made.settings) count
    have ends_iff {final : Machine × σ} :
        Machine.Ends feed (machine.mirror, source) final ↔ _ :=
      Machine.ends_viewState_iff keeps_step fun _ => Machine.halted_mirror
    refine .inr ⟨machine, machine.mirror, rfl, rfl, fun count => .of_eq (keeps_step count),
      ⟨?_, ?_⟩, fun final final' ends ends' => ?_⟩
    · rintro ⟨final, ends⟩
      obtain ⟨final', ends', -⟩ := ends_iff.mp ends
      exact ⟨final', ends'⟩
    · rintro ⟨final, ends⟩
      exact ⟨_, ends_iff.mpr ⟨final, ends, rfl⟩⟩
    · obtain ⟨final'', ends'', rfl⟩ := ends_iff.mp ends'
      obtain rfl := ends.unique ends''
      have mirrored := Mirrored.of_eq (rfl : Machine.viewState Machine.mirror final = _)
      exact ⟨mirrored, mirrored.result⟩

/-- Both runs cross the ends of three cells, and stop at a `]` without partner. -/
theorem mirrored_of_classic_at_ends :
    let settings : Settings := { policy := .classic, tapeLength := 3 }
    let feed := Feed.ofList (.error "closed")
    let answers : List Answer := [.ok "A"]
    ∃ machine image final final',
      Machine.create .ample (Program.ofString "<<,>+]") settings = .ok machine ∧
      Machine.create .ample (Program.ofString ">>,<+]") settings = .ok image ∧
      Machine.Ends feed (machine, answers) final ∧ final.1.fault = some (.unmatched .closing) ∧
      final.1.tape.pointer = 2 ∧ final.1.tape.cells = #[0, 65, 1] ∧
      Machine.Ends feed (image, answers) final' ∧ final'.1.fault = some (.unmatched .closing) ∧
      final'.1.tape.pointer = 1 ∧ final'.1.tape.cells[1]? = some 1 := by
  intro settings feed answers
  have exchanged : (Program.ofString "<<,>+]").mirror = Program.ofString ">>,<+]" := by
    decide +kernel
  obtain ⟨fault, failed, -⟩ | ⟨machine, image, created, created', -, ends_iff, same⟩ :=
    mirrored_of_classic .ample (Program.ofString "<<,>+]") settings feed answers
  · contradiction
  rw [exchanged] at created'
  have ran : (Machine.runFor feed 9 (machine, answers)).map (fun final => (final.1.fault,
      final.1.tape.pointer, final.1.tape.cells)) =
      some (some (.unmatched .closing), 2, #[0, 65, 1]) := by
    cases created
    decide +kernel
  obtain ⟨final, ends, shown⟩ := Machine.exists_ends_of_map ran
  simp only [Prod.mk.injEq] at shown
  obtain ⟨failed, pointer, cells⟩ := shown
  have length : final.1.tape.length = 3 := congrArg Array.size cells
  obtain ⟨final', ends'⟩ := ends_iff.mpr ⟨final, ends⟩
  obtain ⟨mirrored, -⟩ := same final final' ends ends'
  have cell := mirrored.cells 2 (by omega)
  rw [length, cells] at cell
  refine ⟨machine, image, final, final', created, created', ends, failed, pointer, cells, ends',
    mirrored.fault.trans failed, ?_, cell⟩
  rw [mirrored.pointer, length, pointer]

end Brainfuck
