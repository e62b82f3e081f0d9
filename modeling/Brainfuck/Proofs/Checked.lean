import Brainfuck.Proofs.Trace

/-! Checked execution.  The tape has no proof here that its pointer is on it, and each access to an
array and each sum, difference and product of words is checked: one that goes out of range has no
value, and neither has the step in which it stands.  The cells are words of 32 bits and the tape is
addressed by words of 64; `limit` bounds the words that count positions of the program. -/

namespace Brainfuck.Checked

section Words

variable {limit first second : Nat}

def add? (limit first second : Nat) : Option Nat :=
  if first + second < limit then some (first + second) else none

def sub? (first second : Nat) : Option Nat :=
  if second ≤ first then some (first - second) else none

def mul? (limit first second : Nat) : Option Nat :=
  if first * second < limit then some (first * second) else none

theorem add?_eq (fits : first + second < limit) : add? limit first second = some (first + second) :=
  if_pos fits

theorem sub?_eq (le : second ≤ first) : sub? first second = some (first - second) := if_pos le

theorem mul?_eq (fits : first * second < limit) : mul? limit first second = some (first * second) :=
  if_pos fits

end Words

structure Tape where
  cells : Array UInt32
  pointer : Nat
  policy : OverflowPolicy

namespace Tape

variable (tape : Tape)

def current? : Option UInt32 := tape.cells[tape.pointer]?

def store? (value : UInt32) : Option Tape :=
  if inside : tape.pointer < tape.cells.size then
    some { tape with cells := tape.cells.set tape.pointer value inside }
  else none

def moveLeft? : Option (Except Fault Tape) := do
  if tape.pointer = 0 then
    match tape.policy with
    | .classic =>
      let last ← sub? tape.cells.size 1
      return .ok { tape with pointer := last }
    | .strict => return .error (.offTape .left 0)
  else
    let pointer ← sub? tape.pointer 1
    return .ok { tape with pointer }

def moveRight? : Option (Except Fault Tape) := do
  let last ← sub? tape.cells.size 1
  if last ≤ tape.pointer then
    match tape.policy with
    | .classic => return .ok { tape with pointer := 0 }
    | .strict => return .error (.offTape .right last)
  else
    let pointer ← add? UInt64.size tape.pointer 1
    return .ok { tape with pointer }

/-- The strict policy has a use for a sum that is out of range: it is the fault. -/
def increment? : Option (Except Fault Tape) := do
  let value ← tape.current?
  match tape.policy with
  | .classic =>
    if 255 ≤ value then return .ok (← tape.store? 0)
    else
      let sum ← add? UInt32.size value.toNat 1
      return .ok (← tape.store? (.ofNat sum))
  | .strict =>
    match add? UInt32.size value.toNat 1 with
    | some sum => return .ok (← tape.store? (.ofNat sum))
    | none => return .error (.cellAtMaximum tape.pointer)

def decrement? : Option (Except Fault Tape) := do
  let value ← tape.current?
  match tape.policy with
  | .classic =>
    if value = 0 then return .ok (← tape.store? 255)
    else
      let difference ← sub? value.toNat 1
      return .ok (← tape.store? (.ofNat difference))
  | .strict =>
    match sub? value.toNat 1 with
    | some difference => return .ok (← tape.store? (.ofNat difference))
    | none => return .error (.cellAtMinimum tape.pointer)

def of (tape : Brainfuck.Tape) : Tape := ⟨tape.cells, tape.pointer, tape.policy⟩

variable {tape : Brainfuck.Tape} {value : UInt32}

@[simp] theorem policy_of : (of tape).policy = tape.policy := rfl

@[simp] theorem pointer_of : (of tape).pointer = tape.pointer := rfl

theorem current?_of : (of tape).current? = some tape.current :=
  Array.getElem?_eq_getElem tape.pointer_lt

theorem store?_of : (of tape).store? value = some (of (tape.store value)) :=
  dif_pos tape.pointer_lt

theorem moveLeft?_of : (of tape).moveLeft? = some (tape.moveLeft.map of) := by
  have last : sub? tape.cells.size 1 = some (tape.cells.size - 1) := sub?_eq tape.length_pos
  by_cases first : tape.pointer = 0
  · cases policy : tape.policy <;>
      simp [moveLeft?, Brainfuck.Tape.moveLeft, of, first, policy, last, Except.map]
  · have left : sub? tape.pointer 1 = some (tape.pointer - 1) :=
      sub?_eq (Nat.pos_of_ne_zero first)
    simp [moveLeft?, Brainfuck.Tape.moveLeft, of, first, left, Except.map]

theorem moveRight?_of (addressable : tape.length < UInt64.size) :
    (of tape).moveRight? = some (tape.moveRight.map of) := by
  have last : sub? tape.cells.size 1 = some (tape.cells.size - 1) := sub?_eq tape.length_pos
  by_cases at_last : tape.cells.size - 1 ≤ tape.pointer
  · cases policy : tape.policy <;>
      simp [moveRight?, Brainfuck.Tape.moveRight, of, at_last, policy, last, Except.map]
  · have right : add? UInt64.size tape.pointer 1 = some (tape.pointer + 1) :=
      add?_eq (Nat.lt_of_le_of_lt tape.pointer_lt addressable)
    simp [moveRight?, Brainfuck.Tape.moveRight, of, at_last, last, right, Except.map]

theorem increment?_of : (of tape).increment? = some (tape.increment.map of) := by
  have ofNat_succ : UInt32.ofNat (tape.current.toNat + 1) = tape.current + 1 := by
    rw [UInt32.ofNat_add, UInt32.ofNat_toNat]
    rfl
  cases policy : tape.policy with
  | classic =>
    by_cases large : 255 ≤ tape.current
    · simp [increment?, Brainfuck.Tape.increment, current?_of, store?_of, policy, large, Except.map]
    · have small : tape.current.toNat < 255 := UInt32.lt_iff_toNat_lt.mp (UInt32.not_le.mp large)
      have sum : add? UInt32.size tape.current.toNat 1 = some (tape.current.toNat + 1) :=
        add?_eq (Nat.lt_trans (Nat.add_lt_add_right small 1) (by decide))
      simp [increment?, Brainfuck.Tape.increment, current?_of, store?_of, policy, large, sum,
        ofNat_succ, Except.map]
  | strict =>
    by_cases maximum : tape.current = 0xFFFFFFFF
    · have none : add? UInt32.size 0xFFFFFFFF 1 = none := rfl
      simp [increment?, Brainfuck.Tape.increment, current?_of, policy, none, maximum, Except.map]
    · have small : tape.current.toNat + 1 < UInt32.size :=
        Nat.lt_of_le_of_ne tape.current.toNat_lt fun same =>
          maximum (UInt32.toNat_inj.mp (Nat.succ.inj same))
      simp [increment?, Brainfuck.Tape.increment, current?_of, store?_of, policy, add?_eq small,
        maximum, ofNat_succ, Except.map]

theorem decrement?_of : (of tape).decrement? = some (tape.decrement.map of) := by
  by_cases zero : tape.current = 0
  · have none : sub? 0 1 = none := rfl
    cases policy : tape.policy <;>
      simp [decrement?, Brainfuck.Tape.decrement, current?_of, store?_of, policy, zero, none,
        Except.map]
  · have positive : 1 ≤ tape.current := by
      rw [UInt32.le_iff_toNat_le]
      exact Nat.pos_of_ne_zero fun same => zero (UInt32.toNat_inj.mp same)
    have difference : sub? tape.current.toNat 1 = some (tape.current.toNat - 1) :=
      sub?_eq (UInt32.le_iff_toNat_le.mp positive)
    have ofNat_pred : UInt32.ofNat (tape.current.toNat - 1) = tape.current - 1 := by
      rw [← UInt32.toNat_inj, UInt32.toNat_sub_of_le _ _ positive]
      exact UInt32.toNat_ofNat_of_lt' (Nat.lt_of_le_of_lt (Nat.sub_le ..) tape.current.toNat_lt)
    cases policy : tape.policy <;>
      simp [decrement?, Brainfuck.Tape.decrement, current?_of, store?_of, policy, zero, difference,
        ofNat_pred, Except.map]

end Tape

section Search

variable {limit : Nat} {program : Program} {position : Nat}

def seekClosing? (limit : Nat) (program : Program) : (rest depth : Nat) → Option (Option Nat)
  | 0, _ => some none
  | rest + 1, depth => do
    let position ← sub? program.size (rest + 1)
    let c ← program[position]?
    match Bracket.ofChar? c with
    | none => seekClosing? limit program rest depth
    | some .opening =>
      let depth ← add? limit depth 1
      seekClosing? limit program rest depth
    | some .closing =>
      let depth ← sub? depth 1
      if depth = 0 then return some position else seekClosing? limit program rest depth

def seekOpening? (limit : Nat) (program : Program) : (stop depth : Nat) → Option (Option Nat)
  | 0, _ => some none
  | stop + 1, depth => do
    let c ← program[stop]?
    match Bracket.ofChar? c with
    | none => seekOpening? limit program stop depth
    | some .closing =>
      let depth ← add? limit depth 1
      seekOpening? limit program stop depth
    | some .opening =>
      let depth ← sub? depth 1
      if depth = 0 then return some stop else seekOpening? limit program stop depth

/-- The search to the right skips the characters up to the bracket, or all of them. -/
def target? (limit : Nat) (program : Program) (position : Nat) :
    Bracket → Option (Except Fault Nat)
  | .opening => do
    let first ← add? limit position 1
    return Program.found .opening (← seekClosing? limit program (program.size - first) 1)
  | .closing =>
    return Program.found .closing (← seekOpening? limit program (min position program.size) 1)

/-- A loop is open wherever the search looks on, and no more are open than there are characters. -/
theorem seekClosing?_eq {rest depth : Nat} (le : rest ≤ program.size) (inside : 1 ≤ depth)
    (fits : depth + rest < limit) :
    seekClosing? limit program rest depth = some (program.seekClosing rest depth) := by
  induction rest generalizing depth with
  | zero => rfl
  | succ rest ih =>
    have lt : program.size - (rest + 1) < program.size := by omega
    have head := Array.getElem?_eq_getElem lt
    have same := ih (Nat.le_of_succ_le le) inside (by omega)
    have deeper := ih (Nat.le_of_succ_le le) (Nat.le_succ_of_le inside)
      (show depth + 1 + rest < limit by omega)
    simp only [seekClosing?, Program.seekClosing, sub?_eq le, head, Option.bind_eq_bind,
      Option.bind_some]
    cases Bracket.ofChar? program[program.size - (rest + 1)] with
    | none => exact same
    | some bracket =>
      cases bracket with
      | opening =>
        rw [add?_eq (by omega)]
        exact deeper
      | closing =>
        rw [sub?_eq inside]
        by_cases last : depth - 1 = 0
        · simp [last]
        · have shallower := ih (Nat.le_of_succ_le le) (Nat.pos_of_ne_zero last)
            (show depth - 1 + rest < limit by omega)
          simp [last, shallower]

theorem seekOpening?_eq {stop depth : Nat} (le : stop ≤ program.size) (inside : 1 ≤ depth)
    (fits : depth + stop < limit) :
    seekOpening? limit program stop depth = some (program.seekOpening stop depth) := by
  induction stop generalizing depth with
  | zero => rfl
  | succ stop ih =>
    have head := Array.getElem?_eq_getElem (show stop < program.size from le)
    have same := ih (Nat.le_of_succ_le le) inside (by omega)
    have deeper := ih (Nat.le_of_succ_le le) (Nat.le_succ_of_le inside)
      (show depth + 1 + stop < limit by omega)
    simp only [seekOpening?, Program.seekOpening, head, Option.bind_eq_bind, Option.bind_some]
    cases Bracket.ofChar? program[stop] with
    | none => exact same
    | some bracket =>
      cases bracket with
      | closing =>
        rw [add?_eq (by omega)]
        exact deeper
      | opening =>
        rw [sub?_eq inside]
        by_cases last : depth - 1 = 0
        · simp [last]
        · have shallower := ih (Nat.le_of_succ_le le) (Nat.pos_of_ne_zero last)
            (show depth - 1 + stop < limit by omega)
          simp [last, shallower]

theorem target?_eq (fits : program.size + 1 < limit) (inside : position < program.size)
    (bracket : Bracket) :
    target? limit program position bracket = some (program.target position bracket) := by
  cases bracket with
  | opening =>
    rw [target?, add?_eq (by omega), Option.bind_eq_bind, Option.bind_some,
      seekClosing?_eq (Nat.sub_le ..) (Nat.le_refl _) (by omega)]
    rfl
  | closing =>
    rw [target?, seekOpening?_eq (Nat.min_le_right ..) (Nat.le_refl _) (by omega)]
    rfl

end Search

section Text

variable {limit : Nat} {program : Program} {position : Nat} {format : CellFormat} {value : UInt32}

def slice? (program : Program) (first stop : Nat) : Option (List Char) :=
  if first ≤ stop ∧ stop ≤ program.size then some (program.extract first stop).toList else none

/-- The window of a diagnostic.  The start of the window is cut off at zero by design. -/
def window? (limit : Nat) (program : Program) (position : Nat) : Option (List Char) := do
  let start := position - Diagnostic.margin
  let behind ← add? limit position Diagnostic.margin
  let stop := min behind program.size
  let before ← sub? position start
  let left ← sub? Diagnostic.margin before
  let shown ← slice? program (min start stop) stop
  let right ← sub? behind (max stop position)
  return Diagnostic.blanks left ++ (shown.map fun c => if Text.isBlank c then ' ' else c) ++
    Diagnostic.blanks right

theorem window?_eq (fits : position + Diagnostic.margin < limit) :
    window? limit program position = some (Diagnostic.windowChars program position) := by
  have before := sub?_eq (Nat.sub_le position Diagnostic.margin)
  have left := sub?_eq
    (show position - (position - Diagnostic.margin) ≤ Diagnostic.margin by omega)
  have shown (first : Nat) : slice? program (min first (min (position + Diagnostic.margin)
      program.size)) (min (position + Diagnostic.margin) program.size) = some _ :=
    if_pos ⟨Nat.min_le_right .., Nat.min_le_right ..⟩
  have right := sub?_eq (show max (min (position + Diagnostic.margin) program.size) position ≤
    position + Diagnostic.margin by omega)
  simp only [window?, add?_eq fits, before, left, shown, right, Option.bind_eq_bind,
    Option.bind_some]
  rfl

def encode? : CellFormat → UInt32 → Option (Except Fault String)
  | .character, value => some (CellFormat.character.encode value)
  | .numeric, value =>
    if value < 10 then some (.ok (toString value.toNat))
    else do
      let tens := value.toNat / 10
      let rounded ← mul? UInt32.size 10 tens
      let ones ← sub? value.toNat rounded
      if tens < 10 ∧ ones < 10 then
        let rounded ← mul? UInt32.size tens 10
        let sum ← add? UInt32.size rounded ones
        return .ok (toString sum)
      else return .ok (toString value.toNat)

theorem encode?_eq : encode? format value = some (format.encode value) := by
  cases format with
  | character => rfl
  | numeric =>
    have rounded := mul?_eq (show 10 * (value.toNat / 10) < UInt32.size from
      Nat.lt_of_le_of_lt (Nat.mul_div_le ..) value.toNat_lt)
    have ones := sub?_eq (Nat.mul_div_le value.toNat 10)
    have again := mul?_eq (show value.toNat / 10 * 10 < UInt32.size from
      Nat.lt_of_le_of_lt (Nat.div_mul_le_self ..) value.toNat_lt)
    have whole : value.toNat / 10 * 10 + (value.toNat - 10 * (value.toNat / 10)) = value.toNat := by
      omega
    have sum : add? UInt32.size (value.toNat / 10 * 10) (value.toNat - 10 * (value.toNat / 10)) =
        some value.toNat := by
      rw [add?_eq (by rw [whole]; exact value.toNat_lt), whole]
    rw [encode?, CellFormat.encode, CellFormat.decimal_eq]
    split
    · rfl
    · simp only [rounded, ones, again, sum, Option.bind_eq_bind, Option.bind_some]
      split <;> rfl

def unpack? (word : UInt32) : Option (Except Fault UInt32) :=
  match CellFormat.digit? word with
  | some digit => some (.ok digit)
  | none =>
    match CellFormat.digit? (word >>> 16), CellFormat.digit? (word &&& 0xFFFF) with
    | some tens, some ones => do
      let rounded ← mul? UInt32.size tens.toNat 10
      let sum ← add? UInt32.size rounded ones.toNat
      return .ok (.ofNat sum)
    | _, _ => some (.error .notDigits)

def read? : CellFormat → Answer → Option (Except Fault UInt32)
  | .numeric, .ok text =>
    match CellFormat.pack text.toList with
    | .ok word => unpack? word
    | .error fault => some (.error fault)
  | format, answer => some (format.read answer)

theorem unpack?_eq {word : UInt32} : unpack? word = some (CellFormat.unpack word) := by
  cases whole : CellFormat.digit? word with
  | some digit => simp [unpack?, CellFormat.unpack, whole]
  | none =>
    cases upper : CellFormat.digit? (word >>> 16) with
    | none => simp [unpack?, CellFormat.unpack, whole, upper]
    | some tens =>
      cases lower : CellFormat.digit? (word &&& 0xFFFF) with
      | none => simp [unpack?, CellFormat.unpack, whole, upper, lower]
      | some ones =>
        have high := CellFormat.digit?_le upper
        have low := CellFormat.digit?_le lower
        have size : UInt32.size = 4294967296 := rfl
        have rounded : mul? UInt32.size tens.toNat 10 = some (tens.toNat * 10) :=
          mul?_eq (by omega)
        have sum : add? UInt32.size (tens.toNat * 10) ones.toNat =
            some (tens.toNat * 10 + ones.toNat) :=
          add?_eq (by omega)
        have same : UInt32.ofNat (tens.toNat * 10 + ones.toNat) = tens * 10 + ones := by
          rw [UInt32.ofNat_add, UInt32.ofNat_mul, UInt32.ofNat_toNat, UInt32.ofNat_toNat]
          rfl
        simp [unpack?, CellFormat.unpack, whole, upper, lower, rounded, sum, same]

theorem read?_eq {answer : Answer} : read? format answer = some (format.read answer) := by
  unfold read?
  split
  next text =>
    rw [CellFormat.read, CellFormat.decode, CellFormat.decodeChars]
    cases CellFormat.pack text.toList with
    | ok word => exact unpack?_eq
    | error fault => rfl
  · rfl

end Text

structure Engine where
  program : Program
  settings : Settings
  tape : Tape
  position : Nat
  output : String

namespace Engine

/-- Executes an instruction on the cell at hand, where a `,` is given this answer.  A jump leads to
the bracket itself. -/
def execute? (limit : Nat) (answer : Answer) (cell : UInt32) (engine : Engine) :
    Option Instruction → Option (Except Fault Engine)
  | none => some (.ok engine)
  | some (.move .left) => do return (← engine.tape.moveLeft?).map ({ engine with tape := · })
  | some (.move .right) => do return (← engine.tape.moveRight?).map ({ engine with tape := · })
  | some .increment => do return (← engine.tape.increment?).map ({ engine with tape := · })
  | some .decrement => do return (← engine.tape.decrement?).map ({ engine with tape := · })
  | some .write => do
    return (← encode? engine.settings.output cell).map
      ({ engine with output := engine.output ++ · })
  | some .read => do
    match ← read? engine.settings.input answer with
    | .ok value => return .ok { engine with tape := ← engine.tape.store? value }
    | .error fault => return .error fault
  | some (.loop bracket) =>
    if bracket.taken cell then do
      return (← target? limit engine.program engine.position bracket).map
        ({ engine with position := · })
    else some (.ok engine)

def step? (limit : Nat) (answer : Answer) (engine : Engine) : Option (Except Fault Engine) := do
  let cell ← engine.tape.current?
  let c ← engine.program[engine.position]?
  engine.execute? limit answer cell (Instruction.ofChar? c)

/-- Executes one character and goes on to the next, or makes the report of a fault. -/
def advance? (limit : Nat) (answer : Answer) (engine : Engine) :
    Option (Except Diagnostic Engine) := do
  match ← engine.step? limit answer with
  | .ok engine => return .ok { engine with position := ← add? limit engine.position 1 }
  | .error fault =>
    let window ← window? limit engine.program engine.position
    return .error ⟨engine.position, String.ofList window, engine.output, fault⟩

def of (machine : Machine) : Engine :=
  ⟨machine.program, machine.settings, .of machine.tape, machine.position, machine.output⟩

/-- What is there behind an instruction: a machine that goes on, or the report of its fault. -/
def outcome (machine : Machine) : Except Diagnostic Engine :=
  match machine.fault with
  | none => .ok (of machine)
  | some fault =>
    .error (Diagnostic.of machine.program machine.position machine.output fault)

end Engine

end Brainfuck.Checked
