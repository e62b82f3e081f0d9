import Brainfuck.Proofs.Partner
import Brainfuck.Proofs.Trace

/-! A table of the partners of all brackets, made in one pass over the program with a stack of the
`[` that wait for theirs.  What the table says of a bracket is what a search from it finds, in
balanced programs and in others, so a machine that looks its targets up runs as one that searches. -/

namespace Brainfuck

structure Pass where
  /-- The `[` that wait for their partners, the innermost first. -/
  pending : List Nat
  /-- For each position the partner of its bracket, as far as it is known. -/
  partners : Array (Option Nat)

/-- Takes notice of the bracket at `position`, if one stands there. -/
def Pass.read (pass : Pass) (position : Nat) : Option Bracket → Pass
  | none => pass
  | some .opening => { pass with pending := position :: pass.pending }
  | some .closing =>
    match pass.pending with
    | [] => pass
    | opening :: pending =>
      { pending
        partners := (pass.partners.setIfInBounds opening (some position)).setIfInBounds position
          (some opening) }

namespace Program

def pass (program : Program) : (count : Nat) → Pass
  | 0 => ⟨[], Array.replicate program.size none⟩
  | count + 1 => (program.pass count).read count (program[count]?.bind Bracket.ofChar?)

def table (program : Program) : Array (Option Nat) := (program.pass program.size).partners

/-- What a table has for a jump from `position`. -/
def lookup (table : Array (Option Nat)) (position : Nat) (bracket : Bracket) : Except Fault Nat :=
  found bracket table[position]?.join

/-- The stack holds the loops that are open behind the first `count` characters, and the table the
pairs among these characters. -/
structure Passed (program : Program) (count : Nat) (pass : Pass) : Prop where
  size : pass.partners.size = program.size
  pending : ∀ depth opening,
    pass.pending[depth]? = some opening ↔ program.OpensAt depth count opening
  partners : ∀ position partner, pass.partners[position]? = some (some partner) ↔
    position < count ∧ partner < count ∧ program.Paired position partner

variable {program : Program} {count position partner opening : Nat} {pass : Pass} {c : Char}

/-- A pair that comes to a prefix with one more character is a loop that this character closes. -/
theorem paired_lt_succ_iff :
    (position < count + 1 ∧ partner < count + 1 ∧ program.Paired position partner) ↔
      (position < count ∧ partner < count ∧ program.Paired position partner) ∨
      (position = count ∧ program.Loop partner count) ∨
      (partner = count ∧ program.Loop position count) := by
  constructor
  · rintro ⟨lt, lt', loop | loop⟩
    · rcases Nat.eq_or_lt_of_le (Nat.le_of_lt_succ lt') with rfl | lt'
      · exact .inr (.inr ⟨rfl, loop⟩)
      · exact .inl ⟨Nat.lt_trans loop.lt lt', lt', .inl loop⟩
    · rcases Nat.eq_or_lt_of_le (Nat.le_of_lt_succ lt) with rfl | lt
      · exact .inr (.inl ⟨rfl, loop⟩)
      · exact .inl ⟨lt, Nat.lt_trans loop.lt lt, .inr loop⟩
  · rintro (⟨lt, lt', paired⟩ | ⟨rfl, loop⟩ | ⟨rfl, loop⟩)
    · exact ⟨Nat.lt_succ_of_lt lt, Nat.lt_succ_of_lt lt', paired⟩
    · exact ⟨Nat.lt_succ_self _, Nat.lt_succ_of_lt loop.lt, .inr loop⟩
    · exact ⟨Nat.lt_succ_of_lt loop.lt, Nat.lt_succ_self _, .inl loop⟩

theorem passed_zero : program.Passed 0 (program.pass 0) where
  size := by simp [Program.pass]
  pending := by simp [Program.pass, OpensAt]
  partners := by simp [Program.pass, Array.getElem?_replicate]

/-- A character that closes no loop adds no pair. -/
theorem Passed.partners_succ (passed : program.Passed count pass)
    (closes_none : ∀ opening, ¬ program.Loop opening count) (position partner : Nat) :
    pass.partners[position]? = some (some partner) ↔
      position < count + 1 ∧ partner < count + 1 ∧ program.Paired position partner := by
  rw [paired_lt_succ_iff, passed.partners]
  simp [closes_none]

theorem Passed.skip (passed : program.Passed count pass) (last : program[count]? = some c)
    (other : Bracket.ofChar? c = none) : program.Passed (count + 1) pass := by
  refine ⟨passed.size, fun depth opening => ?_, passed.partners_succ fun opening loop => ?_⟩
  · have not_opening : c ≠ '[' := by rintro rfl; contradiction
    rw [passed.pending, opensAt_succ_iff last]
    simp [not_opening, nest_of_none other]
  · obtain rfl := Option.some.inj (last.symm.trans loop.closes)
    contradiction

theorem Passed.enter (passed : program.Passed count pass) (opens : program[count]? = some '[') :
    program.Passed (count + 1) { pass with pending := count :: pass.pending } := by
  refine ⟨passed.size, fun depth opening => ?_, passed.partners_succ fun opening loop => ?_⟩
  · rw [opensAt_succ_iff opens]
    cases depth with
    | zero => simp [eq_comm]
    | succ depth => simp [passed.pending]
  · have := Option.some.inj (opens.symm.trans loop.closes)
    contradiction

/-- A `]` behind which no loop was open has no partner. -/
theorem Passed.stray (passed : program.Passed count pass) (closes : program[count]? = some ']')
    (none_open : pass.pending = []) : program.Passed (count + 1) pass := by
  have opens_none : ∀ depth opening, ¬ program.OpensAt depth count opening := by
    intro depth opening opens
    rw [← passed.pending, none_open] at opens
    simp at opens
  refine ⟨passed.size, fun depth opening => ?_, passed.partners_succ fun opening loop => ?_⟩
  · rw [opensAt_succ_iff closes, passed.pending]
    simp [opens_none]
  · exact opens_none 0 opening ((loop_iff_opensAt closes).mp loop)

theorem Passed.leave {pending : List Nat} (passed : program.Passed count pass)
    (closes : program[count]? = some ']') (innermost : pass.pending = opening :: pending) :
    program.Passed (count + 1)
      { pending
        partners := (pass.partners.setIfInBounds opening (some count)).setIfInBounds count
          (some opening) } := by
  have loop : program.Loop opening count := by
    rw [loop_iff_opensAt closes, ← passed.pending, innermost]
    rfl
  have loop_iff : ∀ other, program.Loop other count ↔ other = opening :=
    fun other => ⟨fun loop' => loop'.opening_unique loop, fun same => same ▸ loop⟩
  have inside := lt_size closes
  have inside' := lt_size loop.opens
  have ne := Nat.ne_of_lt loop.lt
  refine ⟨by simp [passed.size], fun depth other => ?_, fun position partner => ?_⟩
  · rw [opensAt_succ_iff closes]
    simp [← passed.pending, innermost]
  · rw [paired_lt_succ_iff, loop_iff, loop_iff]
    by_cases at_closing : position = count
    · subst at_closing
      simp [passed.size, inside, ne.symm, eq_comm (a := partner)]
    by_cases at_opening : position = opening
    · subst at_opening
      have not_before : ¬ (partner < count ∧ program.Paired position partner) := by
        rintro ⟨lt, loop' | loop'⟩
        · exact absurd (loop'.closing_unique loop) (Nat.ne_of_lt lt)
        · have := Option.some.inj (loop.opens.symm.trans loop'.closes)
          contradiction
      simp [ne, ne.symm, passed.size, inside', not_before, eq_comm]
    · simp [at_closing, at_opening, Ne.symm at_closing, Ne.symm at_opening, passed.partners]

theorem passed_pass (le : count ≤ program.size) : program.Passed count (program.pass count) := by
  induction count with
  | zero => exact passed_zero
  | succ count ih =>
    have last := Array.getElem?_eq_getElem (show count < program.size from le)
    have passed := ih (Nat.le_of_succ_le le)
    rw [Program.pass, last, Option.bind_some]
    generalize program[count] = c at last ⊢
    cases kind : Bracket.ofChar? c with
    | none => exact passed.skip last kind
    | some bracket =>
      obtain rfl := Bracket.ofChar?_eq_some_iff.mp kind
      cases bracket with
      | opening => exact passed.enter last
      | closing =>
        cases innermost : (program.pass count).pending with
        | nil => simpa [Pass.read, innermost] using passed.stray last innermost
        | cons opening pending => simpa [Pass.read, innermost] using passed.leave last innermost

/-- The table holds exactly the loops of the program, from both of their ends. -/
theorem table_getElem?_iff :
    program.table[position]? = some (some partner) ↔ program.Paired position partner := by
  rw [table, (passed_pass (Nat.le_refl _)).partners]
  refine ⟨fun ⟨_, _, paired⟩ => paired, fun paired => ?_⟩
  obtain loop | loop := paired
  · exact ⟨lt_size loop.opens, lt_size loop.closes, .inl loop⟩
  · exact ⟨lt_size loop.closes, lt_size loop.opens, .inr loop⟩

theorem lookup_table {bracket : Bracket} (at_bracket : program[position]? = some bracket.char) :
    lookup program.table position bracket = program.target position bracket := by
  rw [lookup, target]
  congr 1
  ext partner
  rw [Option.join_eq_some_iff, table_getElem?_iff, paired_iff_partners at_bracket,
    partner?_eq_some_iff]

end Program

namespace Machine

/-- `step`, with the target of a jump looked up in a table. -/
def stepBy (table : Array (Option Nat)) (machine : Machine) : Machine :=
  if machine.halted then machine else
  match machine.instruction? with
  | some (.loop bracket) =>
    if bracket.taken machine.tape.current then
      machine.jumped (Program.lookup table machine.position bracket)
    else machine.next
  | _ => machine.step

variable {σ : Type}

/-- `advance` by `stepBy`. -/
def advanceBy (table : Array (Option Nat)) (feed : Feed σ) : Machine × σ → Machine × σ
  | (machine, source) =>
    if machine.asks then
      match feed source with
      | (answer, source) => (machine.supply (machine.settings.input.read answer), source)
    else (machine.stepBy table, source)

/-- `runFor` by `advanceBy`. -/
def runForBy (table : Array (Option Nat)) (feed : Feed σ) :
    (fuel : Nat) → Machine × σ → Option (Machine × σ)
  | 0, state => if state.1.halted then some state else none
  | fuel + 1, state =>
    if state.1.halted then some state else runForBy table feed fuel (advanceBy table feed state)

theorem stepBy_table (machine : Machine) : machine.stepBy machine.program.table = machine.step := by
  unfold stepBy
  split
  next halted => rw [step_of_halted halted]
  next running =>
    split
    next bracket executes =>
      rw [Program.lookup_table (getElem?_of_loop executes), step, if_neg running, executes]
      cases bracket <;> simp [Bracket.taken, jump]
    · rfl

theorem advanceBy_table (feed : Feed σ) (state : Machine × σ) :
    advanceBy state.1.program.table feed state = advance feed state := by
  rw [advanceBy, advance, stepBy_table]

theorem runForBy_table (feed : Feed σ) (fuel : Nat) (state : Machine × σ) :
    runForBy state.1.program.table feed fuel state = runFor feed fuel state := by
  induction fuel generalizing state with
  | zero => rfl
  | succ fuel ih =>
    have rest := ih (advance feed state)
    rw [program_advance] at rest
    rw [runForBy, runFor, advanceBy_table, rest]

end Machine

/-- What the table has for a bracket is what the search from it finds.  Hence the searches from `[`
and from `]` undo each other, loops do not cross, and runs by the table are the runs by search. -/
theorem table_eq_search (program : Program) :
    (∀ position bracket, program[position]? = some bracket.char →
      program.target position bracket =
        match program.table[position]?.join with
        | some partner => .ok partner
        | none => .error (.unmatched bracket)) ∧
    (∀ opening closing,
      program[opening]? = some '[' ∧ program.target opening .opening = .ok closing ↔
        program[closing]? = some ']' ∧ program.target closing .closing = .ok opening) ∧
    (∀ opening closing opening' closing',
      program[opening]? = some '[' → program.target opening .opening = .ok closing →
      program[opening']? = some '[' → program.target opening' .opening = .ok closing' →
      ¬ (opening < opening' ∧ opening' < closing ∧ closing < closing')) ∧
    ∀ (σ : Type) (feed : Feed σ) (fuel : Nat) (machine : Machine) (source : σ),
      machine.program = program →
      Machine.runForBy program.table feed fuel (machine, source) =
        Machine.runFor feed fuel (machine, source) := by
  have opening_iff : ∀ opening closing,
      program[opening]? = some '[' ∧ program.target opening .opening = .ok closing ↔
        program.Loop opening closing := by
    intro opening closing
    rw [Program.target_eq_ok_iff]
    exact ⟨fun ⟨opens, partners⟩ => (Program.partners_opening_iff opens).mp partners,
      fun loop => ⟨loop.opens, (Program.partners_opening_iff loop.opens).mpr loop⟩⟩
  refine ⟨fun position bracket at_bracket => ?_, fun opening closing => ?_, ?_, ?_⟩
  · rw [← Program.lookup_table at_bracket]
    rfl
  · rw [opening_iff, Program.target_eq_ok_iff]
    exact ⟨fun loop => ⟨loop.closes, (Program.partners_closing_iff loop.closes).mpr loop⟩,
      fun ⟨closes, partners⟩ => (Program.partners_closing_iff closes).mp partners⟩
  · rintro opening closing opening' closing' opens found opens' found' ⟨lt, lt', gt⟩
    have loop := (opening_iff opening closing).mp ⟨opens, found⟩
    have loop' := (opening_iff opening' closing').mp ⟨opens', found'⟩
    exact absurd (loop.nested loop' lt lt') (Nat.not_lt_of_lt gt)
  · rintro σ feed fuel machine source rfl
    exact Machine.runForBy_table feed fuel (machine, source)

/-- A stray bracket at either side of two nested loops. -/
theorem table_eq_search_of_stray :
    let program := Program.ofString "][[+]-]["
    let machine : Machine := { program, settings := {}, tape := ⟨#[1], 0, .strict, by decide⟩ }
    program.target 0 .closing = .error (.unmatched .closing) ∧
      program.target 1 .opening = .ok 6 ∧ program.target 6 .closing = .ok 1 ∧
      ¬ (1 < 2 ∧ 2 < 6 ∧ 6 < 4) ∧
      Machine.runForBy program.table (Feed.ofList (.ok "")) 9 (machine, []) =
        Machine.runFor (Feed.ofList (.ok "")) 9 (machine, []) := by
  intro program machine
  obtain ⟨search, inverse, nested, run⟩ := table_eq_search program
  have table : program.table =
      #[none, some 6, some 4, none, some 2, none, some 1, none] := by decide +kernel
  rw [table] at search
  have found : program.target 1 .opening = .ok 6 := search 1 .opening rfl
  have found' : program.target 2 .opening = .ok 4 := search 2 .opening rfl
  exact ⟨search 0 .closing rfl, found, ((inverse 1 6).mp ⟨rfl, found⟩).2,
    nested 1 6 2 4 rfl found rfl found', run _ _ 9 machine [] rfl⟩

end Brainfuck
