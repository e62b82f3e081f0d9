import Brainfuck.Proofs.Failure

/-! Running a program again.  A machine keeps its tape, its output and its fault when it halts, and
a run that failed leaves all three behind.  No run changes the length or the policy of the tape, so
the machine that is rewound is the one that was made, and the next run is a first run. -/

namespace Brainfuck

namespace Machine

variable {σ : Type} {feed : Feed σ} {program : Program} {settings : Settings}
  {fresh machine : Machine} {state start : Machine × σ} {fuel : Nat}

/-- The states that any number of runs can leave behind, where each run finds what the one before
it has left.  A run ends with success or with a fault, and may bring a feed of its own. -/
inductive Used (start : Machine × σ) : Machine × σ → Prop
  | new : Used start start
  | again {feed : Feed σ} {fuel : Nat} {before behind : Machine × σ} (used : Used start before)
      (ran : runAgain feed fuel before = some behind) : Used start behind

/-- The machine is one that `create` has made, or what runs have made of it. -/
structure MadeFrom (program : Program) (settings : Settings) (machine : Machine) : Prop where
  fitted : Fitted machine
  program : machine.program = program
  settings : machine.settings = settings

theorem madeFrom_of_create {allocator : Allocator}
    (created : create allocator program settings = .ok fresh) :
    MadeFrom program settings fresh := by
  have fitted := fitted_of_create created
  obtain ⟨tape, -, rfl⟩ := create_eq_ok_iff.mp created
  exact ⟨fitted, rfl, rfl⟩

/-- Whatever a machine has done, it is rewound to what it was when it was made. -/
theorem MadeFrom.rewind {allocator : Allocator} (made : MadeFrom program settings machine)
    (created : create allocator program settings = .ok fresh) : machine.rewind = fresh := by
  obtain ⟨fitted, rfl, rfl⟩ := made
  obtain ⟨tape, built, rfl⟩ := create_eq_ok_iff.mp created
  rw [Machine.rewind, Tape.create_eq_reset built fitted.length fitted.policy]

theorem MadeFrom.runFor (made : MadeFrom program settings machine) {source : σ}
    (ran : runFor feed fuel (machine, source) = some state) :
    MadeFrom program settings state.1 := by
  obtain ⟨rfl, -⟩ := runFor_eq_some_iff.mp ran
  exact ⟨fitted_after made.fitted feed fuel, program_after.trans made.program,
    settings_after.trans made.settings⟩

theorem Used.madeFrom {allocator : Allocator} (used : Used start state)
    (created : create allocator program settings = .ok start.1) :
    MadeFrom program settings state.1 := by
  -- Whatever the run before has left, this one started from the new machine.
  induction used with
  | new => exact madeFrom_of_create created
  | again _ ran ih =>
    rw [runAgain, ih.rewind created] at ran
    exact (madeFrom_of_create created).runFor ran

end Machine

/-- After any number of runs the next one is that of a new machine from what is left to read: it
takes as many instructions, and it leaves the same machine and the same left to read. -/
theorem runAgain_of_used {allocator : Allocator} {program : Program} {settings : Settings}
    {fresh machine : Machine}
    (created : Machine.create allocator program settings = .ok fresh) {σ : Type} {source rest : σ}
    (used : Machine.Used (fresh, source) (machine, rest)) (feed : Feed σ) (fuel : Nat) :
    Machine.runAgain feed fuel (machine, rest) = Machine.runAgain feed fuel (fresh, rest) ∧
      Machine.runAgain feed fuel (fresh, rest) = Machine.runFor feed fuel (fresh, rest) := by
  have new := Machine.madeFrom_of_create created
  rw [Machine.runAgain, Machine.runAgain, (used.madeFrom created).rewind created,
    new.rewind created]
  exact ⟨rfl, rfl⟩

/-- A run that fails at its second read, with its pointer and its output moved on, is followed by
one that writes nothing. -/
theorem runAgain_of_used_after_failure :
    let program := Program.ofString ",[.>,]"
    let settings : Settings := { tapeLength := 2 }
    let feed : Feed (List String) := fun texts =>
      (texts.head?.elim (.error "closed") .ok, texts.tail)
    ∃ fresh failed final, Machine.create .ample program settings = .ok fresh ∧
      Machine.runAgain feed 9 (fresh, ["a", "bc", "\x00"]) = some failed ∧
      failed.1.output = "a" ∧ failed.1.tape.pointer = 1 ∧ failed.1.fault = some (.inputLength 2) ∧
      Machine.runAgain feed 9 failed = some final ∧ final.1.result = .ok "" ∧
      final.1.tape.pointer = 0 ∧ final.1.tape.nonzero = [] := by
  intro program settings feed
  obtain ⟨fresh, created⟩ : ∃ fresh, Machine.create .ample program settings = .ok fresh :=
    ⟨_, rfl⟩
  have ran : (Machine.runAgain feed 9 (fresh, ["a", "bc", "\x00"])).map
      (fun failed => (failed.1.output, failed.1.tape.pointer, failed.1.fault, failed.2)) =
      some ("a", 1, some (.inputLength 2), ["\x00"]) := by
    cases created
    decide +kernel
  obtain ⟨⟨machine, rest⟩, failed, shown⟩ := Option.map_eq_some_iff.mp ran
  simp only [Prod.mk.injEq] at shown
  obtain ⟨output, pointer, fault, rfl⟩ := shown
  obtain ⟨again, -⟩ := runAgain_of_used created (.again .new failed) feed 9
  have ran' : (Machine.runAgain feed 9 (fresh, ["\x00"])).map
      (fun final => (final.1.output, final.1.fault, final.1.tape.pointer,
        final.1.tape.nonzero)) = some ("", none, 0, []) := by
    cases created
    decide +kernel
  obtain ⟨final, succeeded, shown⟩ := Option.map_eq_some_iff.mp ran'
  simp only [Prod.mk.injEq] at shown
  have result := Machine.result_eq_ok_iff.mpr ⟨shown.2.1, shown.1.symm⟩
  exact ⟨fresh, _, final, created, failed, output, pointer, fault, again.trans succeeded, result,
    shown.2.2⟩

end Brainfuck
