import Brainfuck.Proofs.Matched
import Brainfuck.Proofs.Simulation

/-! One program behind another.  No search that starts in a balanced program leaves it, and none
that starts behind it stops in it.  So a balanced program with another behind it runs as it does
alone, and where it comes to its end the other one runs from its tape, as far to the right as the
first is long. -/

namespace Brainfuck

namespace Program

variable {first second : Program} {start stop position opening closing : Nat} {bracket : Bracket}

theorem between_append_left (le : stop ≤ first.size) :
    (first ++ second).between start stop = first.between start stop := by
  have none_right : second.extract (start - first.size) (stop - first.size) = #[] := by
    rw [Nat.sub_eq_zero_of_le le]
    exact Array.extract_zero
  rw [between, Array.extract_append, none_right, Array.append_empty, between]

theorem between_append_right :
    (first ++ second).between (first.size + start) (first.size + stop) =
      second.between start stop := by
  have none_left : first.extract (first.size + start) (first.size + stop) = #[] :=
    Array.extract_empty_of_size_le_start (Nat.le_add_right ..)
  rw [between, Array.extract_append, none_left, Array.empty_append, Nat.add_sub_cancel_left,
    Nat.add_sub_cancel_left, between]

theorem getElem?_append_add :
    (first ++ second)[first.size + position]? = second[position]? := by
  rw [Array.getElem?_append_right (Nat.le_add_right ..), Nat.add_sub_cancel_left]

theorem Loop.append (loop : first.Loop opening closing) (second : Program) :
    (first ++ second).Loop opening closing where
  lt := loop.lt
  opens := (Array.getElem?_append_left (lt_size loop.opens)).trans loop.opens
  closes := (Array.getElem?_append_left (lt_size loop.closes)).trans loop.closes
  body := by
    rw [between_append_left (Nat.le_of_lt (lt_size loop.closes))]
    exact loop.body

theorem loop_append_add_iff :
    (first ++ second).Loop (first.size + opening) (first.size + closing) ↔
      second.Loop opening closing := by
  constructor
  · rintro ⟨lt, opens, closes, body⟩
    rw [getElem?_append_add] at opens closes
    rw [Nat.add_assoc, between_append_right] at body
    exact ⟨Nat.lt_of_add_lt_add_left lt, opens, closes, body⟩
  · rintro ⟨lt, opens, closes, body⟩
    refine ⟨Nat.add_lt_add_left lt _, ?_, ?_, ?_⟩
    · rwa [getElem?_append_add]
    · rwa [getElem?_append_add]
    · rwa [Nat.add_assoc, between_append_right]

/-- A search from a bracket of a balanced program does not see what is behind the program. -/
theorem target_append_left (balanced : Balanced first.toList)
    (at_bracket : first[position]? = some bracket.char) :
    (first ++ second).target position bracket = first.target position bracket := by
  obtain ⟨partner, partners⟩ := exists_partners_of_balanced balanced at_bracket
  have at_bracket' : (first ++ second)[position]? = some bracket.char :=
    (Array.getElem?_append_left (lt_size at_bracket)).trans at_bracket
  have paired := (paired_iff_partners at_bracket).mpr partners
  have paired' : (first ++ second).Paired position partner :=
    paired.imp (·.append second) (·.append second)
  rw [target_eq_ok_iff.mpr partners, target_eq_ok_iff, ← paired_iff_partners at_bracket']
  exact paired'

/-- No loop that begins in a balanced program ends behind it. -/
theorem le_of_loop_append (balanced : Balanced first.toList)
    (loop : (first ++ second).Loop opening (first.size + closing)) : first.size ≤ opening := by
  by_contra lt
  have opens := loop.opens
  rw [Array.getElem?_append_left (Nat.lt_of_not_le lt)] at opens
  obtain ⟨inside, partners⟩ : ∃ inside, first.Partners opening .opening inside :=
    exists_partners_of_balanced balanced opens
  have inner := (partners_opening_iff opens).mp partners
  have same := (inner.append second).closing_unique loop
  have := lt_size inner.closes
  omega

theorem paired_append_add (balanced : Balanced first.toList) {partner : Nat}
    (paired : (first ++ second).Paired (first.size + position) partner) :
    ∃ partner', partner = first.size + partner' ∧ second.Paired position partner' := by
  obtain loop | loop := paired
  · obtain ⟨partner, rfl⟩ := Nat.exists_eq_add_of_le
      (Nat.le_of_lt (Nat.lt_of_le_of_lt (Nat.le_add_right ..) loop.lt))
    exact ⟨partner, rfl, .inl (loop_append_add_iff.mp loop)⟩
  · obtain ⟨partner, rfl⟩ := Nat.exists_eq_add_of_le (le_of_loop_append balanced loop)
    exact ⟨partner, rfl, .inr (loop_append_add_iff.mp loop)⟩

/-- A search from a bracket behind a balanced program does not see that program. -/
theorem target_append_right (balanced : Balanced first.toList)
    (at_bracket : second[position]? = some bracket.char) :
    (first ++ second).target (first.size + position) bracket =
      (second.target position bracket).map (first.size + ·) := by
  have at_bracket' : (first ++ second)[first.size + position]? = some bracket.char :=
    getElem?_append_add.trans at_bracket
  cases found : second.target position bracket with
  | ok partner =>
    rw [target_eq_ok_iff, ← paired_iff_partners at_bracket] at found
    rw [Except.map, target_eq_ok_iff, ← paired_iff_partners at_bracket']
    exact found.imp loop_append_add_iff.mpr loop_append_add_iff.mpr
  | error fault =>
    obtain ⟨alone, rfl⟩ := target_eq_error_iff.mp found
    rw [Except.map, target_eq_error_iff]
    refine ⟨?_, rfl⟩
    rintro ⟨partner, partners⟩
    rw [← paired_iff_partners at_bracket'] at partners
    obtain ⟨partner, rfl, paired⟩ := paired_append_add balanced partners
    exact alone ⟨partner, (paired_iff_partners at_bracket).mp paired⟩

end Program

namespace Machine

variable {σ : Type} {feed : Feed σ} {state final : Machine × σ} {machine before : Machine}
  {count : Nat} {rest : Program}

/-- The machine with more program behind its own. -/
def extend (rest : Program) (machine : Machine) : Machine :=
  { machine with program := machine.program ++ rest }

/-- The machine on its program behind that of `before`, which has done what it has before. -/
def resume (before machine : Machine) : Machine where
  program := before.program ++ machine.program
  settings := machine.settings
  tape := machine.tape
  position := before.program.size + machine.position
  output := before.output ++ machine.output
  fault := machine.fault
  log.fragments := before.log.fragments ++ machine.log.fragments
  log.jumps := before.log.jumps ++
    machine.log.jumps.map (Prod.map (before.program.size + ·) (before.program.size + ·))
  log.reads := before.log.reads + machine.log.reads

theorem keeps_extend (balanced : Balanced machine.program.toList)
    (running : machine.halted = false) : Keeps (extend rest) machine where
  running := by
    obtain ⟨sound, lt⟩ := halted_eq_false_iff.mp running
    refine halted_eq_false_iff.mpr ⟨sound, ?_⟩
    rw [extend, Array.size_append]
    exact Nat.lt_add_right _ lt
  instruction := by
    rw [instruction?, extend, Array.getElem?_append_left (position_lt_size running), instruction?]
  current := rfl
  input := rfl
  next := rfl
  operated instruction operation _ _ := by
    rw [show (extend rest machine).tape = machine.tape from rfl]
    cases machine.tape.perform operation <;> rfl
  write := by
    rw [write, write, show (extend rest machine).settings = machine.settings from rfl,
      show (extend rest machine).tape = machine.tape from rfl]
    cases machine.settings.output.encode machine.tape.current <;> rfl
  supply value := by cases value <;> rfl
  jump bracket executes := by
    have same_target : (extend rest machine).program.target (extend rest machine).position bracket =
        machine.program.target machine.position bracket :=
      Program.target_append_left balanced (getElem?_of_loop executes)
    rw [jump, jump, same_target]
    cases machine.program.target machine.position bracket <;> rfl

theorem halted_resume : (resume before machine).halted = machine.halted := by
  simp [Machine.halted, resume]

theorem keeps_resume (balanced : Balanced before.program.toList)
    (running : machine.halted = false) : Keeps (resume before) machine where
  running := halted_resume.trans running
  instruction := by
    rw [instruction?, resume, Program.getElem?_append_add, instruction?]
  current := rfl
  input := rfl
  next := rfl
  operated instruction operation _ _ := by
    rw [show (resume before machine).tape = machine.tape from rfl]
    cases machine.tape.perform operation <;> rfl
  write := by
    rw [write, write, show (resume before machine).settings = machine.settings from rfl,
      show (resume before machine).tape = machine.tape from rfl]
    cases machine.settings.output.encode machine.tape.current with
    | ok text => simp [resume, Nat.add_assoc, String.append_assoc]
    | error fault => rfl
  supply value := by cases value <;> rfl
  jump bracket executes := by
    have same_target :
        (resume before machine).program.target (resume before machine).position bracket =
          (machine.program.target machine.position bracket).map (before.program.size + ·) :=
      Program.target_append_right balanced (getElem?_of_loop executes)
    rw [jump, jump, same_target]
    cases machine.program.target machine.position bracket with
    | ok target => simp [Except.map, jumped, resume, Nat.add_assoc]
    | error fault => rfl

theorem after_extend (balanced : Balanced state.1.program.toList)
    (running : ∀ earlier < count, (after feed earlier state).1.halted = false) :
    after feed count (viewState (extend rest) state) =
      viewState (extend rest) (after feed count state) := by
  refine after_viewState fun earlier lt => ?_
  have keeps : Keeps (extend rest) (after feed earlier state).1 :=
    keeps_extend (by rwa [program_after]) (running earlier lt)
  exact keeps.advance (running earlier lt)

theorem after_resume (balanced : Balanced before.program.toList) :
    after feed count (viewState (resume before) state) =
      viewState (resume before) (after feed count state) :=
  after_viewState fun _ _ => advance_viewState (fun halted => halted_resume.trans halted)
    (keeps_resume balanced)

theorem ends_resume_iff (balanced : Balanced before.program.toList) :
    Ends feed (viewState (resume before) state) final ↔
      ∃ final', Ends feed state final' ∧ final = viewState (resume before) final' :=
  ends_viewState_iff (fun _ => after_resume balanced) fun _ => halted_resume

/-- A run that succeeds stops exactly behind its program. -/
theorem Ends.position_eq (ends : Ends feed state final) (fitted : Fitted state.1)
    (sound : final.1.fault = none) : final.1.position = final.1.program.size := by
  obtain ⟨halted, count, rfl⟩ := ends_iff.mp ends
  have le := (fitted_after fitted feed count).position
  rw [Machine.halted, sound] at halted
  simp only [Option.isSome_none, Bool.false_or, decide_eq_true_eq] at halted
  exact Nat.le_antisymm le halted

/-- Behind the end of its program a machine is at the start of the rest. -/
theorem extend_eq_resume (sound : machine.fault = none)
    (at_end : machine.position = machine.program.size) :
    extend rest machine = resume machine
      { program := rest, settings := machine.settings, tape := machine.tape } := by
  simp [extend, resume, sound, at_end]

/-- Where a balanced program succeeds, the rest runs from what it has left. -/
theorem ends_extend_iff {middle : Machine × σ} (balanced : Balanced state.1.program.toList)
    (fitted : Fitted state.1) (ends : Ends feed state middle) (sound : middle.1.fault = none)
    (rest : Program) (final : Machine × σ) :
    Ends feed (viewState (extend rest) state) final ↔ ∃ final',
      Ends feed
        ({ program := rest, settings := middle.1.settings, tape := middle.1.tape }, middle.2)
        final' ∧ final = viewState (resume middle.1) final' := by
  have at_end := ends.position_eq fitted sound
  have balanced' : Balanced middle.1.program.toList := by rwa [ends.program]
  obtain ⟨count, reached, running⟩ := ends.exists_running
  have handed : after feed count (viewState (extend rest) state) = viewState (resume middle.1)
      ({ program := rest, settings := middle.1.settings, tape := middle.1.tape }, middle.2) := by
    rw [after_extend balanced running, reached, viewState, extend_eq_resume sound at_end, viewState]
  calc Ends feed (viewState (extend rest) state) final
      ↔ Ends feed (after feed count (viewState (extend rest) state)) final := ends_after_iff.symm
    _ ↔ _ := by rw [handed, ends_resume_iff balanced']

/-- Where a balanced program fails, it fails with the rest behind it. -/
theorem Ends.extend (ends : Ends feed state final) (balanced : Balanced state.1.program.toList)
    {fault : Fault} (failed : final.1.fault = some fault) (rest : Program) :
    Ends feed (viewState (extend rest) state) (viewState (extend rest) final) := by
  obtain ⟨count, rfl, running⟩ := ends.exists_running
  have still_failed : (extend rest (after feed count state).1).fault = some fault := failed
  exact ends_iff.mpr ⟨halted_of_fault still_failed, count, after_extend balanced running⟩

/-- Where a balanced program runs forever, it does with the rest behind it. -/
theorem exists_ends_of_extend (balanced : Balanced state.1.program.toList)
    (ends : Ends feed (viewState (extend rest) state) final) : ∃ final, Ends feed state final := by
  by_contra endless
  have running : ∀ count, (after feed count state).1.halted = false := by
    intro count
    by_contra halted
    rw [Bool.not_eq_false] at halted
    exact endless ⟨_, ends_iff.mpr ⟨halted, count, rfl⟩⟩
  obtain ⟨halted, count, rfl⟩ := ends_iff.mp ends
  have keeps : Keeps (extend rest) (after feed count state).1 :=
    keeps_extend (by rwa [program_after]) (running count)
  rw [after_extend balanced fun earlier _ => running earlier, viewState, keeps.running] at halted
  contradiction

end Machine

/-- What a run has come to that did what `first` did, and then what `second` did behind it. -/
structure Follows {σ : Type} (first second whole : Machine × σ) : Prop where
  result : whole.1.result =
    match second.1.result with
    | .ok output => .ok (first.1.output ++ output)
    | .error diagnostic => .error (Diagnostic.of whole.1.program
        (first.1.program.size + diagnostic.position) (first.1.output ++ diagnostic.output)
        diagnostic.fault)
  tape : whole.1.tape = second.1.tape
  source : whole.2 = second.2
  reads : whole.1.log.reads = first.1.log.reads + second.1.log.reads
  fragments : whole.1.log.fragments = first.1.log.fragments ++ second.1.log.fragments
  jumps : whole.1.log.jumps = first.1.log.jumps ++ second.1.log.jumps.map
    (Prod.map (first.1.program.size + ·) (first.1.program.size + ·))

theorem follows_resume {σ : Type} (first second : Machine × σ) :
    Follows first second (Machine.viewState (Machine.resume first.1) second) where
  result := by
    simp only [Machine.viewState, Machine.result, Machine.resume]
    cases second.1.fault <;> rfl
  tape := rfl
  source := rfl
  reads := rfl
  fragments := rfl
  jumps := rfl

/-- A balanced program with another behind it runs as the two of them do, one after the other.  If
the first one fails, so does the whole, with the same fault at the same place; and if it does not
end, the whole does not. -/
theorem runs_in_sequence {allocator : Allocator} {first : Program}
    (balanced : Balanced first.toList) (second : Program) {settings : Settings} {machine : Machine}
    (created : Machine.create allocator first settings = .ok machine) {σ : Type} (feed : Feed σ)
    (source : σ) :
    ∃ whole, Machine.create allocator (first ++ second) settings = .ok whole ∧
      (∀ middle output, Machine.Ends feed (machine, source) middle →
        middle.1.result = .ok output →
        let rest : Machine := { program := second, settings, tape := middle.1.tape }
        ((∃ final, Machine.Ends feed (whole, source) final) ↔
          ∃ final, Machine.Ends feed (rest, middle.2) final) ∧
        ∀ final final', Machine.Ends feed (whole, source) final →
          Machine.Ends feed (rest, middle.2) final' → Follows middle final' final) ∧
      (∀ final diagnostic, Machine.Ends feed (machine, source) final →
        final.1.result = .error diagnostic →
        ∃ final', Machine.Ends feed (whole, source) final' ∧
          final'.1.result = .error (Diagnostic.of (first ++ second) diagnostic.position
            diagnostic.output diagnostic.fault) ∧
          final'.1.tape = final.1.tape ∧ final'.2 = final.2 ∧ final'.1.log = final.1.log) ∧
      ((¬ ∃ final, Machine.Ends feed (machine, source) final) →
        ¬ ∃ final, Machine.Ends feed (whole, source) final) := by
  have fitted := Machine.fitted_of_create created
  obtain ⟨tape, built, rfl⟩ := Machine.create_eq_ok_iff.mp created
  refine ⟨_, Machine.create_eq_ok_iff.mpr ⟨tape, built, rfl⟩, ?_, ?_, ?_⟩
  · intro middle output ends succeeded rest
    obtain ⟨sound, -⟩ := Machine.result_eq_ok_iff.mp succeeded
    have same_settings : middle.1.settings = settings := ends.settings
    have whole_iff := Machine.ends_extend_iff balanced fitted ends sound second
    rw [same_settings] at whole_iff
    refine ⟨⟨?_, ?_⟩, ?_⟩
    · rintro ⟨final, ended⟩
      obtain ⟨final', ends', -⟩ := (whole_iff final).mp ended
      exact ⟨final', ends'⟩
    · rintro ⟨final', ends'⟩
      exact ⟨_, (whole_iff _).mpr ⟨final', ends', rfl⟩⟩
    · intro final final' ended ended'
      obtain ⟨final'', ends', rfl⟩ := (whole_iff final).mp ended
      obtain rfl := ended'.unique ends'
      exact follows_resume middle final'
  · intro final diagnostic ends failed
    obtain ⟨fault, faulty, rfl⟩ := Machine.result_eq_error_iff.mp failed
    have ended := ends.extend balanced faulty second
    refine ⟨_, ended, ?_, rfl, rfl, rfl⟩
    rw [Machine.result_eq_error_iff]
    refine ⟨fault, faulty, ?_⟩
    simp only [Machine.viewState, Machine.extend, ends.program]
    rfl
  · rintro endless ⟨final, ended⟩
    exact endless (Machine.exists_ends_of_extend balanced ended)

/-- A loop, and behind it a `]` that has no `[` of its own and does not find that of the loop. -/
theorem runs_in_sequence_of_stray :
    let first := Program.ofString "++[>+<-]"
    let second := Program.ofString ">.]"
    let settings : Settings := { output := .numeric, tapeLength := 2 }
    let feed := Feed.ofList (.ok "")
    Balanced first.toList ∧ ∃ machine whole middle final final',
      Machine.create .ample first settings = .ok machine ∧
      Machine.create .ample (first ++ second) settings = .ok whole ∧
      Machine.Ends feed (machine, []) middle ∧ middle.1.result = .ok "" ∧
      Machine.Ends feed (whole, []) final ∧ final.1.position = 10 ∧ final.1.output = "2" ∧
      final.1.fault = some (.unmatched .closing) ∧
      Machine.Ends feed
        (({ program := second, settings, tape := middle.1.tape } : Machine), middle.2) final' ∧
      Follows middle final' final := by
  intro first second settings feed
  have balanced : Balanced first.toList := by decide
  obtain ⟨machine, created⟩ : ∃ machine, Machine.create .ample first settings = .ok machine :=
    ⟨_, rfl⟩
  obtain ⟨whole, created', sequence, -, -⟩ := runs_in_sequence balanced second created feed []
  have ran : (Machine.runFor feed 30 (machine, [])).map
      (fun final => (final.1.output, final.1.fault)) = some ("", none) := by
    cases created
    decide +kernel
  have ran' : (Machine.runFor feed 30 (whole, [])).map
      (fun final => (final.1.position, final.1.output, final.1.fault)) =
      some (10, "2", some (.unmatched .closing)) := by
    cases created'
    decide +kernel
  obtain ⟨middle, ends, shown⟩ := Machine.exists_ends_of_map ran
  obtain ⟨final, ends', shown'⟩ := Machine.exists_ends_of_map ran'
  simp only [Prod.mk.injEq] at shown shown'
  have succeeded := Machine.result_eq_ok_iff.mpr ⟨shown.2, shown.1.symm⟩
  obtain ⟨ends_iff, follows⟩ := sequence middle "" ends succeeded
  obtain ⟨final', ends''⟩ := ends_iff.mp ⟨final, ends'⟩
  exact ⟨balanced, machine, whole, middle, final, final', created, created', ends, succeeded, ends',
    shown'.1, shown'.2.1, shown'.2.2, ends'', follows final final' ends' ends''⟩

end Brainfuck
