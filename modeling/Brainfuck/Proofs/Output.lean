import Brainfuck.Proofs.Process
import Brainfuck.Proofs.Rerun

/-! Output.  Each `.` yields one fragment, which an observer of the run is given and which is added
to what the run has written.  So the fragments, the text that a run returns and the text that its
report shows are one output, which spells the cells under the pointer at the `.` executed. -/

namespace Brainfuck

namespace Machine

variable {σ : Type} {feed : Feed σ} {state : Machine × σ} {count : Nat} {machine : Machine}

/-- The cell under the pointer, if the next instruction is a `.`. -/
def prints? (state : Machine × σ) : Option UInt32 :=
  if state.1.halted = false ∧ state.1.instruction? = some .write then some state.1.tape.current
  else none

/-- What has come of each `.`: a text, or at last the fault of one at which the machine stopped. -/
def printed (machine : Machine) : List (Except Fault String) :=
  machine.log.fragments.toList.map .ok ++ match machine.fault, machine.instruction? with
    | some fault, some .write => [.error fault]
    | _, _ => []

theorem printed_of_sound (sound : machine.fault = none) :
    machine.printed = machine.log.fragments.toList.map .ok := by
  simp [printed, sound]

theorem printed_fail {instruction : Instruction} (sound : machine.fault = none)
    (executes : machine.instruction? = some instruction) (fault : Fault) :
    (machine.fail fault).printed =
      machine.printed ++ if instruction = .write then [.error fault] else [] := by
  have same : (machine.fail fault).instruction? = some instruction := executes
  rw [printed_of_sound sound, printed, same]
  cases instruction <;> simp [fail]

theorem printed_advance : (advance feed state).1.printed =
    state.1.printed ++ (prints? state).toList.map state.1.settings.output.encode := by
  cases running : state.1.halted with
  | true => simp [advance_of_halted running, prints?, running]
  | false =>
    have sound := fault_of_running running
    have no_print {instruction : Instruction}
        (executes : state.1.instruction? = some instruction) (other : instruction ≠ .write) :
        prints? state = none := by
      simp [prints?, executes, other]
    refine advance_cases (motive := fun behind => behind.1.printed = _) running ?comment ?operate
      ?write ?read ?jump ?pass
    case comment =>
      intro executes
      simp [printed, next, sound, prints?, executes]
    case pass =>
      intro bracket executes _
      simp [printed, next, sound, prints?, executes]
    case operate =>
      intro instruction operation executes stands
      have other : instruction ≠ .write := by
        rintro rfl
        contradiction
      rw [no_print executes other]
      cases state.1.tape.perform operation with
      | ok tape => simp [printed, operated, sound]
      | error fault => simp [operated, printed_fail sound executes, other]
    case write =>
      intro executes
      have prints : prints? state = some state.1.tape.current := by
        simp [prints?, running, executes]
      rw [prints, write]
      cases encoded : state.1.settings.output.encode state.1.tape.current with
      | ok text => simp [printed, sound, encoded]
      | error fault => simp [printed_fail sound executes, encoded]
    case read =>
      intro executes
      rw [no_print executes (by simp)]
      cases state.1.settings.input.read (feed state.2).1 with
      | ok value => simp [printed, supply, sound]
      | error fault =>
        have same : (state.1.supply (.error fault)).instruction? = some .read := executes
        rw [printed_of_sound sound, printed, same]
        simp [supply]
    case jump =>
      intro bracket executes _
      rw [no_print executes (by simp), jump]
      cases state.1.program.target state.1.position bracket with
      | ok target => simp [printed, jumped, sound]
      | error fault => simp [jumped, printed_fail sound executes]

/-- The `.` executed so far have come to what `encode` makes of the cells that they found. -/
theorem printed_after : (after feed count state).1.printed =
    state.1.printed ++ (observed prints? feed count state).map state.1.settings.output.encode := by
  induction count with
  | zero => simp
  | succ count ih =>
    rw [after_succ', printed_advance, ih, settings_after, observed_succ, List.map_append,
      List.append_assoc]

/-- A run adds the same texts to its fragments and to what it has written. -/
theorem exists_fragments_after (feed : Feed σ) (count : Nat) (state : Machine × σ) :
    ∃ texts : Array String,
      (after feed count state).1.log.fragments = state.1.log.fragments ++ texts ∧
      (after feed count state).1.output = state.1.output ++ String.join texts.toList := by
  induction count with
  | zero => exact ⟨#[], by simp, by simp⟩
  | succ count ih =>
    obtain ⟨texts, fragments, output⟩ := ih
    rw [after_succ']
    cases running : (after feed count state).1.halted with
    | true =>
      rw [advance_of_halted running]
      exact ⟨texts, fragments, output⟩
    | false =>
      obtain ⟨more, fragments', output'⟩ := exists_fragments_advance feed running
      refine ⟨texts ++ more, ?_, ?_⟩
      · rw [fragments', fragments, Array.append_assoc]
      · rw [output', output, Array.toList_append, String.join_append, String.append_assoc]

theorem exists_cell_of_fragment {cells : List UInt32} {index : Nat} {text : String}
    (spelled : machine.printed = cells.map machine.settings.output.encode)
    (fragment : machine.log.fragments[index]? = some text) :
    ∃ cell, cells[index]? = some cell ∧ machine.settings.output.encode cell = .ok text := by
  have at_index : machine.printed[index]? = some (.ok text) := by
    have inside : index < machine.log.fragments.size := (Array.getElem?_eq_some_iff.mp fragment).1
    rw [printed, List.getElem?_append_left (by simpa using inside), List.getElem?_map,
      Array.getElem?_toList, fragment]
    rfl
  rw [spelled, List.getElem?_map, Option.map_eq_some_iff] at at_index
  exact at_index

end Machine

/-- At every moment of a run what has been written is the fragments joined, and these spell the
cells that the `.` executed so far have found, one each, save for a `.` that stops the run.  Either
only grows, and they are what the run returns or its report shows. -/
theorem output_eq_join_fragments (machine : Machine) {σ : Type} (feed : Feed σ) (source : σ) :
    let state (count : Nat) := Machine.after feed count (machine.rewind, source)
    let cells (count : Nat) := Machine.observed Machine.prints? feed count (machine.rewind, source)
    (∀ allocator program settings, Machine.create allocator program settings = .ok machine →
      machine.rewind = machine) ∧
    (∀ count : Nat,
      (state count).1.output = String.join (state count).1.log.fragments.toList ∧
      (state count).1.printed = (cells count).map machine.settings.output.encode ∧
      (∀ (index : Nat) (text : String), (state count).1.log.fragments[index]? = some text →
        ∃ cell, (cells count)[index]? = some cell ∧
          machine.settings.output.encode cell = .ok text) ∧
      ∀ more, ∃ texts : Array String,
        (state (count + more)).1.log.fragments = (state count).1.log.fragments ++ texts ∧
        (state (count + more)).1.output = (state count).1.output ++ String.join texts.toList) ∧
    ∀ fuel final, Machine.runAgain feed fuel (machine, source) = some final →
      final = state fuel ∧
      (∀ output, final.1.result = .ok output →
        output = String.join final.1.log.fragments.toList) ∧
      ∀ diagnostic, final.1.result = .error diagnostic →
        diagnostic.output = String.join final.1.log.fragments.toList := by
  intro state cells
  have joined (count : Nat) :
      (state count).1.output = String.join (state count).1.log.fragments.toList := by
    obtain ⟨texts, fragments, output⟩ :=
      Machine.exists_fragments_after feed count (machine.rewind, source)
    rw [show (state count).1.log.fragments = #[] ++ texts from fragments, Array.empty_append,
      show (state count).1.output = "" ++ _ from output, String.empty_append]
  refine ⟨fun allocator program settings created => ?_, fun count => ?_, fun fuel final ran => ?_⟩
  · exact (Machine.madeFrom_of_create created).rewind created
  · have same : (state count).1.settings = machine.settings := Machine.settings_after
    have spelled : (state count).1.printed = (cells count).map machine.settings.output.encode :=
      Machine.printed_after
    refine ⟨joined count, spelled, fun index text fragment => ?_, fun more => ?_⟩
    · rw [← same] at spelled ⊢
      exact Machine.exists_cell_of_fragment spelled fragment
    · have later : state (count + more) = Machine.after feed more (state count) :=
        Machine.after_add
      rw [later]
      exact Machine.exists_fragments_after feed more (state count)
  · obtain ⟨rfl, -⟩ := Machine.runFor_eq_some_iff.mp ran
    refine ⟨rfl, fun output succeeded => ?_, fun diagnostic failed => ?_⟩
    · obtain ⟨-, rfl⟩ := Machine.result_eq_ok_iff.mp succeeded
      exact joined fuel
    · obtain ⟨fault, -, rfl⟩ := Machine.result_eq_error_iff.mp failed
      exact joined fuel

/-- The last character before the surrogates is written, and the code after it cannot be. -/
theorem output_eq_join_fragments_at_surrogate :
    let feed := Feed.ofList (.error "closed")
    let answers : List Answer := [.ok "\uD7FF"]
    ∃ machine final, Machine.create .ample (Program.ofString ",.+.") {} = .ok machine ∧
      Machine.runAgain feed 9 (machine, answers) = some final ∧
      final.1.log.fragments = #["\uD7FF"] ∧
      final.1.printed = [.ok "\uD7FF", .error (.notCharacter 0xD800)] ∧
      ∃ diagnostic, final.1.result = .error diagnostic ∧ diagnostic.output = "\uD7FF" := by
  intro feed answers
  obtain ⟨machine, created⟩ :
    ∃ machine, Machine.create .ample (Program.ofString ",.+.") {} = .ok machine := ⟨_, rfl⟩
  obtain ⟨-, -, shows⟩ := output_eq_join_fragments machine feed answers
  have ran : (Machine.runAgain feed 9 (machine, answers)).map
      (fun final => (final.1.log.fragments, final.1.fault, final.1.instruction?)) =
      some (#["\uD7FF"], some (.notCharacter 0xD800), some .write) := by
    cases created
    decide +kernel
  obtain ⟨final, ran, shown⟩ := Option.map_eq_some_iff.mp ran
  simp only [Prod.mk.injEq] at shown
  obtain ⟨fragments, failed, executes⟩ := shown
  have printed : final.1.printed = [.ok "\uD7FF", .error (.notCharacter 0xD800)] := by
    rw [Machine.printed, fragments, failed, executes]
    rfl
  obtain ⟨-, -, output⟩ := shows 9 final ran
  have result := Machine.result_eq_error_iff.mpr ⟨_, failed, rfl⟩
  refine ⟨machine, final, created, ran, fragments, printed, _, result, ?_⟩
  rw [output _ result, fragments]
  rfl

end Brainfuck
