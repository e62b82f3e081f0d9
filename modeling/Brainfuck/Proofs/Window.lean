import Brainfuck.Proofs.Failure

/-! The window of a diagnostic.  Each of its columns shows the character at a fixed distance from
the position, and around a position in a program or just behind it the window is as wide as the two
margins together.  So the caret of the report stands below the instruction that failed. -/

namespace Brainfuck

namespace Diagnostic

variable {program : Program} {position column start stop index : Nat} {diagnostic : Diagnostic}

/-- A character as a window shows it. -/
def flatten (c : Char) : Char := if Text.isBlank c then ' ' else c

/-- What belongs in a column of the window around a position. -/
def shownAt (program : Program) (position column : Nat) : Char :=
  if position + column < margin then ' '
  else (program[position + column - margin]?.map flatten).getD ' '

theorem eq_blank_of_flatten {c : Char} (blank : Text.isBlank (flatten c)) : flatten c = ' ' := by
  unfold flatten at blank ⊢
  split
  · rfl
  next visible => simp [visible] at blank

theorem shownAt_of_lt (before : position + column < margin) :
    shownAt program position column = ' ' := if_pos before

theorem shownAt_of_getElem? {c : Char} (le : margin ≤ position + column)
    (among : program[position + column - margin]? = some c) :
    shownAt program position column = flatten c := by
  rw [shownAt, if_neg (Nat.not_lt.mpr le), among, Option.map_some, Option.getD_some]

theorem shownAt_of_le (le : program.size ≤ position + column - margin) :
    shownAt program position column = ' ' := by
  rw [shownAt, Array.getElem?_eq_none le]
  exact ite_self ' '

/-- The only white space in a window is the blank. -/
theorem eq_blank_of_mem_windowChars {c : Char} (among : c ∈ windowChars program position)
    (blank : Text.isBlank c) : c = ' ' := by
  rw [windowChars, List.mem_append, List.mem_append] at among
  obtain (before | shown) | behind := among
  · exact List.eq_of_mem_replicate before
  · obtain ⟨c, -, rfl⟩ := List.mem_map.mp shown
    exact eq_blank_of_flatten blank
  · exact List.eq_of_mem_replicate behind

theorem lineFeed_notMem_windowChars : '\n' ∉ windowChars program position := fun among =>
  absurd (eq_blank_of_mem_windowChars among (by decide)) (by decide)

/-- The part of a program between two positions, as a window shows it. -/
def part (program : Program) (start stop : Nat) : List Char :=
  (program.extract start stop).toList.map flatten

theorem length_part (le : stop ≤ program.size) :
    (part program start stop).length = stop - start := by
  rw [part, List.length_map, Array.length_toList, Array.size_extract, Nat.min_eq_left le]

theorem getElem?_part (le : stop ≤ program.size) (lt : index < stop - start) :
    (part program start stop)[index]? = program[start + index]?.map flatten := by
  rw [part, List.getElem?_map, Array.getElem?_toList, Array.getElem?_extract, Nat.min_eq_left le,
    if_pos lt]

theorem part_of_le (le : stop ≤ start) : part program start stop = [] := by
  rw [part, Array.extract_empty_of_stop_le_start le, Array.toList_empty, List.map_nil]

theorem part_min : part program (min start stop) stop = part program start stop := by
  rcases Nat.le_total start stop with le | ge
  · rw [Nat.min_eq_left le]
  · rw [Nat.min_eq_right ge, part_of_le (Nat.le_refl _), part_of_le ge]

theorem windowChars_eq : windowChars program position =
    blanks (margin - position) ++
      part program (position - margin) (min (position + margin) program.size) ++
      blanks (min margin (position + margin - program.size)) := by
  have left : margin - (position - (position - margin)) = margin - position := by omega
  have right : position + margin - max (min (position + margin) program.size) position =
      min margin (position + margin - program.size) := by
    rcases Nat.le_total (position + margin) program.size with le | ge
    · rw [Nat.min_eq_left le, Nat.max_eq_left (Nat.le_add_right ..), Nat.sub_self,
        Nat.sub_eq_zero_of_le le, Nat.min_zero]
    · rw [Nat.min_eq_right ge]
      omega
  rw [windowChars, left, right, ← part_min]
  rfl

/-- The number of columns of the window around a position.  It lacks a column for each character
that the position lies behind the end of the program, up to one half of it. -/
def width (program : Program) (position : Nat) : Nat :=
  2 * margin - min margin (position - program.size)

theorem width_of_le (le : position ≤ program.size) : width program position = 2 * margin := by
  rw [width, Nat.sub_eq_zero_of_le le, Nat.min_zero, Nat.sub_zero]

theorem width_eq : margin - position +
      (min (position + margin) program.size - (position - margin)) +
      min margin (position + margin - program.size) = width program position := by
  rw [width]
  rcases Nat.le_total position program.size with le | ge
  · have behind : position + margin - program.size ≤ margin := by omega
    rw [Nat.sub_eq_zero_of_le le, Nat.min_eq_right behind]
    omega
  · have behind : margin ≤ position + margin - program.size := by omega
    rw [Nat.min_eq_right (Nat.le_add_right_of_le ge), Nat.min_eq_left behind]
    omega

theorem length_windowChars_eq_width :
    (windowChars program position).length = width program position := by
  rw [windowChars_eq, List.length_append, List.length_append, length_part (Nat.min_le_right ..),
    blanks, blanks, List.length_replicate, List.length_replicate, width_eq]

/-- The columns of a window lie before the program, in it or behind its end. -/
theorem getElem?_windowChars_of_lt_width (inside : column < width program position) :
    (windowChars program position)[column]? = some (shownAt program position column) := by
  have within : min (position + margin) program.size ≤ program.size := Nat.min_le_right ..
  have count (count : Nat) : (blanks count).length = count := List.length_replicate
  rw [windowChars_eq, List.append_assoc]
  by_cases before : position + column < margin
  · rw [List.getElem?_append_left (by rw [count]; omega), blanks,
      List.getElem?_replicate_of_lt (by omega), shownAt_of_lt before]
  rw [List.getElem?_append_right (by rw [count]; omega), count]
  have near : column < 2 * margin := Nat.lt_of_lt_of_le inside (Nat.sub_le ..)
  by_cases among : position + column - margin < program.size
  · have index : position - margin + (column - (margin - position)) =
        position + column - margin := by omega
    have reached : column - (margin - position) <
        min (position + margin) program.size - (position - margin) := by omega
    rw [List.getElem?_append_left (by rwa [length_part within]), getElem?_part within reached,
      index, Array.getElem?_eq_getElem among, Option.map_some,
      shownAt_of_getElem? (Nat.not_lt.mp before) (Array.getElem?_eq_getElem among)]
  · have passed : min (position + margin) program.size - (position - margin) ≤
        column - (margin - position) := by omega
    have rest : column - (margin - position) -
          (min (position + margin) program.size - (position - margin)) <
        min margin (position + margin - program.size) := by
      rw [Nat.sub_sub]
      refine Nat.sub_lt_left_of_lt_add (by omega) ?_
      rwa [width_eq]
    rw [List.getElem?_append_right (by rwa [length_part within]), length_part within, blanks,
      List.getElem?_replicate_of_lt rest, shownAt_of_le (Nat.not_lt.mp among)]

theorem windowChars_eq_map_shownAt (program : Program) (position : Nat) :
    windowChars program position =
      (List.range (width program position)).map (shownAt program position) := by
  refine List.ext_getElem? fun column => ?_
  rw [List.getElem?_map]
  by_cases inside : column < width program position
  · rw [getElem?_windowChars_of_lt_width inside, List.getElem?_range inside, Option.map_some]
  · have outside : width program position ≤ column := Nat.not_lt.mp inside
    rw [List.getElem?_eq_none (by rwa [length_windowChars_eq_width]),
      List.getElem?_eq_none (by rwa [List.length_range]), Option.map_none]

theorem length_windowChars (le : position ≤ program.size) :
    (windowChars program position).length = 2 * margin := by
  rw [length_windowChars_eq_width, width_of_le le]

theorem getElem?_windowChars (le : position ≤ program.size) (inside : column < 2 * margin) :
    (windowChars program position)[column]? = some (shownAt program position column) :=
  getElem?_windowChars_of_lt_width (width_of_le le ▸ inside)

/-- The text before the number in the line of a report below its window. -/
def caretText : String := "Error at      ^      char index "

/-- The line of a report below its window. -/
def caretLine (position : Nat) : List Char :=
  caretText.toList ++ (toString position).toList

theorem isDigit_of_mem_toString {c : Char} {number : Nat} (among : c ∈ (toString number).toList) :
    c.isDigit := by
  rw [Nat.toString_eq_repr, Nat.toList_repr] at among
  exact Nat.isDigit_of_mem_toDigits (by decide) (by decide) among

theorem lineFeed_notMem_caretLine : '\n' ∉ caretLine position := by
  rw [caretLine, List.mem_append, not_or]
  refine ⟨by decide +kernel, fun among => ?_⟩
  exact absurd (isDigit_of_mem_toString among) (by decide)

/-- The caret stands below the position, in this column and no other. -/
theorem caretLine_getElem?_iff : (caretLine position)[column]? = some '^' ↔ column = margin := by
  have front : ∀ column < 32, caretText.toList[column]? = some '^' ↔ column = margin := by
    decide +kernel
  have length : caretText.toList.length = 32 := by decide +kernel
  rw [caretLine]
  by_cases early : column < 32
  · rw [List.getElem?_append_left (by rw [length]; exact early), front column early]
  · rw [List.getElem?_append_right (by rw [length]; omega)]
    constructor
    · intro caret
      exact absurd (isDigit_of_mem_toString (List.mem_of_getElem? caret)) (by decide)
    · rintro rfl
      exact absurd (by decide) early

theorem toList_display (diagnostic : Diagnostic) : diagnostic.display.toList =
    diagnostic.window.toList ++ '\n' :: (caretLine diagnostic.position ++ '\n' ::
      ("  message: ".toList ++ diagnostic.message.toList ++ '\n' ::
        ("   output: ".toList ++ diagnostic.output.toList))) := by
  simp [display, caretLine, caretText, toString]

theorem exists_lines_display (even : '\n' ∉ diagnostic.window.toList) : ∃ others,
    diagnostic.display.toList.splitOn '\n' =
      diagnostic.window.toList :: caretLine diagnostic.position :: others := by
  rw [toList_display, List.splitOn_append_cons_self_of_not_mem even,
    List.splitOn_append_cons_self_of_not_mem lineFeed_notMem_caretLine]
  exact ⟨_, rfl⟩

/-- An instruction shows as it is. -/
theorem flatten_of_instruction {c : Char} {instruction : Instruction}
    (executes : Instruction.ofChar? c = some instruction) : flatten c = c := by
  unfold Instruction.ofChar? at executes
  split at executes
  case h_9 => contradiction
  all_goals rfl

/-- The middle column of a window shows the instruction at its position. -/
theorem middle_windowChars {c : Char} {instruction : Instruction}
    (among : program[position]? = some c) (executes : Instruction.ofChar? c = some instruction) :
    (windowChars program position)[margin]? = some c := by
  obtain ⟨inside, -⟩ := Array.getElem?_eq_some_iff.mp among
  have shown : shownAt program position margin = flatten c :=
    shownAt_of_getElem? (Nat.le_add_left margin position) (by rw [Nat.add_sub_cancel, among])
  rw [getElem?_windowChars (Nat.le_of_lt inside) (by decide), shown,
    flatten_of_instruction executes]

end Diagnostic

open Diagnostic

/-- A failed run has stopped at an instruction of the program, around which its report shows the
program. -/
theorem Machine.Ends.exists_instruction {σ : Type} {feed : Feed σ} {state final : Machine × σ}
    (ends : Ends feed state final) (fitted : Fitted state.1) (sound : state.1.fault = none)
    {diagnostic : Diagnostic} (failed : final.1.result = .error diagnostic) :
    ∃ before instruction c, advance feed before = final ∧
      before.1.position = diagnostic.position ∧
      state.1.program[diagnostic.position]? = some c ∧
      Instruction.ofChar? c = some instruction ∧
      Stops before.1 (feed before.2).1 instruction diagnostic.fault ∧
      diagnostic.window.toList = windowChars state.1.program diagnostic.position := by
  obtain ⟨fault, faulty, rfl⟩ := result_eq_error_iff.mp failed
  obtain ⟨count, before, instruction, reached, -, advanced, executes, stops, unchanged⟩ :=
    ends.exists_stops fitted sound faulty
  have same_program : before.1.program = state.1.program := reached ▸ program_after
  have same_position : before.1.position = final.1.position := by rw [unchanged]; rfl
  obtain ⟨c, among, of_char⟩ := Option.bind_eq_some_iff.mp executes
  rw [same_program, same_position] at among
  rw [ends.program]
  exact ⟨before, instruction, c, advanced, same_position, among, of_char, stops,
    String.toList_ofList⟩

/-- The report of a failed run shows the program around the instruction that failed, in a window of
constant width without line breaks, and this instruction stands in the column of the caret below
it. -/
theorem caret_below_instruction {allocator : Allocator} {program : Program} {settings : Settings}
    {machine : Machine}
    (created : Machine.create allocator program settings = .ok machine) {σ : Type} {feed : Feed σ}
    {source : σ} {final : Machine × σ} (ends : Machine.Ends feed (machine, source) final)
    {diagnostic : Diagnostic} (failed : final.1.result = .error diagnostic) :
    let window := diagnostic.window.toList
    window.length = 28 ∧
    (∀ column < 28, window[column]? = some (shownAt program diagnostic.position column)) ∧
    (∃ (before : Machine × σ) (instruction : Instruction) (c : Char),
      Machine.advance feed before = final ∧ before.1.position = diagnostic.position ∧
      program[diagnostic.position]? = some c ∧ Instruction.ofChar? c = some instruction ∧
      Stops before.1 (feed before.2).1 instruction diagnostic.fault ∧ window[14]? = some c) ∧
    (∀ c ∈ window, Text.isBlank c → c = ' ') ∧ '\n' ∉ window ∧
    ∃ below others, diagnostic.display.toList.splitOn '\n' = window :: below :: others ∧
      ∀ column, below[column]? = some '^' ↔ column = 14 := by
  intro window
  have fitted := Machine.fitted_of_create created
  obtain ⟨tape, -, rfl⟩ := Machine.create_eq_ok_iff.mp created
  obtain ⟨before, instruction, c, advanced, same_position, among, of_char, stops, window_eq⟩ :=
    ends.exists_instruction fitted rfl failed
  change window = windowChars program diagnostic.position at window_eq
  have even : '\n' ∉ window := window_eq ▸ lineFeed_notMem_windowChars
  obtain ⟨others, lines⟩ := exists_lines_display even
  obtain ⟨inside, -⟩ := Array.getElem?_eq_some_iff.mp among
  refine ⟨?_, fun column lt => ?_,
    ⟨before, instruction, c, advanced, same_position, among, of_char, stops, ?_⟩,
    fun c among blank => ?_, even, _, others, lines, fun column => caretLine_getElem?_iff⟩
  · rw [window_eq]
    exact length_windowChars (Nat.le_of_lt inside)
  · rw [window_eq]
    exact getElem?_windowChars (Nat.le_of_lt inside) lt
  · rw [window_eq]
    exact middle_windowChars among of_char
  · rw [window_eq] at among
    exact eq_blank_of_mem_windowChars among blank

/-- A line break and a tab before the instruction do not move it from the column of the caret. -/
theorem caret_below_instruction_of_breaks :
    let program := Program.ofString "+[-]\n\t<>"
    let diagnostic := Diagnostic.of program 6 "" (.offTape .left 0)
    ∃ machine final, Machine.create .ample program {} = .ok machine ∧
      Machine.Ends (Feed.ofList (.ok "")) (machine, []) final ∧
      final.1.result = .error diagnostic ∧
      diagnostic.window = "        +[-]  <>            " ∧
      diagnostic.window.toList[14]? = some '<' ∧
      ∃ below others,
        diagnostic.display.toList.splitOn '\n' = diagnostic.window.toList :: below :: others ∧
        ∀ column, below[column]? = some '^' ↔ column = 14 := by
  intro program diagnostic
  obtain ⟨machine, created⟩ : ∃ machine, Machine.create .ample program {} = .ok machine :=
    ⟨_, rfl⟩
  have ran : (Machine.runFor (Feed.ofList (.ok "")) 7 (machine, [])).map
      (fun final => (final.1.program.toList, final.1.position, final.1.output, final.1.fault)) =
      some (program.toList, 6, "", some (.offTape .left 0)) := by
    cases created
    decide +kernel
  obtain ⟨final, ends, shown⟩ := Machine.exists_ends_of_map ran
  simp only [Prod.mk.injEq] at shown
  obtain ⟨same_program, same_position, same_output, faulty⟩ := shown
  have failed : final.1.result = .error diagnostic := by
    rw [Machine.result_eq_error_iff]
    refine ⟨_, faulty, ?_⟩
    rw [same_position, same_output, Array.toList_inj.mp same_program]
  obtain ⟨-, -, ⟨before, instruction, c, -, -, among, -, -, middle⟩, -, -, lines⟩ :=
    caret_below_instruction created ends failed
  obtain rfl : '<' = c := Option.some.inj among
  exact ⟨machine, final, created, ends, failed, by decide +kernel, middle, lines⟩

end Brainfuck
