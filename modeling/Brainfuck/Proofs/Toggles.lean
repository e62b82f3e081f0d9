import Mathlib.Algebra.Ring.Parity
import Brainfuck.Proofs.Paste

/-! The settings of a session.  Three directives change them, and each takes one setting to and fro.
A directive is obeyed outside a paste only, and where pastes begin and end can be seen from the
lines alone.  So the settings tell no more of the lines than whether each of the three was given an
odd number of times. -/

namespace Brainfuck

namespace Text

/-- What is left of some lines, taken for a paste, behind the two blank lines that end it. -/
def behindPaste : List String → List String
  | first :: second :: rest =>
    if isBlankLine first ∧ isBlankLine second then rest else behindPaste (second :: rest)
  | _ => []

theorem length_behindPaste_le (lines : List String) :
    (behindPaste lines).length ≤ lines.length := by
  fun_induction behindPaste lines with
  | case1 first second rest blank => simp only [List.length_cons]; omega
  | case2 first second rest other ih => exact Nat.le_succ_of_le ih
  | case3 lines short => exact Nat.zero_le _

/-- A paste is ended by its first line only if the line in front of it is blank as well. -/
theorem behindPaste_cons (last? : Option String) (line : String) (rest : List String) :
    behindPaste (last?.toList ++ line :: rest) =
      if last?.any isBlankLine ∧ isBlankLine line then rest else behindPaste (line :: rest) := by
  cases last? with
  | none => simp
  | some last => rw [Option.toList_some, List.singleton_append, behindPaste, Option.any_some]

/-- The lines that belong to no paste.  The line that opens a paste is one of them. -/
def spoken : List String → List String
  | [] => []
  | line :: rest =>
    line :: if trim line = ":paste" then spoken (behindPaste rest) else spoken rest
termination_by lines => lines.length
decreasing_by
  · exact Nat.lt_succ_of_le (length_behindPaste_le rest)
  · exact Nat.lt_succ_self _

/-- The number of lines with this word alone on them. -/
def timesSaid (word : String) (lines : List String) : Nat :=
  lines.countP fun line => trim line = word

end Text

open Text

theorem iterate_add_ite {α : Type} (toggle : α → α) (condition : Prop) [Decidable condition]
    (count : Nat) (setting : α) : toggle^[count + if condition then 1 else 0] setting =
      toggle^[count] (if condition then toggle setting else setting) := by
  split <;> rfl

theorem iterate_eq_ite_odd {α : Type} {toggle : α → α} (involutive : toggle.Involutive)
    (count : Nat) (setting : α) :
    toggle^[count] setting = if Odd count then toggle setting else setting := by
  split
  next odd => rw [involutive.iterate_odd odd]
  next even => rw [involutive.iterate_even (Nat.not_odd_iff_even.mp even), id]

namespace Settings

/-- The settings behind a word outside a paste. -/
def heard (settings : Settings) (word : String) : Settings :=
  { settings with
    policy := if word = ":mode" then settings.policy.toggle else settings.policy
    input := if word = ":numin" then settings.input.toggle else settings.input
    output := if word = ":numout" then settings.output.toggle else settings.output }

/-- The settings with each of three toggled so many times. -/
def toggled (settings : Settings) (modes inputs outputs : Nat) : Settings :=
  { settings with
    policy := OverflowPolicy.toggle^[modes] settings.policy
    input := CellFormat.toggle^[inputs] settings.input
    output := CellFormat.toggle^[outputs] settings.output }

/-- The settings behind some lines outside pastes. -/
def heardAll (settings : Settings) (lines : List String) : Settings :=
  settings.toggled (timesSaid ":mode" lines) (timesSaid ":numin" lines) (timesSaid ":numout" lines)

variable {settings : Settings} {line : String} {lines : List String}

theorem heardAll_cons :
    settings.heardAll (line :: lines) = (settings.heard (trim line)).heardAll lines := by
  simp only [heardAll, toggled, heard, timesSaid, List.countP_cons, decide_eq_true_eq,
    iterate_add_ite]

/-- A word that is none of the three leaves the settings alone. -/
theorem heard_eq_self {word : String} (other : word ∉ [":mode", ":numin", ":numout"]) :
    settings.heard word = settings := by
  simp only [List.mem_cons, List.not_mem_nil, or_false, not_or] at other
  simp only [heard, other, if_false]

end Settings

namespace Session

variable {session : Session} {line : String} {lines pasted : List String} {paste : Paste}

theorem handle_snd_of_outside (outside : session.paste = none) : (session.handle line).2 =
    ⟨session.settings.heard (trim line), if trim line = ":paste" then some {} else none⟩ := by
  rw [handle_of_outside outside, interpret_snd, trim_chomp]
  obtain ⟨settings, paste⟩ := session
  obtain rfl : paste = none := outside
  unfold Directive.ofString?
  split <;> simp_all [obey, Settings.heard]

theorem settings_handle_of_paste (pasting : session.paste = some paste) :
    (session.handle line).2.settings = session.settings := by
  rw [handle_of_paste pasting, gather]
  split <;> split <;> rfl

/-- The lines that a session takes while it is outside a paste. -/
def takenOutside (session : Session) : List String → List String
  | [] => []
  | line :: rest =>
    if session.paste.isNone then line :: (session.handle line).2.takenOutside rest
    else (session.handle line).2.takenOutside rest

/-- Behind the lines of a paste the session goes on where the paste ends. -/
theorem takenOutside_of_pasted (pasted : List String)
    (pasting : session.paste = some (.ofLines pasted)) :
    session.takenOutside lines = { session with paste := none }.takenOutside
      (behindPaste (pasted.getLast?.toList ++ lines)) := by
  induction lines generalizing session pasted with
  | nil =>
    cases pasted.getLast? <;> rfl
  | cons line rest ih =>
    rw [takenOutside, if_neg (by simp [pasting]), handle_of_pasted pasting, behindPaste_cons]
    split
    · rfl
    · rw [ih (pasted ++ [line]) rfl, List.getLast?_concat]
      rfl

/-- The lines that a session takes outside pastes can be told from the lines alone. -/
theorem takenOutside_eq_spoken (lines : List String) (outside : session.paste = none) :
    session.takenOutside lines = spoken lines := by
  induction length : lines.length using Nat.strong_induction_on generalizing session lines with
  | _ length ih =>
    subst length
    cases lines with
    | nil => rw [takenOutside, spoken]
    | cons line rest =>
      have shorter : (behindPaste rest).length < (line :: rest).length :=
        Nat.lt_succ_of_le (length_behindPaste_le rest)
      rw [takenOutside, if_pos (by simp [outside]), spoken, handle_snd_of_outside outside]
      split
      · rw [takenOutside_of_pasted [] rfl]
        exact congrArg (line :: ·) (ih _ shorter _ rfl rfl)
      · exact congrArg (line :: ·) (ih _ (Nat.lt_succ_self _) _ rfl rfl)

theorem settings_afterAll :
    (session.afterAll lines).settings = session.settings.heardAll (session.takenOutside lines) := by
  induction lines generalizing session with
  | nil => rfl
  | cons line rest ih =>
    rw [afterAll_cons, ih, takenOutside]
    cases pasting : session.paste with
    | some paste =>
      rw [settings_handle_of_paste pasting, if_neg (by simp)]
    | none =>
      rw [handle_snd_of_outside pasting, if_pos Option.isNone_none, Settings.heardAll_cons]

end Session

/-- The settings behind any lines are those before, each changed if the directive for it was given
an odd number of times outside pastes.  The tape has the length it had.  A line that changes the
settings is such a directive, with white space around it or none, outside a paste. -/
theorem settings_by_parity (settings : Settings) (lines : List String) :
    let state (count : Nat) := ({ settings } : Session).afterAll (lines.take count)
    (state lines.length).settings = {
      policy := if Odd (timesSaid ":mode" (spoken lines)) then settings.policy.toggle
        else settings.policy
      input := if Odd (timesSaid ":numin" (spoken lines)) then settings.input.toggle
        else settings.input
      output := if Odd (timesSaid ":numout" (spoken lines)) then settings.output.toggle
        else settings.output
      tapeLength := settings.tapeLength } ∧
    ({ settings } : Session).takenOutside lines = spoken lines ∧
    ∀ index line, lines[index]? = some line →
      (state (index + 1)).settings ≠ (state index).settings →
      (state index).paste = none ∧ trim line ∈ [":mode", ":numin", ":numout"] := by
  intro state
  have same_lines : ({ settings } : Session).takenOutside lines = spoken lines :=
    Session.takenOutside_eq_spoken lines rfl
  refine ⟨?_, same_lines, fun index line among changed => ?_⟩
  · simp only [state, List.take_length]
    rw [Session.settings_afterAll, same_lines, Settings.heardAll, Settings.toggled,
      iterate_eq_ite_odd OverflowPolicy.toggle_toggle,
      iterate_eq_ite_odd CellFormat.toggle_toggle,
      iterate_eq_ite_odd CellFormat.toggle_toggle]
  · have step : state (index + 1) = ((state index).handle line).2 :=
      Session.afterAll_take_succ among
    rw [step] at changed
    cases pasting : (state index).paste with
    | some paste => exact absurd (Session.settings_handle_of_paste pasting) changed
    | none =>
      refine ⟨rfl, ?_⟩
      by_contra other
      rw [Session.handle_snd_of_outside pasting, Settings.heard_eq_self other] at changed
      exact changed rfl

/-- Of five lines that name the policy two belong to pastes, the second of which stays open. -/
theorem settings_by_parity_of_pastes :
    let settings : Settings := { policy := .classic, tapeLength := 7 }
    let lines := [" :mode\t\n", ":paste\n", ":mode\n", "\n", "+\n", "\n", " \n", ":quit\n",
      "\u2003:mode\r\n", ":numout", ":modes", ":mode\n", ":paste\n", ":mode\n"]
    let state (count : Nat) := ({ settings } : Session).afterAll (lines.take count)
    timesSaid ":mode" (spoken lines) = 3 ∧
      (state lines.length).settings = { policy := .strict, output := .numeric, tapeLength := 7 } ∧
      lines[8]? = some "\u2003:mode\r\n" ∧ (state 9).settings ≠ (state 8).settings ∧
      (state 8).paste = none ∧ trim "\u2003:mode\r\n" ∈ [":mode", ":numin", ":numout"] := by
  intro settings lines state
  obtain ⟨parity, same_lines, changes⟩ := settings_by_parity settings lines
  rw [← same_lines] at parity ⊢
  have modes : timesSaid ":mode" (Session.takenOutside { settings } lines) = 3 := by decide +kernel
  have inputs : timesSaid ":numin" (Session.takenOutside { settings } lines) = 0 := by
    decide +kernel
  have outputs : timesSaid ":numout" (Session.takenOutside { settings } lines) = 1 := by
    decide +kernel
  have changed : (state 9).settings ≠ (state 8).settings := by decide +kernel
  rw [modes, inputs, outputs] at parity
  exact ⟨modes, parity, rfl, changed, changes 8 _ rfl changed⟩

end Brainfuck
