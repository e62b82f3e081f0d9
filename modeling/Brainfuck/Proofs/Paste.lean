import Brainfuck.Session

/-! Pastes.  A paste takes every line for text, whatever the line would ask for outside it, until
two blank lines follow each other.  The second of them submits the lines in front of it and leaves
the session as it was before the paste. -/

namespace Brainfuck

namespace Text

/-- Whether a line has nothing but white space in front of its end. -/
def isBlankLine (line : String) : Bool := allBlank (chomp line)

/-- The text of some lines, in which one line feed ends each. -/
def unlines (lines : List String) : String := String.join (lines.map fun line => chomp line ++ "\n")

theorem unlines_concat (lines : List String) (line : String) :
    unlines (lines ++ [line]) = unlines lines ++ chomp line ++ "\n" := by
  simp [unlines, String.append_assoc]

/-- The line at this index and the next one are blank. -/
def BlankPair (lines : List String) (index : Nat) : Prop :=
  lines[index]?.any isBlankLine ∧ lines[index + 1]?.any isBlankLine

instance (lines : List String) (index : Nat) : Decidable (BlankPair lines index) :=
  inferInstanceAs (Decidable (_ ∧ _))

/-- A line is the second of two blank ones if it is blank and so is the last line in front of it. -/
theorem exists_blankPair_iff {lines : List String} {line : String} {count : Nat}
    (among : lines[count]? = some line) : (∃ index, index + 1 = count ∧ BlankPair lines index) ↔
      (lines.take count).getLast?.any isBlankLine ∧ isBlankLine line := by
  cases count with
  | zero => simp
  | succ index =>
    have inside := (List.getElem?_eq_some_iff.mp among).1
    have last : (lines.take (index + 1)).getLast? = lines[index]? := by
      simp [List.getLast?_take, show index < lines.length by omega]
    simp [BlankPair, last, among]

end Text

open Text

/-- The paste that these lines have made, if none of them has ended it. -/
def Paste.ofLines (lines : List String) : Paste :=
  ⟨unlines lines, if lines.getLast?.any isBlankLine then 1 else 0⟩

namespace Session

variable {session : Session} {line : String} {lines pasted : List String} {count : Nat}

/-- The session when it has taken some lines. -/
def afterAll (session : Session) (lines : List String) : Session :=
  lines.foldl (fun session line => (session.handle line).2) session

@[simp] theorem afterAll_nil : session.afterAll [] = session := rfl

@[simp] theorem afterAll_cons :
    session.afterAll (line :: lines) = (session.handle line).2.afterAll lines := rfl

theorem afterAll_concat :
    session.afterAll (lines ++ [line]) = ((session.afterAll lines).handle line).2 := by
  simp [afterAll]

theorem afterAll_take_succ {index : Nat} (among : lines[index]? = some line) :
    session.afterAll (lines.take (index + 1)) =
      ((session.afterAll (lines.take index)).handle line).2 := by
  rw [List.take_add_one, among, Option.toList_some, afterAll_concat]

/-- A line that opens a paste does nothing else. -/
theorem handle_eq_entered (outside : session.paste = none)
    (opened : (session.handle line).2.paste.isSome) :
    (session.handle line).2 = { session with paste := some {} } := by
  rw [handle_of_outside outside, interpret_snd] at opened ⊢
  generalize Directive.ofString? (trim (chomp line)) = directive? at opened ⊢
  cases directive? with
  | none => simp [outside] at opened
  | some directive => cases directive <;> simp [obey, outside] at opened ⊢

/-- A blank line behind a blank line submits what was pasted; every other line is pasted too. -/
theorem handle_of_pasted (pasting : session.paste = some (.ofLines pasted)) :
    session.handle line =
      if pasted.getLast?.any isBlankLine ∧ isBlankLine line then
        (.run (unlines pasted), { session with paste := none })
      else (.nothing, { session with paste := some (.ofLines (pasted ++ [line])) }) := by
  have same_blank : allBlank (chomp line) = isBlankLine line := rfl
  rw [handle_of_paste pasting, gather, same_blank]
  by_cases blank : isBlankLine line
  · by_cases behind : pasted.getLast?.any isBlankLine <;>
      simp [Paste.ofLines, blank, behind, unlines_concat]
  · simp [Paste.ofLines, blank, unlines_concat]

/-- The lines of a paste are gathered as long as no two blank ones follow each other. -/
theorem afterAll_take (entered : session.paste = some {})
    (open_still : ∀ index, index + 1 < count → ¬ BlankPair lines index) :
    session.afterAll (lines.take count) =
      { session with paste := some (.ofLines (lines.take count)) } := by
  induction count with
  | zero =>
    rw [List.take_zero, afterAll_nil, show Paste.ofLines [] = {} from rfl, ← entered]
  | succ count ih =>
    have earlier := ih fun index lt => open_still index (Nat.lt_succ_of_lt lt)
    cases among : lines[count]? with
    | none =>
      have all : lines.take (count + 1) = lines.take count := by
        rw [List.take_add_one, among, Option.toList_none, List.append_nil]
      rw [all, earlier]
    | some line =>
      have apart : ¬ ((lines.take count).getLast?.any isBlankLine ∧ isBlankLine line) := by
        rw [← exists_blankPair_iff among]
        rintro ⟨index, rfl, pair⟩
        exact open_still index (Nat.lt_succ_self _) pair
      rw [afterAll_take_succ among, earlier, handle_of_pasted rfl, if_neg apart,
        List.take_add_one, among, Option.toList_some]

end Session

/-- From the line that opens a paste to the first two blank lines that follow each other every line
is taken for text.  The second of the two submits the lines in front of it, and with it the session
is again what it was before the paste.  If no two such lines follow, the paste stays open. -/
theorem paste_ends_at_blankPair {before : Session} {opening : String}
    (outside : before.paste = none) (opened : (before.handle opening).2.paste.isSome)
    (lines : List String) :
    let state (count : Nat) := (before.handle opening).2.afterAll (lines.take count)
    (∀ index line, lines[index]? = some line → (∀ earlier < index, ¬ BlankPair lines earlier) →
      (state index).handle line = (.nothing, state (index + 1)) ∧
      (state (index + 1)).paste.isSome ∧ (state (index + 1)).settings = before.settings) ∧
    (∀ index line, lines[index + 1]? = some line → BlankPair lines index →
      (∀ earlier < index, ¬ BlankPair lines earlier) →
      (state (index + 1)).handle line = (.run (unlines (lines.take (index + 1))), before)) ∧
    ((∀ index, ¬ BlankPair lines index) →
      (∀ index line, lines[index]? = some line → ((state index).handle line).1 = .nothing) ∧
      (state lines.length).paste.isSome ∧ (state lines.length).settings = before.settings) := by
  intro state
  have entered := Session.handle_eq_entered outside opened
  -- Between the opening line and the end of the paste.
  have inside (count : Nat) (apart : ∀ index, index + 1 < count → ¬ BlankPair lines index) :
      state count = { before with paste := some (.ofLines (lines.take count)) } := by
    simp only [state, entered]
    exact Session.afterAll_take rfl apart
  have goes_on (index : Nat) (line : String) (among : lines[index]? = some line)
      (apart : ∀ earlier < index, ¬ BlankPair lines earlier) :
      (state index).handle line = (.nothing, state (index + 1)) := by
    have no_pair : ¬ ((lines.take index).getLast?.any isBlankLine ∧ isBlankLine line) := by
      rw [← exists_blankPair_iff among]
      rintro ⟨earlier, rfl, pair⟩
      exact apart earlier (Nat.lt_succ_self _) pair
    rw [inside index fun earlier lt => apart earlier (by omega),
      inside (index + 1) fun earlier lt => apart earlier (by omega), Session.handle_of_pasted rfl,
      if_neg no_pair, List.take_add_one, among, Option.toList_some]
  refine ⟨fun index line among apart => ?_, fun index line among pair apart => ?_, fun apart => ?_⟩
  · have behind := inside (index + 1) fun earlier lt => apart earlier (by omega)
    exact ⟨goes_on index line among apart, by rw [behind]; rfl, by rw [behind]⟩
  · have reached := inside (index + 1) fun earlier lt => apart earlier (by omega)
    have both_blank := (exists_blankPair_iff among).mp ⟨index, rfl, pair⟩
    rw [reached, Session.handle_of_pasted rfl, if_pos both_blank, ← outside]
  · have reached := inside lines.length fun index _ => apart index
    refine ⟨fun index line among => ?_, by rw [reached]; rfl, by rw [reached]⟩
    rw [goes_on index line among fun earlier _ => apart earlier]

/-- A blank line in front of another line does not end the paste, and a directive is text in it. -/
theorem paste_ends_at_blankPair_of_directive :
    let before : Session := { settings := {} }
    let lines := ["+ \n", "\t\n", ":quit\n", "\u2003\n", "\r\n", ":mode\n"]
    let state (count : Nat) := (before.handle " :paste\r\n").2.afterAll (lines.take count)
    before.paste = none ∧ (before.handle " :paste\r\n").2.paste.isSome ∧
      BlankPair lines 3 ∧ (∀ earlier < 3, ¬ BlankPair lines earlier) ∧
      (state 2).handle ":quit\n" = (.nothing, state 3) ∧
      (state 4).handle "\r\n" = (.run "+ \n\t\n:quit\n\u2003\n", before) := by
  intro before lines state
  have opened : (before.handle " :paste\r\n").2.paste.isSome := by decide +kernel
  have pair : BlankPair lines 3 := by decide +kernel
  have apart : ∀ earlier < 3, ¬ BlankPair lines earlier := by decide +kernel
  have submitted : unlines (lines.take 4) = "+ \n\t\n:quit\n\u2003\n" := by decide +kernel
  obtain ⟨goes_on, ends, -⟩ := paste_ends_at_blankPair rfl opened lines
  refine ⟨rfl, opened, pair, apart, ?_, ?_⟩
  · exact (goes_on 2 ":quit\n" rfl fun earlier lt => apart earlier (by omega)).1
  · rw [← submitted]
    exact ends 3 "\r\n" rfl pair apart

end Brainfuck
