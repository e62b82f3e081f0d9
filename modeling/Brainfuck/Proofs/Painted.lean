import Brainfuck.Proofs.Comments
import Brainfuck.Proofs.Spans
import Brainfuck.Proofs.Trimming
import Brainfuck.Session

/-! What a line looks like and what it does.  The colours of a line are chosen while it is typed,
and what the session does with it is decided when it is entered, each from the text alone.  They
agree: a line that is plain is never run, and of any other line the characters in the colours of
instructions run as the whole line does. -/

namespace Brainfuck

namespace Text

variable {line : String}

theorem head?_trim (line : String) : (trim line).toList.head? = firstMark? line := by
  rw [trim, String.toList_ofList, trimChars, firstMark?, List.find?_not_eq_head?_dropWhile]
  refine head?_dropEndWhile fun c first => ?_
  simpa [first] using List.head?_dropWhile_not isBlank line.toList

theorem allBlank_eq_isNone : allBlank line = (firstMark? line).isNone := by
  rw [Bool.eq_iff_iff]
  simp [allBlank, firstMark?]

theorem isEmpty_trim : (trim line).isEmpty = allBlank line := by
  rw [allBlank_eq_isNone, ← head?_trim, Bool.eq_iff_iff]
  simp

theorem firstMark?_chomp : firstMark? (chomp line) = firstMark? line := by
  rw [← head?_trim, trim_chomp, head?_trim]

end Text

open Text

theorem Directive.head?_of_ofString? {word : String} {directive : Directive}
    (known : Directive.ofString? word = some directive) : word.toList.head? = some ':' := by
  unfold Directive.ofString? at known
  split at known <;> first | rfl | contradiction

namespace Session

variable {session : Session} {line : String}

theorem interpret_of_colon (colon : firstMark? line = some ':') (code : String) :
    (session.interpret line).1 ≠ .run code := by
  simp only [interpret, head?_trim, colon, isEmpty_trim, allBlank_eq_isNone]
  cases Directive.ofString? (trim line) with
  | none => simp
  | some directive => cases directive <;> simp [obey]

theorem interpret_of_not_colon (other : firstMark? line ≠ some ':') :
    session.interpret line = (if allBlank line then .nothing else .run line, session) := by
  have unknown : Directive.ofString? (trim line) = none := by
    rw [Option.eq_none_iff_forall_ne_some]
    intro directive known
    exact other (head?_trim line ▸ Directive.head?_of_ofString? known)
  simp only [interpret, unknown, head?_trim, other, isEmpty_trim, if_false]
  split <;> rfl

end Session

theorem Style.ofInstruction_ne_comment (instruction : Instruction) :
    Style.ofInstruction instruction ≠ Style.comment := by
  cases instruction with
  | move direction => cases direction <;> decide
  | _ => simp [ofInstruction, comment]

/-- Comments have a style of their own. -/
theorem Style.ofChar_ne_comment_iff {c : Char} : Style.ofChar c ≠ Style.comment ↔ isCode c := by
  rw [ofChar, isCode]
  cases Instruction.ofChar? c with
  | none => simp
  | some instruction => simp [ofInstruction_ne_comment]

namespace Span

variable {spans : List Span} {line : List Char}

/-- To keep the spans of some styles is to keep the characters of these styles. -/
theorem Cuts.filter (cuts : Cuts spans line) (keeps : Style → Bool) :
    (String.join ((spans.filter fun span => keeps span.style).map text)).toList =
      line.filter fun c => keeps (Style.ofChar c) := by
  obtain ⟨rfl, -, uniform⟩ := cuts
  induction spans with
  | nil => rfl
  | cons span spans ih =>
    rw [List.forall_mem_cons] at uniform
    obtain ⟨same, uniform⟩ := uniform
    have both := ih uniform
    rw [List.map_cons, String.join_cons, String.toList_append, List.filter_append, ← both,
      List.filter_cons]
    cases kept : keeps span.style with
    | true =>
      have all : span.text.toList.filter (fun c => keeps (Style.ofChar c)) = span.text.toList :=
        List.filter_eq_self.mpr fun c here => by rw [same c here, kept]
      rw [all, if_pos rfl, List.map_cons, String.join_cons, String.toList_append]
    | false =>
      have none : span.text.toList.filter (fun c => keeps (Style.ofChar c)) = [] :=
        List.filter_eq_nil_iff.mpr fun c here => by simp [same c here, kept]
      rw [none, if_neg Bool.false_ne_true, List.nil_append]

/-- The text of the spans that do not look like comments. -/
def codeText (spans : List Span) : String :=
  String.join ((spans.filter fun span => span.style ≠ Style.comment).map text)

theorem Cuts.toList_codeText (cuts : Cuts spans line) :
    (codeText spans).toList = line.filter isCode := by
  rw [codeText, cuts.filter fun style => style ≠ Style.comment]
  simp only [Style.ofChar_ne_comment_iff, Bool.decide_eq_true]

end Span

namespace Program

theorem ofString_codeText {line : String} (other : firstMark? line ≠ some ':') :
    ofString (Span.codeText (Span.ofLine line)) = (ofString line).code := by
  have cuts := Span.cutsAtChanges_iff.mpr (rfl : Span.ofCode line.toList = _)
  rw [Span.ofLine_eq_ite, if_neg other, ofString, cuts.toList_codeText, ← Array.toList_inj,
    toList_code, ofString]

theorem code_ofString_chomp (line : String) :
    (ofString (chomp line)).code = (ofString line).code := by
  obtain ⟨ends, whole, breaks, -⟩ := strips_iff.mpr (rfl : chomp line = _)
  have comments : ends.filter isCode = [] := by
    rw [List.filter_eq_nil_iff]
    intro c among
    obtain rfl | rfl := breaks c among <;> decide
  rw [← Array.toList_inj, toList_code, toList_code, ofString, ofString, whole, List.filter_append,
    comments, List.append_nil]

end Program

theorem Machine.create_code {allocator : Allocator} (program : Program) (settings : Settings) :
    Machine.create allocator program.code settings =
      (Machine.create allocator program settings).map Machine.strip := by
  rw [Machine.create, Machine.create]
  cases Tape.create allocator settings.tapeLength settings.policy with
  | error fault => rfl
  | ok tape =>
    have start : ({ program := program.code, settings, tape } : Machine) =
        Machine.strip { program, settings, tape } := by
      simp [Machine.strip, Program.rank]
    exact congrArg Except.ok start

/-- Under all settings and with any answers both programs fail to start with the same fault, or run
alike: both forever, or both to the same result, with the same writes, reads and jumps, and to the
same tape. -/
def RunAlike (first second : Program) : Prop :=
  ∀ (allocator : Allocator) (settings : Settings) (σ : Type) (feed : Feed σ) (source : σ),
    (∃ fault, Machine.create allocator first settings = .error fault ∧
      Machine.create allocator second settings = .error fault) ∨
    ∃ machine machine', Machine.create allocator first settings = .ok machine ∧
      Machine.create allocator second settings = .ok machine' ∧
      ((∃ final, Machine.Ends feed (machine, source) final) ↔
        ∃ final, Machine.Ends feed (machine', source) final) ∧
      ∀ final final', Machine.Ends feed (machine, source) final →
        Machine.Ends feed (machine', source) final' → Alike first second final final'

/-- A program runs as its instructions alone do. -/
theorem runAlike_code (program : Program) : RunAlike program program.code := by
  intro allocator settings σ feed source
  rw [Machine.create_code]
  cases created : Machine.create allocator program settings with
  | error fault => exact .inl ⟨fault, rfl, rfl⟩
  | ok machine =>
    refine .inr ⟨machine, machine.strip, rfl, rfl, ?_, fun final final' ends ends' => ?_⟩
    · exact (@Machine.exists_ends_strip_iff _ feed (machine, source)).symm
    · obtain rfl := ends.strip.unique ends'
      obtain ⟨tape, -, rfl⟩ := Machine.create_eq_ok_iff.mp created
      have alike := alike_strip (Machine.Marked.start.ends ends)
      rwa [ends.program] at alike

/-- A line whose first mark is a colon is plain, and the session does not run it.  Any other is run
without its end unless it is blank, and its text in the colours of instructions runs alike, with or
without the end of the line. -/
theorem runs_as_painted {session : Session} (outside : session.paste = none) (line : String) :
    (firstMark? line = some ':' →
      Span.ofLine line = [⟨{}, line⟩] ∧ ∀ code, (session.handle line).1 ≠ .run code) ∧
    (firstMark? line ≠ some ':' →
      session.handle line = (if allBlank line then .nothing else .run (chomp line), session) ∧
      let painted := Program.ofString (Span.codeText (Span.ofLine line))
      RunAlike (Program.ofString line) painted ∧
      RunAlike (Program.ofString (chomp line)) painted) := by
  rw [Session.handle_of_outside outside]
  have same_mark : firstMark? (chomp line) = firstMark? line := firstMark?_chomp
  constructor
  · intro colon
    rw [Span.ofLine_eq_ite, if_pos colon]
    exact ⟨rfl, Session.interpret_of_colon (same_mark.trans colon)⟩
  · intro other
    have other' : firstMark? (chomp line) ≠ some ':' := by rwa [same_mark]
    have same_blank : allBlank (chomp line) = allBlank line := by
      rw [allBlank_eq_isNone, same_mark, allBlank_eq_isNone]
    rw [Session.interpret_of_not_colon other', same_blank]
    refine ⟨rfl, ?_⟩
    rw [Program.ofString_codeText other]
    refine ⟨runAlike_code _, ?_⟩
    rw [← Program.code_ofString_chomp]
    exact runAlike_code _

/-- A colon behind the first mark is a comment, as the line end is, and one in front is not. -/
theorem runs_as_painted_of_colon :
    let session : Session := { settings := { tapeLength := 2 } }
    let line := " +: ]γ.\r\n"
    let feed := Feed.ofList (.error "closed")
    (∀ code, (session.handle "\t:+]").1 ≠ .run code) ∧
    session.handle line = (.run " +: ]γ.", session) ∧
    Span.codeText (Span.ofLine line) = "+]." ∧
    ∃ machine machine' final final',
      Machine.create .ample (Program.ofString " +: ]γ.") session.settings = .ok machine ∧
      Machine.create .ample (Program.ofString "+].") session.settings = .ok machine' ∧
      Machine.Ends feed (machine, []) final ∧ final.1.fault = some (.unmatched .closing) ∧
      Machine.Ends feed (machine', []) final' ∧
      Alike (Program.ofString " +: ]γ.") (Program.ofString "+].") final final' := by
  intro session line feed
  have outside : session.paste = none := rfl
  have colon : firstMark? "\t:+]" = some ':' := by decide
  have other : firstMark? line ≠ some ':' := by decide
  have stripped : chomp line = " +: ]γ." := by decide +kernel
  have painted : Span.codeText (Span.ofLine line) = "+]." := by decide +kernel
  obtain ⟨-, not_run⟩ := (runs_as_painted outside "\t:+]").1 colon
  obtain ⟨run, -, alike⟩ := (runs_as_painted outside line).2 other
  have blank : allBlank line = false := by decide
  rw [blank, stripped] at run
  rw [stripped, painted] at alike
  refine ⟨not_run, run, painted, ?_⟩
  obtain ⟨fault, failed, -⟩ | ⟨machine, machine', created, created', ends_iff, alike⟩ :=
    alike .ample session.settings _ feed []
  · cases failed
  have ran : (Machine.runFor feed 9 (machine, [])).map (fun final => final.1.fault) =
      some (some (.unmatched .closing)) := by
    cases created
    decide +kernel
  obtain ⟨final, ends, failed⟩ := Machine.exists_ends_of_map ran
  obtain ⟨final', ends'⟩ := ends_iff.mp ⟨final, ends⟩
  exact ⟨machine, machine', final, final', created, created', ends, failed, ends',
    alike final final' ends ends'⟩

end Brainfuck
