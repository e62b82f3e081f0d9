import Brainfuck.Proofs.Lines
import Brainfuck.Proofs.Trimming

/-! Reads from a stream of bytes, one after the other.  Each begins at the first line that those
before it have left.  A read at a terminal passes over the lines that are text and no value, with a
notice about each, and ends with the first line that is something else, or at the end of input; any
other read ends with its first line. -/

namespace Brainfuck

namespace Text
namespace Line

/-- The lines of some bytes: each ends with a line feed and has no other, and what is left behind
the last line feed is a line too. -/
inductive Divided : List UInt8 → List Line → Prop
  | nil : Divided [] []
  | unended {line : Line} (inside : ∀ byte ∈ line, byte ≠ 10) (nonempty : line ≠ []) :
      Divided line [line]
  | line {front rest : List UInt8} {lines : List Line} (inside : ∀ byte ∈ front, byte ≠ 10)
      (divided : Divided rest lines) : Divided (front ++ 10 :: rest) ((front ++ [10]) :: lines)

section Divided

variable {bytes : List UInt8} {line : Line} {front lines : List Line}

theorem divided_split (bytes : List UInt8) : Divided bytes (split bytes) := by
  induction length : bytes.length using Nat.strong_induction_on generalizing bytes with
  | _ length ih =>
    subst length
    obtain inside | ⟨front, rest, inside, rfl⟩ := eq_unended_or_line bytes
    · obtain rfl | ⟨early, last, rfl⟩ := List.eq_nil_or_concat bytes
      · exact .nil
      · rw [List.concat_eq_append] at inside ⊢
        have before : ∀ byte ∈ early, byte ≠ 10 :=
          fun byte among => inside byte (List.mem_append_left _ among)
        rw [split_concat before]
        exact .unended inside (by simp)
    · have shorter : rest.length < (front ++ 10 :: rest).length := by
        rw [List.length_append, List.length_cons]
        omega
      rw [split_cons inside]
      exact .line inside (ih rest.length shorter rest rfl)

theorem Divided.flatten (divided : Divided bytes lines) : lines.flatten = bytes := by
  induction divided with
  | nil => rfl
  | unended => exact List.flatten_singleton
  | line inside divided ih => simp [ih]

theorem Divided.tail (divided : Divided bytes (line :: lines)) : Divided lines.flatten lines := by
  cases divided with
  | unended => exact .nil
  | line inside divided => exact divided.flatten.symm ▸ divided

/-- The last lines of a stream are the lines of their bytes. -/
theorem Divided.of_append (divided : Divided bytes (front ++ lines)) :
    Divided lines.flatten lines := by
  induction front generalizing bytes with
  | nil => exact divided.flatten.symm ▸ divided
  | cons line front ih => exact ih divided.tail

theorem Divided.nonempty (divided : Divided bytes lines) : ∀ line ∈ lines, line ≠ [] := by
  induction divided with
  | nil => exact List.forall_mem_nil _
  | unended inside nonempty => exact List.forall_mem_singleton.mpr nonempty
  | line inside divided ih => exact List.forall_mem_cons.mpr ⟨by simp, ih⟩

end Divided

end Line
end Text

namespace Input

open Text

/-- The line is UTF-8 and, without the line feeds and carriage returns at its end, is decoded with
this result. -/
def Reads (format : CellFormat) (line : Line) (result : Except Fault UInt32) : Prop :=
  ∃ text stripped, line = .ofString text ∧ Strips text stripped ∧ format.decode stripped = result

/-- What a line answers: its text, without the line feeds and carriage returns at its end, or the
reason for which it cannot be read. -/
inductive Answers : Line → Answer → Prop
  | text {text stripped : String} (strips : Strips text stripped) :
      Answers (.ofString text) (.ok stripped)
  | notText {line : Line} (unreadable : ∀ text, line ≠ .ofString text) :
      Answers line (.error "stream did not contain valid UTF-8")

theorem answers_iff {line : Line} {answer : Answer} :
    Answers line answer ↔ Input.answer line = answer := by
  constructor
  · intro answers
    cases answers with
    | text strips => rw [Input.answer, Line.text?_ofString, ← strips_iff.mp strips]
    | notText unreadable =>
      cases read : line.text? with
      | none => rw [Input.answer, read, Line.notText]
      | some text => exact absurd (Line.text?_eq_some_iff.mp read) (unreadable text)
  · rintro rfl
    cases read : line.text? with
    | none =>
      rw [Input.answer, read]
      exact .notText fun text same => by simp [same] at read
    | some text =>
      obtain rfl := Line.text?_eq_some_iff.mp read
      rw [Input.answer, read]
      exact .text (strips_iff.mpr rfl)

/-- Lines have one list of answers. -/
theorem forall₂_answers_iff {lines : List Line} {answers : List Answer} :
    List.Forall₂ Answers lines answers ↔ lines.map Input.answer = answers := by
  rw [← List.forall₂_eq_eq_eq, List.forall₂_map_left_iff]
  exact ⟨fun answers => answers.imp fun _ _ => answers_iff.mp,
    fun answers => answers.imp fun _ _ => answers_iff.mpr⟩

/-- What a user is told about a line that was rejected. -/
def notice (fault : Fault) : String := s!"{fault.message}. Please try again.\n"

/-- A line that was rejected, and what for. -/
structure Mistake where
  line : Line
  fault : Fault

/-- How a read ends: with its last line, if there is one, and with this result. -/
inductive Final (format : CellFormat) (interactive : Bool) :
    (last rest : List Line) → Except Fault UInt32 → Prop
  | accepted {line : Line} {rest : List Line} {value : UInt32}
      (reads : Reads format line (.ok value)) : Final format interactive [line] rest (.ok value)
  | refused {line : Line} {rest : List Line} {fault : Fault}
      (reads : Reads format line (.error fault)) (alone : interactive = false) :
      Final format interactive [line] rest (.error fault)
  | notText {line : Line} {rest : List Line} (unreadable : ∀ text, line ≠ .ofString text) :
      Final format interactive [line] rest
        (.error (.unreadable "stream did not contain valid UTF-8"))
  | endOfInput : Final format interactive [] [] (.error (.inputLength 0))

/-- A read takes the lines that it rejects and then the one that ends it, if any. -/
structure Takes (format : CellFormat) (interactive : Bool) (lines : List Line) (reading : Reading)
    (rejected : List Mistake) (last : List Line) : Prop where
  lines_eq : lines = rejected.map (·.line) ++ last ++ reading.rest
  mistakes : ∀ mistake ∈ rejected, Reads format mistake.line (.error mistake.fault)
  alone : interactive = false → rejected = []
  prompted : reading.prompted =
    if interactive then
      String.join (rejected.map fun mistake => prompt format ++ notice mistake.fault) ++
        prompt format
    else ""
  final : Final format interactive last reading.rest reading.value

section Judge

variable {format : CellFormat} {interactive : Bool} {line : Line} {lines rest : List Line}
  {result value : Except Fault UInt32} {fault : Fault} {prompted told : String}

theorem reads_iff : Reads format line result ↔
    ∃ text, line.text? = some text ∧ format.decode (chomp text) = result := by
  simp only [Reads, strips_iff, Line.text?_eq_some_iff]
  constructor
  · rintro ⟨text, _, read, rfl, decoded⟩
    exact ⟨text, read, decoded⟩
  · rintro ⟨text, read, decoded⟩
    exact ⟨text, _, read, rfl, decoded⟩

theorem isMistake_of_decode {text : String} (rejected : format.decode text = .error fault) :
    isMistake fault := by
  obtain rfl | ⟨-, rfl⟩ := CellFormat.decode_eq_error rejected <;> rfl

theorem judge_of_value {value : UInt32} (reads : Reads format line (.ok value)) :
    judge format interactive line = .final (.ok value) := by
  obtain ⟨text, read, decoded⟩ := reads_iff.mp reads
  have answered : format.read (answer line) = .ok value := by
    rw [answer, read, ← decoded]
    rfl
  rw [judge, answered]

/-- A line that is no value is rejected at a terminal. -/
theorem judge_of_mistake (reads : Reads format line (.error fault)) (nonempty : line ≠ []) :
    judge format interactive line =
      if interactive then .rejected (notice fault) else .final (.error fault) := by
  obtain ⟨text, read, decoded⟩ := reads_iff.mp reads
  have filled : line.isEmpty = false := List.isEmpty_eq_false_iff.mpr nonempty
  have answered : format.read (answer line) = .error fault := by
    rw [answer, read, ← decoded]
    rfl
  rw [judge, answered]
  simp only [isMistake_of_decode decoded, filled]
  cases interactive <;> rfl

theorem judge_of_notText (unreadable : ∀ text, line ≠ .ofString text) :
    judge format interactive line =
      .final (.error (.unreadable "stream did not contain valid UTF-8")) := by
  rw [judge, answers_iff.mp (.notText unreadable)]
  rfl

/-- A line is text with a value, text without one or no text. -/
theorem reads_cases (format : CellFormat) (line : Line) :
    (∃ value, Reads format line (.ok value)) ∨ (∃ fault, Reads format line (.error fault)) ∨
      ∀ text, line ≠ .ofString text := by
  cases read : line.text? with
  | none => exact .inr (.inr fun text same => by simp [same] at read)
  | some text =>
    cases decoded : format.decode (chomp text) with
    | ok value => exact .inl ⟨value, reads_iff.mpr ⟨text, read, decoded⟩⟩
    | error fault => exact .inr (.inl ⟨fault, reads_iff.mpr ⟨text, read, decoded⟩⟩)

theorem readAfter_eq : readAfter format interactive prompted lines =
    { read format interactive lines with
      prompted := prompted ++ (read format interactive lines).prompted } := by
  induction lines generalizing prompted with
  | nil => simp [read, readAfter]
  | cons line rest ih =>
    rw [read, readAfter, readAfter]
    cases judge format interactive line with
    | final value => simp
    | rejected told => simp [ih, String.append_assoc]

theorem read_nil : read format interactive [] =
    ⟨.error (.inputLength 0), invitation format interactive, []⟩ := by
  cases format <;> simp [read, readAfter] <;> rfl

theorem read_of_final (ends : judge format interactive line = .final value) :
    read format interactive (line :: rest) = ⟨value, invitation format interactive, rest⟩ := by
  rw [read, readAfter, ends]
  simp

theorem read_of_rejected (rejected : judge format interactive line = .rejected told) :
    read format interactive (line :: rest) =
      { read format interactive rest with
        prompted := invitation format interactive ++ told ++
          (read format interactive rest).prompted } := by
  rw [read, readAfter, rejected]
  simp [readAfter_eq]

/-- One line more before the others, which is rejected. -/
theorem Takes.rejected {reading : Reading} {rejected : List Mistake} {last : List Line}
    (takes : Takes format true lines reading rejected last)
    (reads : Reads format line (.error fault)) :
    Takes format true (line :: lines)
      { reading with prompted := prompt format ++ notice fault ++ reading.prompted }
      (⟨line, fault⟩ :: rejected) last where
  lines_eq := by rw [takes.lines_eq, List.map_cons, List.cons_append, List.cons_append]
  mistakes := List.forall_mem_cons.mpr ⟨reads, takes.mistakes⟩
  alone interactive := by contradiction
  prompted := by
    have prompted := takes.prompted
    rw [if_pos rfl] at prompted ⊢
    rw [prompted, List.map_cons, String.join_cons, String.append_assoc, String.append_assoc,
      String.append_assoc]
  final := takes.final

theorem takes_of_final {reading : Reading} {last : List Line}
    (lines_eq : lines = last ++ reading.rest)
    (final : Final format interactive last reading.rest reading.value)
    (prompted : reading.prompted = invitation format interactive) :
    Takes format interactive lines reading [] last where
  lines_eq := lines_eq
  mistakes := List.forall_mem_nil _
  alone _ := rfl
  prompted := by
    rw [prompted, invitation]
    cases interactive <;> simp
  final := final

theorem exists_takes (format : CellFormat) (interactive : Bool)
    (nonempty : ∀ line ∈ lines, line ≠ []) : ∃ rejected last,
      Takes format interactive lines (read format interactive lines) rejected last := by
  induction lines with
  | nil =>
    rw [read_nil]
    exact ⟨[], [], takes_of_final rfl .endOfInput rfl⟩
  | cons line rest ih =>
    rw [List.forall_mem_cons] at nonempty
    obtain ⟨value, reads⟩ | ⟨fault, reads⟩ | unreadable := reads_cases format line
    · rw [read_of_final (judge_of_value reads)]
      exact ⟨[], [line], takes_of_final rfl (.accepted reads) rfl⟩
    · have judged := @judge_of_mistake _ interactive _ _ reads nonempty.1
      cases interactive with
      | false =>
        rw [read_of_final judged]
        exact ⟨[], [line], takes_of_final rfl (.refused reads rfl) rfl⟩
      | true =>
        obtain ⟨rejected, last, takes⟩ := ih nonempty.2
        rw [read_of_rejected judged]
        exact ⟨_, _, takes.rejected reads⟩
    · rw [read_of_final (judge_of_notText unreadable)]
      exact ⟨[], [line], takes_of_final rfl (.notText unreadable) rfl⟩

/-- The first line that was rejected can be taken away again. -/
theorem Takes.exists_behind {reading : Reading} {mistake : Mistake} {rejected : List Mistake}
    {last : List Line}
    (takes : Takes format interactive lines reading (mistake :: rejected) last) :
    interactive = true ∧ Reads format mistake.line (.error mistake.fault) ∧ ∃ later behind,
      lines = mistake.line :: later ∧ Takes format true later behind rejected last ∧ reading =
        { behind with prompted := prompt format ++ notice mistake.fault ++ behind.prompted } := by
  cases interactive with
  | false => cases takes.alone rfl
  | true =>
    obtain ⟨value, prompted, rest⟩ := reading
    obtain ⟨lines_eq, mistakes, alone, asked, final⟩ := takes
    obtain ⟨reads, mistakes⟩ := List.forall_mem_cons.mp mistakes
    rw [if_pos rfl, List.map_cons, String.join_cons, String.append_assoc] at asked
    let askedBehind := String.join (rejected.map fun mistake =>
      prompt format ++ notice mistake.fault) ++ prompt format
    exact ⟨rfl, reads, _, ⟨value, askedBehind, rest⟩, lines_eq,
      ⟨rfl, mistakes, fun alone => by contradiction, (if_pos rfl).symm, final⟩, by rw [← asked]⟩

/-- There is one way to take lines. -/
theorem Takes.eq_read {reading : Reading} {rejected : List Mistake} {last : List Line}
    (takes : Takes format interactive lines reading rejected last)
    (nonempty : ∀ line ∈ lines, line ≠ []) : reading = read format interactive lines := by
  induction rejected generalizing lines reading with
  | nil =>
    obtain ⟨value, prompted, rest⟩ := reading
    obtain ⟨rfl, -, -, asked, final⟩ := takes
    obtain rfl : prompted = invitation format interactive := by simpa [invitation] using asked
    cases final with
    | accepted reads => exact (read_of_final (judge_of_value reads)).symm
    | refused reads alone =>
      subst alone
      exact (read_of_final (judge_of_mistake reads (nonempty _ List.mem_cons_self))).symm
    | notText unreadable => exact (read_of_final (judge_of_notText unreadable)).symm
    | endOfInput => exact read_nil.symm
  | cons mistake rejected ih =>
    obtain ⟨rfl, reads, later, behind, rfl, takesBehind, rfl⟩ := takes.exists_behind
    rw [List.forall_mem_cons] at nonempty
    rw [read_of_rejected (judge_of_mistake reads nonempty.1), ← ih takesBehind nonempty.2]
    rfl

end Judge

/-- The lines left by some reads, one after the other. -/
def leftBy (earlier : List (CellFormat × Bool)) (lines : List Line) : List Line :=
  earlier.foldl (fun lines (format, interactive) => (read format interactive lines).rest) lines

/-- Reads one after the other take these lines of some and leave those: each takes what it is to
take of the lines that the one before it has left. -/
inductive Taking : List (CellFormat × Bool) → List Line → List Line → List Line → Prop
  | none {lines : List Line} : Taking [] lines [] lines
  | read {format : CellFormat} {interactive : Bool} {later : List (CellFormat × Bool)}
      {lines last taken left : List Line} {reading : Reading} {rejected : List Mistake}
      (takes : Takes format interactive lines reading rejected last)
      (taking : Taking later reading.rest taken left) :
      Taking ((format, interactive) :: later) lines (rejected.map (·.line) ++ last ++ taken) left

section Taking

variable {reads : List (CellFormat × Bool)} {lines taken left : List Line}

theorem Taking.lines_eq (taking : Taking reads lines taken left) : lines = taken ++ left := by
  induction taking with
  | none => rfl
  | read takes _ ih => rw [List.append_assoc, ← ih, ← takes.lines_eq]

theorem exists_taking (reads : List (CellFormat × Bool)) (nonempty : ∀ line ∈ lines, line ≠ []) :
    ∃ taken, Taking reads lines taken (leftBy reads lines) := by
  induction reads generalizing lines with
  | nil => exact ⟨[], .none⟩
  | cons first later ih =>
    obtain ⟨format, interactive⟩ := first
    obtain ⟨rejected, last, takes⟩ := exists_takes format interactive nonempty
    have rest : ∀ line ∈ (read format interactive lines).rest, line ≠ [] := fun line among =>
      nonempty line (takes.lines_eq ▸ List.mem_append_right _ among)
    obtain ⟨taken, taking⟩ := ih rest
    exact ⟨_, .read takes taking⟩

end Taking

/-- However many reads there were before, a read begins with the first line that they have left.  It
takes lines up to the first that it need not reject, and no byte behind that line. -/
theorem reads_in_turn (bytes : List UInt8) (earlier : List (CellFormat × Bool))
    (format : CellFormat) (interactive : Bool) :
    let all := Line.split bytes
    let lines := leftBy earlier all
    let reading := read format interactive lines
    Line.Divided bytes all ∧
    (∃ taken, Taking earlier all taken lines ∧ all = taken ++ lines ∧
      bytes = taken.flatten ++ lines.flatten) ∧
    Line.Divided lines.flatten lines ∧ Line.Divided reading.rest.flatten reading.rest ∧
    ∀ other, (∃ rejected last, Takes format interactive lines other rejected last) ↔
      other = reading := by
  intro all lines reading
  have whole : Line.Divided bytes all := Line.divided_split bytes
  obtain ⟨taken, taking⟩ := exists_taking earlier whole.nonempty
  have all_eq : all = taken ++ lines := taking.lines_eq
  have divided : Line.Divided lines.flatten lines := (all_eq ▸ whole).of_append
  obtain ⟨rejected, last, takes⟩ := exists_takes format interactive divided.nonempty
  refine ⟨whole, ⟨taken, taking, all_eq, ?_⟩, divided, ?_, fun other => ⟨?_, ?_⟩⟩
  · rw [← List.flatten_append, ← all_eq, whole.flatten]
  · rw [takes.lines_eq] at divided
    exact divided.of_append
  · rintro ⟨_, _, takes⟩
    exact takes.eq_read divided.nonempty
  · rintro rfl
    exact ⟨rejected, last, takes⟩

/-- Four reads: a user's third try, one line of a file, a line that is not UTF-8, and a blank line
at the end of input. -/
theorem reads_in_turn_of_retries :
    let bytes := "x\n\n42\r\n7\n".toUTF8.toList ++ [0xFF, 10] ++ "\r\n".toUTF8.toList
    let earlier := [(.numeric, true), (.character, false), (.numeric, true)]
    let first := read .numeric true (Line.split bytes)
    let second := read .character false first.rest
    let third := read .numeric true second.rest
    let fourth := read .character true third.rest
    first.value = .ok 42 ∧
    first.prompted = "Please provide a 1 or 2-digit number for ',' input:\n" ++
      "non-digit characters entered in numeric mode. Please try again.\n" ++
      "Please provide a 1 or 2-digit number for ',' input:\n" ++
      "expected a single character of input, got 0 characters. Please try again.\n" ++
      "Please provide a 1 or 2-digit number for ',' input:\n" ∧
    (second.value, second.prompted) = (.ok 55, "") ∧
    (third.value, third.prompted, third.rest) =
      (.error (.unreadable "stream did not contain valid UTF-8"),
        "Please provide a 1 or 2-digit number for ',' input:\n", [[13, 10]]) ∧
    (fourth.value, fourth.rest) = (.error (.inputLength 0), []) ∧
    fourth.prompted = "Please provide a single character for ',' input:\n" ++
      "expected a single character of input, got 0 characters. Please try again.\n" ++
      "Please provide a single character for ',' input:\n" ∧
    ∃ taken, Taking earlier (Line.split bytes) taken [[13, 10]] ∧
      bytes = taken.flatten ++ [13, 10] := by
  intro bytes earlier first second third fourth
  have left : leftBy earlier (Line.split bytes) = [[13, 10]] := by decide +kernel
  obtain ⟨-, ⟨taken, taking, -, bytes_eq⟩, -⟩ := reads_in_turn bytes earlier .character true
  rw [left] at taking bytes_eq
  refine ⟨?_, ?_, ?_, ?_, ?_, ?_, taken, taking, bytes_eq⟩ <;> decide +kernel

end Input
end Brainfuck
