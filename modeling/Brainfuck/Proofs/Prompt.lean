import Brainfuck.Proofs.Process
import Mathlib.Data.List.SplitBy

/-! The prompt where no stream is a terminal.  A session takes turns: in each it takes a line, and
where the line submits a program, the program runs from a fresh tape and reads from the lines that
follow.  `Serves` is such a session, with the account of it that a reader of its two streams and of
its input has.  The process keeps this account, and ends if and only if every program does that is
submitted. -/

namespace Brainfuck

open Text Machine

namespace Session

variable {session : Session} {text : String} {paste : Paste}

theorem chomp_empty : chomp "" = "" := rfl

/-- The end of input submits what two blank lines would. -/
theorem close_of_paste (pasting : session.paste = some paste) :
    session.close = (.run (if paste.blankRun = 0 then paste.code ++ "\n" else paste.code),
      { session with paste := none }) := by
  have blank : allBlank "" = true := rfl
  simp only [close, pasting, handle_of_paste pasting, chomp_empty, gather, blank, if_true]
  by_cases first : paste.blankRun = 0
  · simp [first, handle, chomp_empty, gather, blank]
  · have second : 2 ≤ paste.blankRun + 1 := by omega
    simp [first, second]

theorem directive_eq_quit_iff {word : String} :
    Directive.ofString? word = some .quit ↔ word = ":quit" ∨ word = ":exit" := by
  unfold Directive.ofString?
  split <;> simp_all

/-- A session is quit by one of two words, which a paste takes for code. -/
theorem handle_eq_quit_iff : (session.handle text).1 = .quit ↔
    session.paste = none ∧ (trim (chomp text) = ":quit" ∨ trim (chomp text) = ":exit") := by
  cases pasting : session.paste with
  | some paste =>
    have goes_on : (session.gather paste (chomp text)).1 ≠ .quit := by
      simp only [gather]
      split <;> split <;> simp
    simp [handle_of_paste pasting, goes_on]
  | none =>
    rw [← directive_eq_quit_iff]
    simp only [handle, pasting, interpret, true_and]
    cases Directive.ofString? (trim (chomp text)) with
    | none =>
      simp only [reduceCtorEq, iff_false]
      split
      · simp
      · split <;> simp
    | some directive => cases directive <;> simp [obey]

end Session

/-- A program that was submitted at the prompt, and what came of it. -/
structure Submission where
  code : String
  settings : Settings
  result : Except RunError String

inductive Ending
  | endOfInput
  | quit
  /-- A line at the prompt is not UTF-8. -/
  | notText
  deriving DecidableEq, Repr

def Ending.code : Ending → Nat
  | endOfInput | quit => 0
  | notText => 1

def Ending.report (command : String) : Ending → String
  | endOfInput | quit => ""
  | notText => s!"{command}: REPL error: stream did not contain valid UTF-8\n"

theorem Ending.report_notText (command : String) :
    notText.report command = s!"{command}: REPL error: {Line.notText}\n" := by
  have said : ": REPL error: stream did not contain valid UTF-8\n" =
      ": REPL error: " ++ Line.notText ++ "\n" := by decide
  show command ++ ": REPL error: stream did not contain valid UTF-8\n" =
    command ++ ": REPL error: " ++ Line.notText ++ "\n"
  rw [said, String.append_assoc, String.append_assoc, String.append_assoc]

/-- The account of a session. -/
structure Transcript where
  /-- The lines that were used, in order. -/
  uses : List Use
  /-- The programs that were run, in order. -/
  submissions : List Submission
  ending : Ending
  /-- The lines that were left. -/
  unused : List Line

namespace Submission

/-- Each program is followed by a line feed on the output, and a failing one by its report. -/
def outputs (submissions : List Submission) : String :=
  String.join (submissions.map fun submission => writtenBy submission.result ++ "\n")

def errors (submissions : List Submission) : String :=
  String.join (submissions.map fun submission => reportOf "" submission.result)

@[simp] theorem outputs_append (first second : List Submission) :
    outputs (first ++ second) = outputs first ++ outputs second := by
  simp [outputs]

@[simp] theorem errors_append (first second : List Submission) :
    errors (first ++ second) = errors first ++ errors second := by
  simp [errors]

@[simp] theorem outputs_singleton (submission : Submission) :
    outputs [submission] = writtenBy submission.result ++ "\n" := by
  simp [outputs]

@[simp] theorem errors_singleton (submission : Submission) :
    errors [submission] = reportOf "" submission.result := by
  simp [errors]

end Submission

namespace Transcript

def output (transcript : Transcript) : String := Submission.outputs transcript.submissions

def errors (command : String) (transcript : Transcript) : String :=
  Submission.errors transcript.submissions ++ transcript.ending.report command

/-- The account with what came before. -/
def behind (uses : List Use) (submissions : List Submission) (transcript : Transcript) :
    Transcript :=
  { transcript with
    uses := uses ++ transcript.uses
    submissions := submissions ++ transcript.submissions }

end Transcript

/-- One turn of a session that goes on: a line is taken, and if it submits a program, this runs and
may use the lines that follow. -/
inductive Turn (allocator : Allocator) :
    Session × List Line → List Use → List Submission → Session × List Line → Prop
  | idle {session after : Session} {line : Line} {rest : List Line} {text : String}
      {action : Action} (read : line.text? = some text)
      (handled : session.handle text = (action, after))
      (idle : action = .nothing ∨ ∃ notice, action = .message notice) :
      Turn allocator (session, line :: rest) [.prompt line] [] (after, rest)
  | submission {session after : Session} {line : Line} {answers rest : List Line}
      {text code : String} {result : Except RunError String} (read : line.text? = some text)
      (handled : session.handle text = (.run code, after))
      (concludes : Concludes allocator Input.feed (Program.ofString code) after.settings
        (answers ++ rest) result rest) :
      Turn allocator (session, line :: (answers ++ rest)) (.prompt line :: answers.map .answer)
        [⟨code, after.settings, result⟩] (after, rest)

/-- The last turn of a session.  A paste that is open at the end of input is run. -/
inductive LastTurn (allocator : Allocator) : Session × List Line → Transcript → Prop
  | endOfInput {session : Session} (outside : session.paste = none) :
      LastTurn allocator (session, []) ⟨[], [], .endOfInput, []⟩
  | endOfPaste {session after : Session} {code : String} {result : Except RunError String}
      (closed : session.close = (.run code, after))
      (concludes : Concludes allocator Input.feed (Program.ofString code) after.settings [] result
        []) :
      LastTurn allocator (session, []) ⟨[], [⟨code, after.settings, result⟩], .endOfInput, []⟩
  | quit {session : Session} {line : Line} {rest : List Line} {text : String}
      (read : line.text? = some text) (outside : session.paste = none)
      (word : trim (chomp text) = ":quit" ∨ trim (chomp text) = ":exit") :
      LastTurn allocator (session, line :: rest) ⟨[.prompt line], [], .quit, rest⟩
  | notText {session : Session} {line : Line} {rest : List Line} (unread : line.text? = none) :
      LastTurn allocator (session, line :: rest) ⟨[.prompt line], [], .notText, rest⟩

/-- A session that takes turns until its last. -/
inductive Serves (allocator : Allocator) : Session × List Line → Transcript → Prop
  | close {state : Session × List Line} {transcript : Transcript}
      (last : LastTurn allocator state transcript) : Serves allocator state transcript
  | turn {state next : Session × List Line} {uses : List Use} {submissions : List Submission}
      {transcript : Transcript} (turn : Turn allocator state uses submissions next)
      (serves : Serves allocator next transcript) :
      Serves allocator state (transcript.behind uses submissions)

/-- In the course of a session this program is submitted under these settings, with these lines left
for it to read. -/
inductive Submits (allocator : Allocator) :
    Session × List Line → String → Settings → List Line → Prop
  | line {session after : Session} {line : Line} {rest : List Line} {text code : String}
      (read : line.text? = some text) (handled : session.handle text = (.run code, after)) :
      Submits allocator (session, line :: rest) code after.settings rest
  | endOfPaste {session after : Session} {code : String}
      (closed : session.close = (.run code, after)) :
      Submits allocator (session, []) code after.settings []
  | later {state next : Session × List Line} {uses : List Use} {submissions : List Submission}
      {code : String} {settings : Settings} {lines : List Line}
      (turn : Turn allocator state uses submissions next)
      (submits : Submits allocator next code settings lines) :
      Submits allocator state code settings lines

section Course

variable {allocator : Allocator} {state next : Session × List Line} {session after : Session}
  {line : Line} {lines rest : List Line} {uses : List Use} {submissions : List Submission}
  {transcript : Transcript} {text code : String} {settings : Settings} {final : Batch}
  {status : ExitStatus}

theorem Turn.lines_eq (turn : Turn allocator state uses submissions next) :
    state.2 = uses.map Use.line ++ next.2 := by
  cases turn with
  | idle => rfl
  | submission => simp [Use.line]

theorem Turn.nonempty (turn : Turn allocator state uses submissions next)
    (nonempty : ∀ line ∈ state.2, line ≠ []) : ∀ line ∈ next.2, line ≠ [] :=
  fun line among => nonempty line (turn.lines_eq ▸ List.mem_append_right _ among)

/-- If every program that is submitted ends, the session comes to its last turn. -/
theorem exists_serves (ends : ∀ code settings lines,
      Submits allocator state code settings lines → ∃ result rest,
        Concludes allocator Input.feed (Program.ofString code) settings lines result rest) :
    ∃ transcript, Serves allocator state transcript := by
  obtain ⟨session, lines⟩ := state
  -- A turn uses one line at least, and its program any number of those that follow.
  induction count : lines.length using Nat.strong_induction_on generalizing session lines with
  | _ count ih =>
    subst count
    cases lines with
    | nil =>
      cases pasting : session.paste with
      | none => exact ⟨_, .close (.endOfInput pasting)⟩
      | some paste =>
        have closed := Session.close_of_paste pasting
        obtain ⟨result, rest, concludes⟩ := ends _ _ _ (.endOfPaste closed)
        obtain ⟨answers, none_left⟩ := concludes.exists_answers
        obtain ⟨-, rfl⟩ := List.append_eq_nil_iff.mp none_left.symm
        exact ⟨_, .close (.endOfPaste closed concludes)⟩
    | cons line rest =>
      cases read : line.text? with
      | none => exact ⟨_, .close (.notText read)⟩
      | some text =>
        have go_on {after : Session} {left : List Line} {uses : List Use}
            {submissions : List Submission} (shorter : left.length < (line :: rest).length)
            (turn : Turn allocator (session, line :: rest) uses submissions (after, left)) :
            ∃ transcript, Serves allocator (session, line :: rest) transcript := by
          obtain ⟨transcript, serves⟩ := ih _ shorter after left
            (fun _ _ _ submits => ends _ _ _ (.later turn submits)) rfl
          exact ⟨_, .turn turn serves⟩
        cases handled : session.handle text with
        | mk action after =>
        cases action with
        | nothing => exact go_on (by simp) (.idle read handled (.inl rfl))
        | message notice => exact go_on (by simp) (.idle read handled (.inr ⟨notice, rfl⟩))
        | quit =>
          obtain ⟨outside, word⟩ := Session.handle_eq_quit_iff.mp (congrArg Prod.fst handled)
          exact ⟨_, .close (.quit read outside word)⟩
        | run code =>
          obtain ⟨result, left, concludes⟩ := ends _ _ _ (.line read handled)
          obtain ⟨answers, rfl⟩ := concludes.exists_answers
          have shorter : left.length < (line :: (answers ++ left)).length := by
            rw [List.length_cons, List.length_append]
            omega
          exact go_on shorter (.submission read handled concludes)

end Course

namespace Batch

variable (host : Host) {state next : Session × List Line} {session after : Session} {line : Line}
  {lines rest : List Line} {uses more : List Use} {submissions : List Submission}
  {transcript : Transcript} {text code : String} {settings : Settings} {final : Batch}
  {status : ExitStatus}

/-- The batch that waits at the prompt, with these lines left. -/
def prompting (written : Array Piece) (state : Session × List Line) : Batch :=
  ⟨.prompting .bare state.1, state.2, written⟩

theorem takeLine_of_text (nonempty : line ≠ []) (read : line.text? = some text) :
    Activity.takeLine host.silent .bare session line =
      Activity.obey host.silent .bare false (session.handle text) := by
  cases line with
  | nil => contradiction
  | cons byte bytes => simp only [Activity.takeLine, read]

theorem takeLine_of_run (nonempty : line ≠ []) (read : line.text? = some text)
    (handled : session.handle text = (.run code, after)) :
    Activity.takeLine host.silent .bare session line =
      Activity.execute host.silent (.prompt .bare after false) after.settings code := by
  rw [takeLine_of_text host nonempty read, handled]
  rfl

theorem takeLine_of_endOfPaste (closed : session.close = (.run code, after)) :
    Activity.takeLine host.silent .bare session [] =
      Activity.execute host.silent (.prompt .bare after true) after.settings code := by
  simp only [Activity.takeLine, closed]
  rfl

variable {host}

/-- The prompt uses the next line. -/
theorem passes_line {pieces : List Piece} {activity : Activity} (rest : List Line)
    (written : Array Piece)
    (taken : Activity.takeLine host.silent .bare session line = (activity, pieces)) :
    Passes host.silent (prompting written (session, line :: rest)) [.prompt line]
      (Piece.textOf .output pieces.toArray) (Piece.textOf .error pieces.toArray)
      ⟨activity, rest, written ++ pieces⟩ :=
  passes_of_takeReply (line :: rest) written rfl rfl taken

/-- At the end of its input the prompt takes a line of no bytes. -/
theorem passes_end {pieces : List Piece} {activity : Activity} (written : Array Piece)
    (taken : Activity.takeLine host.silent .bare session [] = (activity, pieces)) :
    Passes host.silent (prompting written (session, [])) []
      (Piece.textOf .output pieces.toArray) (Piece.textOf .error pieces.toArray)
      ⟨activity, [], written ++ pieces⟩ :=
  passes_of_takeReply [] written rfl rfl taken

/-- A program that the prompt executes is a submission, in whatever way it ends. -/
theorem passes_submission {batch : Batch} {mode : PromptMode} {ended : Bool}
    {result : Except RunError String} (concludes :
      Concludes host.allocator Input.feed (Program.ofString code) settings lines result rest)
    {move : Move}
    (starts : move = Activity.execute host.silent (.prompt mode session ended) settings code)
    (before : Leads host.silent batch uses ⟨move.1, lines, batch.written ++ move.2⟩) :
    ∃ answers written', lines = answers ++ rest ∧
      Passes host.silent batch (uses ++ answers.map .answer)
        (Submission.outputs [⟨code, settings, result⟩])
        (Submission.errors [⟨code, settings, result⟩])
        ⟨Activity.afterProgram (!result.isOk) (.prompt mode session ended), rest, written'⟩ := by
  subst starts
  obtain ⟨answers, written', used, leads, output, errors⟩ :=
    leads_execute concludes (.prompt mode session ended) batch.written
  refine ⟨answers, written', used, before.trans leads, ?_, ?_⟩
  · rw [Submission.outputs_singleton]
    exact output
  · rw [Submission.errors_singleton]
    exact errors

theorem passes_turn (turn : Turn host.allocator state uses submissions next)
    (nonempty : ∀ line ∈ state.2, line ≠ []) (written : Array Piece) : ∃ written',
      Passes host.silent (prompting written state) uses (Submission.outputs submissions)
        (Submission.errors submissions) (prompting written' next) := by
  cases turn with
  | @idle session after line rest text action read handled idle =>
    have taken : Activity.takeLine host.silent .bare session line =
        (.prompting .bare after, []) := by
      rw [takeLine_of_text host (nonempty line List.mem_cons_self) read, handled]
      obtain rfl | ⟨notice, rfl⟩ := idle <;> rfl
    exact ⟨_, passes_line _ written taken⟩
  | @submission session after line answers rest text code result read handled concludes =>
    have taken := takeLine_of_run host (nonempty line List.mem_cons_self) read handled
    obtain ⟨answers', written', used, passes⟩ :=
      passes_submission concludes taken (passes_line _ written rfl).leads
    -- The process has left what the run left, so both have used the same lines.
    obtain rfl := List.append_cancel_right used
    exact ⟨written', passes⟩

theorem passes_lastTurn (last : LastTurn host.allocator state transcript)
    (nonempty : ∀ line ∈ state.2, line ≠ []) (written : Array Piece) : ∃ written',
      Passes host.silent (prompting written state) transcript.uses transcript.output
        (transcript.errors host.command)
        ⟨Activity.exit transcript.ending.code, transcript.unused, written'⟩ := by
  cases last with
  | @endOfInput session outside =>
    have taken : Activity.takeLine host.silent .bare session [] = (Activity.exit 0, []) := by
      simp only [Activity.takeLine, Session.close, outside]
      rfl
    exact ⟨_, passes_end written taken⟩
  | @endOfPaste session after code result closed concludes =>
    obtain ⟨answers, written', used, passes⟩ :=
      passes_submission concludes (takeLine_of_endOfPaste host closed)
        (passes_end written rfl).leads
    obtain rfl : answers = [] := by simpa using used
    refine ⟨written', ?_⟩
    rw [Transcript.errors, Ending.report, String.append_empty]
    exact passes
  | @quit session line rest text read outside word =>
    have quits := Session.handle_eq_quit_iff.mpr ⟨outside, word⟩
    have taken : Activity.takeLine host.silent .bare session line = (Activity.exit 0, []) := by
      rw [takeLine_of_text host (nonempty line List.mem_cons_self) read]
      cases handled : session.handle text with
      | mk action after =>
      rw [handled] at quits
      cases quits
      rfl
    exact ⟨_, passes_line _ written taken⟩
  | @notText session line rest unread =>
    have taken : Activity.takeLine host.silent .bare session line =
        (Activity.exit Ending.notText.code, [⟨.error, Ending.notText.report host.command⟩]) := by
      have nonempty := nonempty line List.mem_cons_self
      cases line with
      | nil => contradiction
      | cons byte bytes =>
        rw [Ending.report_notText]
        simp only [Activity.takeLine, unread]
        rfl
    have passes := passes_line rest written taken
    simp only [Piece.textOf_cons] at passes
    exact ⟨_, by simpa [Transcript.output, Transcript.errors, Submission.outputs,
      Submission.errors] using passes⟩

theorem passes_serves (serves : Serves host.allocator state transcript)
    (nonempty : ∀ line ∈ state.2, line ≠ []) (written : Array Piece) : ∃ written',
      Passes host.silent (prompting written state) transcript.uses transcript.output
        (transcript.errors host.command)
        ⟨Activity.exit transcript.ending.code, transcript.unused, written'⟩ := by
  induction serves generalizing written with
  | close last => exact passes_lastTurn last nonempty written
  | @turn state next uses submissions transcript turn _ ih =>
    obtain ⟨written₁, passes⟩ := passes_turn turn nonempty written
    obtain ⟨written₂, rest⟩ := ih (turn.nonempty nonempty) written₁
    refine ⟨written₂, ?_⟩
    have whole := passes.trans rest
    rw [Transcript.output, ← Submission.outputs_append, Transcript.errors,
      ← String.append_assoc, ← Submission.errors_append] at whole
    exact whole

/-- If the process ends, every program does that is submitted. -/
theorem concludes_of_submits (submits : Submits host.allocator state code settings lines)
    (nonempty : ∀ line ∈ state.2, line ≠ []) {written : Array Piece}
    (leads : Leads host.silent (prompting written state) uses final)
    (ended : final.activity.status? = some status) :
    ∃ result rest,
      Concludes host.allocator Input.feed (Program.ofString code) settings lines result rest := by
  induction submits generalizing written uses with
  | @line session after line rest text code read handled =>
    have taken := takeLine_of_run host (nonempty line List.mem_cons_self) read handled
    obtain ⟨more, -, behind⟩ := (passes_line _ written rfl).leads.rest leads ended
    exact exists_concludes_of_leads taken behind ended
  | @endOfPaste session after code closed =>
    obtain ⟨more, -, behind⟩ := (passes_end written rfl).leads.rest leads ended
    exact exists_concludes_of_leads (takeLine_of_endOfPaste host closed) behind ended
  | @later state next _ submissions code settings lines turn _ ih =>
    obtain ⟨written', passes⟩ := passes_turn turn nonempty written
    obtain ⟨more, -, behind⟩ := passes.leads.rest leads ended
    exact ih (turn.nonempty nonempty) behind

end Batch

theorem nonempty_of_mem_split {bytes : List UInt8} {line : Line} (among : line ∈ Line.split bytes) :
    line ≠ [] := by
  rintro rfl
  exact List.nil_notMem_splitBy _ _ among

/-- A session at the bare prompt, from what has been written before it, ends if and only if every
program does that is submitted; what it then has written more is what the session's account says. -/
theorem session_serves (host : Host) (settings : Settings) (bytes : List UInt8)
    (written : Array Piece) :
    let lines := Line.split bytes
    let session : Session := { settings }
    let start := Batch.prompting written (session, lines)
    ((∃ fuel ended, Batch.runFor host.silent fuel start = some ended) ↔
      ∀ code chosen left, Submits host.allocator (session, lines) code chosen left →
        ∃ result rest,
          Concludes host.allocator Input.feed (Program.ofString code) chosen left result rest) ∧
    ∀ fuel batch status, Batch.runFor host.silent fuel start = some (batch, status) →
      ∃ transcript, Serves host.allocator (session, lines) transcript ∧
        Batch.Passes host.silent start transcript.uses transcript.output
          (transcript.errors host.command) batch ∧
        batch.input = transcript.unused ∧ status = .code transcript.ending.code := by
  intro lines session start
  have nonempty : ∀ line ∈ lines, line ≠ [] := fun line => nonempty_of_mem_split
  have ends_iff : (∃ fuel ended, Batch.runFor host.silent fuel start = some ended) ↔
      ∀ code chosen left, Submits host.allocator (session, lines) code chosen left →
        ∃ result rest,
          Concludes host.allocator Input.feed (Program.ofString code) chosen left result rest := by
    constructor
    · rintro ⟨fuel, ⟨batch, status⟩, ran⟩ code chosen left submits
      obtain ⟨ended, uses, leads⟩ := Batch.leads_of_runFor ran
      exact Batch.concludes_of_submits submits nonempty leads ended
    · intro ends
      obtain ⟨transcript, serves⟩ := exists_serves ends
      obtain ⟨written, passes⟩ := Batch.passes_serves serves nonempty written
      obtain ⟨fuel, ran⟩ := passes.leads.exists_runFor rfl
      exact ⟨fuel, _, ran⟩
  refine ⟨ends_iff, fun fuel batch status ran => ?_⟩
  obtain ⟨transcript, serves⟩ := exists_serves (ends_iff.mp ⟨fuel, _, ran⟩)
  obtain ⟨written, passes⟩ := Batch.passes_serves serves nonempty written
  obtain ⟨ended, uses, leads⟩ := Batch.leads_of_runFor ran
  obtain ⟨-, rfl⟩ := passes.leads.unique rfl leads ended
  cases ended
  exact ⟨transcript, serves, passes, rfl, rfl⟩

theorem startCommand_repl {environment : Environment} {choice : Option PromptMode}
    (overrides : Overrides) (bare : PromptMode.select choice environment = .ok .bare)
    (handles : environment.handlerError = none) :
    Activity.startCommand environment (.repl false choice overrides) =
      (.prompting .bare { settings := overrides.apply environment.settings },
        environment.warnings) := by
  simp [Activity.startCommand, Activity.startPrompt, bare, handles]

/-- The bare prompt ends if and only if every program does that is submitted to it.  If it ends, it
has been a session on the lines of its standard input, has used them as that session does, and has
written what the session does behind the warnings of the configuration file. -/
theorem prompt_serves (environment : Environment) {choice : Option PromptMode}
    (overrides : Overrides) (bytes : List UInt8) (quiet : environment.host.terminals = .none)
    (bare : PromptMode.select choice environment = .ok .bare)
    (handles : environment.handlerError = none) :
    let allocator := environment.host.allocator
    let session : Session := { settings := overrides.apply environment.settings }
    let lines := Line.split bytes
    let move := Activity.startCommand environment (.repl false choice overrides)
    let start : Batch := ⟨move.1, lines, move.2.toArray⟩
    Line.Divided bytes lines ∧
    ((∃ fuel ended, Batch.runFor environment.host fuel start = some ended) ↔
      ∀ code chosen left, Submits allocator (session, lines) code chosen left →
        ∃ result rest,
          Concludes allocator Input.feed (Program.ofString code) chosen left result rest) ∧
    ∀ fuel batch status, Batch.runFor environment.host fuel start = some (batch, status) →
      ∃ transcript, Serves allocator (session, lines) transcript ∧
        Batch.Leads environment.host start transcript.uses batch ∧
        lines = transcript.uses.map Use.line ++ transcript.unused ∧
        batch.input = transcript.unused ∧
        Piece.textOf .output batch.written = transcript.output ∧
        Piece.textOf .error batch.written =
          environment.warned ++ transcript.errors environment.host.command ∧
        status = .code transcript.ending.code := by
  intro allocator session lines move start
  obtain ⟨ends_iff, shows⟩ := session_serves environment.host session.settings bytes
    environment.warnings.toArray
  have started : Batch.prompting environment.warnings.toArray (session, lines) = start := by
    simp only [start, move, startCommand_repl overrides bare handles, Batch.prompting, session]
  rw [Host.silent_eq quiet, started] at ends_iff shows
  refine ⟨Line.divided_split bytes, ends_iff, fun fuel batch status ran => ?_⟩
  obtain ⟨transcript, serves, passes, unused, ended⟩ := shows fuel batch status ran
  obtain ⟨leads, output, errors⟩ := passes
  obtain ⟨no_output, warned⟩ := environment.textOf_warnings
  rw [← started] at output errors
  rw [Batch.prompting, no_output, String.empty_append] at output
  rw [Batch.prompting, warned] at errors
  exact ⟨transcript, serves, leads, unused ▸ leads.input_eq, unused, output, errors, ended⟩

/-- The first program takes the line after it for input and fails; the second is pasted, and the
end of input submits it. -/
theorem prompt_serves_of_open_paste :
    let content := "[defaults]\nnumeric_output = yes\ncolour = red\n"
    let environment : Environment := {
      host := { terminals := .none }
      promptMode := some " Bare"
      config := some (Line.ofString content)
      log := fun message fields => s!"2026-01-01T00:00:00.000000Z  WARN {message}" ++
        String.join (fields.map fun (name, value) => s!" {name}={value}") ++ "\n"
      fileContents := fun _ => .error .missing }
    let lines := Line.split "+.,\nab\n:numout\n:paste\n++.\n".toUTF8.toList
    let move := Activity.startCommand environment (.repl false none {})
    let warning :=
      "2026-01-01T00:00:00.000000Z  WARN ignoring config entry key=colour value=red\n"
    let report := "Runtime error at char index 2: " ++
        "expected a single character of input, got 2 characters\n" ++
      "            +.,             \n" ++
      "Error at      ^      char index 2\n" ++
      "  message: expected a single character of input, got 2 characters\n" ++
      "   output: 1\n"
    ∃ fuel batch, Batch.runFor environment.host fuel ⟨move.1, lines, move.2.toArray⟩ =
        some (batch, .code 0) ∧
      Piece.textOf .output batch.written = "1\n\x02\n" ∧
      Piece.textOf .error batch.written = warning ++ report ∧
      ∃ transcript, Serves .ample ({ settings := { output := .numeric } }, lines) transcript ∧
        transcript.uses.map Use.line = lines ∧ transcript.unused = [] ∧
        Piece.textOf .output batch.written = transcript.output ∧ transcript.ending.code = 0 := by
  intro content environment lines move warning report
  have bare : PromptMode.select none environment = .ok .bare := rfl
  obtain ⟨-, -, shows⟩ := prompt_serves environment {}
    "+.,\nab\n:numout\n:paste\n++.\n".toUTF8.toList rfl bare rfl
  have settings : environment.settings = { output := .numeric } := by decide +kernel
  have started : move =
      (.prompting .bare { settings := { output := .numeric } }, [⟨.error, warning⟩]) := by
    have ignored : environment.ignored = [⟨"colour", "red"⟩] :=
      @Environment.ignored_of_single environment content _ (Line.text?_ofString content)
        (by decide +kernel)
    have warnings : environment.warnings = [⟨.error, warning⟩] := by
      rw [Environment.warnings, ignored]
      decide +kernel
    rw [show move = _ from startCommand_repl {} bare rfl, settings, warnings]
    rfl
  have ran : (Batch.runFor environment.host 20 ⟨move.1, lines, move.2.toArray⟩).map
      (fun ended => (ended.1.input, Piece.textOf .output ended.1.written,
        Piece.textOf .error ended.1.written, ended.2)) =
      some ([], "1\n\x02\n", warning ++ report, .code 0) := by
    rw [started]
    decide +kernel
  obtain ⟨⟨batch, status⟩, ran, shown⟩ := Option.map_eq_some_iff.mp ran
  simp only [Prod.mk.injEq] at shown
  obtain ⟨input, output, errors, rfl⟩ := shown
  obtain ⟨transcript, serves, -, used, unused, same_output, -, same_status⟩ :=
    shows 20 batch _ ran
  rw [settings] at serves
  rw [← unused, input, List.append_nil] at used
  refine ⟨20, batch, ran, output, errors, transcript, serves, used.symm, unused ▸ input,
    same_output, ?_⟩
  exact (ExitStatus.code.inj same_status).symm

end Brainfuck
