import Brainfuck.Activity.Start
import Brainfuck.Proofs.Batch
import Brainfuck.Proofs.Conclusion
import Brainfuck.Proofs.Reading

/-! The command as a process that reads its standard input to the end of what it needs, where no
stream is a terminal.  A program reads there as it does from the feed of the lines, writes what its
run yields, and ends with the report of its fault.  So the process and the run of the library end
alike or not at all. -/

namespace Brainfuck

open Text Machine

namespace Machine

/-- What an instruction writes are the fragments that it adds to the log. -/
theorem exists_fragments_advance {σ : Type} (feed : Feed σ) {state : Machine × σ}
    (running : state.1.halted = false) : ∃ texts : Array String,
      (advance feed state).1.log.fragments = state.1.log.fragments ++ texts ∧
      (advance feed state).1.output = state.1.output ++ String.join texts.toList := by
  refine advance_cases (motive := fun behind => ∃ texts : Array String,
    behind.1.log.fragments = state.1.log.fragments ++ texts ∧
      behind.1.output = state.1.output ++ String.join texts.toList) running ?comment ?operate ?write
      ?read ?jump ?pass
  case comment | pass =>
    intros
    exact ⟨#[], by simp [next], by simp [next]⟩
  case operate =>
    intro instruction operation _ _
    refine ⟨#[], ?_⟩
    cases state.1.tape.perform operation <;> simp [operated, fail]
  case write =>
    intro _
    rw [write]
    cases state.1.settings.output.encode state.1.tape.current with
    | ok text => exact ⟨#[text], by simp, by simp⟩
    | error fault => exact ⟨#[], by simp [fail], by simp [fail]⟩
  case read =>
    intro _
    refine ⟨#[], ?_⟩
    cases state.1.settings.input.read (feed state.2).1 <;> simp [supply]
  case jump =>
    intro bracket _ _
    refine ⟨#[], ?_⟩
    rw [jump]
    cases state.1.program.target state.1.position bracket <;> simp [jumped, fail]

theorem advance_of_asks {state : Machine × List Line} (asks : state.1.asks) :
    advance Input.feed state =
      (state.1.supply (state.1.settings.input.read (Input.answer (state.2.headD []))),
        state.2.tail) := by
  obtain ⟨machine, lines⟩ := state
  cases lines <;> simp [advance, asks, Input.feed]

theorem advance_of_not_asks {σ : Type} {feed : Feed σ} {state : Machine × σ}
    (asks : state.1.asks = false) : advance feed state = (state.1.step, state.2) := by
  simp [advance, asks]

end Machine

/-- Where nobody is asked again every line is final. -/
theorem judge_alone (format : CellFormat) (line : Line) :
    Input.judge format false line = .final (format.read (Input.answer line)) := by
  rw [Input.judge]
  cases format.read (Input.answer line) <;> simp

theorem textOf_fragments (texts : List String) :
    Piece.textOf .output (texts.map fun text => (⟨.output, text⟩ : Piece)).toArray =
      String.join texts ∧
    Piece.textOf .error (texts.map fun text => (⟨.output, text⟩ : Piece)).toArray = "" := by
  induction texts with
  | nil => exact ⟨rfl, rfl⟩
  | cons text texts ih =>
    simp only [List.map_cons, Piece.textOf_cons, ih.1, ih.2]
    simp

namespace Batch

variable {machine : Machine} {state : Machine × List Line} {owner : Owner}
  {lines rest : List Line} {written : Array Piece} {settings : Settings} {code : String}
  {result : Except RunError String} {batch final : Batch} {uses : List Use} {status : ExitStatus}
  {count : Nat} (host : Host)

/-- The batch in which a machine executes its program, with these lines left. -/
def executing (owner : Owner) (written : Array Piece) (state : Machine × List Line) : Batch :=
  ⟨.executing state.1 owner, state.2, written⟩

/-- An instruction other than `,` writes its fragments and uses no line. -/
theorem passes_step (running : state.1.halted = false) (asks : state.1.asks = false)
    (owner : Owner) (written : Array Piece) : ∃ text written',
      (advance Input.feed state).1.output = state.1.output ++ text ∧
      (advance Input.feed state).2 = state.2 ∧
      Passes host.silent (executing owner written state) [] text ""
        (executing owner written' (advance Input.feed state)) := by
  obtain ⟨texts, fragments, output⟩ := exists_fragments_advance Input.feed running
  rw [advance_of_not_asks asks] at fragments output ⊢
  have moved : (Activity.executing state.1 owner).step host.silent =
      (.executing state.1.step owner, texts.toList.map fun text => ⟨.output, text⟩) := by
    have added : state.1.step.log.fragments.extract state.1.log.fragments.size = texts := by
      simp [show state.1.step.log.fragments = _ from fragments]
    simp [Activity.step, running, asks, added]
  have passes := passes_of_step state.2 written moved
  rw [(textOf_fragments _).1, (textOf_fragments _).2] at passes
  exact ⟨_, _, output, rfl, passes⟩

/-- A `,` uses the next line, if there is one left. -/
theorem passes_read (running : state.1.halted = false) (asks : state.1.asks) (owner : Owner)
    (written : Array Piece) : ∃ written',
      (advance Input.feed state).1.output = state.1.output ∧
      (advance Input.feed state).2 = state.2.drop 1 ∧
      Passes host.silent (executing owner written state) ((state.2.take 1).map .answer) "" ""
        (executing owner written' (advance Input.feed state)) := by
  have moved : (Activity.executing state.1 owner).step host.silent =
      (.reading state.1 owner, [⟨.error, ""⟩]) := by
    simp [Activity.step, running, asks, Input.invitation]
  have answered : (Activity.reading state.1 owner).takeReply host.silent (state.2.headD []) =
      (.executing (advance Input.feed state).1 owner, []) := by
    rw [Activity.takeReply, Host.interactive_silent, judge_alone, advance_of_asks asks]
  have passes := (passes_of_step state.2 written moved).trans
    (passes_of_takeReply state.2 _ rfl rfl answered)
  have same_use (written : Array Piece) : (use? ⟨.reading state.1 owner, state.2, written⟩).toList =
      (state.2.take 1).map .answer := by
    rcases state.2 with - | ⟨line, rest⟩ <;> rfl
  rw [same_use] at passes
  have used : (advance Input.feed state).2 = state.2.drop 1 := by
    rw [advance_of_asks asks, List.drop_one]
  have output : (advance Input.feed state).1.output = state.1.output := by
    rw [advance_of_asks asks]
    cases state.1.settings.input.read (Input.answer (state.2.headD [])) <;> rfl
  refine ⟨written ++ [(⟨.error, ""⟩ : Piece)], output, used, ?_⟩
  rw [executing, executing, used, List.drop_one]
  simpa using passes

theorem passes_advance (running : state.1.halted = false) (owner : Owner)
    (written : Array Piece) : ∃ answers text written',
      state.2 = answers ++ (advance Input.feed state).2 ∧
      (advance Input.feed state).1.output = state.1.output ++ text ∧
      Passes host.silent (executing owner written state) (answers.map .answer) text ""
        (executing owner written' (advance Input.feed state)) := by
  cases asks : state.1.asks with
  | true =>
    obtain ⟨written', output, used, passes⟩ := passes_read host running asks owner written
    refine ⟨state.2.take 1, "", written', ?_, ?_, passes⟩
    · rw [used, List.take_append_drop]
    · rw [output, String.append_empty]
  | false =>
    obtain ⟨text, written', output, unused, passes⟩ := passes_step host running asks owner written
    exact ⟨[], text, written', unused.symm, output, passes⟩

/-- A program is where its run on the feed of the lines is, and both have used the same lines. -/
theorem passes_after
    (running : ∀ earlier < count, (after Input.feed earlier state).1.halted = false)
    (owner : Owner) (written : Array Piece) : ∃ answers text written',
      state.2 = answers ++ (after Input.feed count state).2 ∧
      (after Input.feed count state).1.output = state.1.output ++ text ∧
      Passes host.silent (executing owner written state) (answers.map .answer) text ""
        (executing owner written' (after Input.feed count state)) := by
  induction count with
  | zero => exact ⟨[], "", written, rfl, String.append_empty.symm, .refl⟩
  | succ count ih =>
    obtain ⟨answers, text, written, used, output, passes⟩ :=
      ih fun earlier lt => running earlier (Nat.lt_succ_of_lt lt)
    obtain ⟨answers', text', written', used', output', passes'⟩ :=
      passes_advance host (running count (Nat.lt_succ_self _)) owner written
    rw [← after_succ'] at used' output' passes'
    refine ⟨answers ++ answers', text ++ text', written', ?_, ?_, ?_⟩
    · rw [used, used', List.append_assoc]
    · rw [output', output, String.append_assoc]
    · rw [List.map_append]
      exact passes.trans passes'

theorem passes_finish (halted : state.1.halted) (owner : Owner) (written : Array Piece) :
    ∃ written', Passes host.silent (executing owner written state) [] "\n"
      (reportOf (owner.opening host.command) (state.1.result.mapError .execution))
      ⟨Activity.afterProgram (!(state.1.result.mapError RunError.execution).isOk) owner, state.2,
        written'⟩ := by
  have moved : (Activity.executing state.1 owner).step host.silent =
      Activity.finish host.silent owner (errorOf (state.1.result.mapError .execution)) := by
    simp only [Activity.step, halted, if_true]
    cases state.1.result <;> rfl
  obtain ⟨behind, output, errors⟩ :=
    textOf_finish host owner (state.1.result.mapError .execution)
  have passes := passes_of_step state.2 written (moved.trans (Prod.eta _).symm)
  rw [output, errors, behind] at passes
  exact ⟨_, passes⟩

variable {host}

/-- A program that its owner has executed comes to what its run on the feed of the lines does. -/
theorem leads_execute (concludes :
      Concludes host.allocator Input.feed (Program.ofString code) settings lines result rest)
    (owner : Owner) (written : Array Piece) :
    let move := Activity.execute host.silent owner settings code
    ∃ answers written', lines = answers ++ rest ∧
      Leads host.silent ⟨move.1, lines, written ++ move.2⟩ (answers.map .answer)
        ⟨Activity.afterProgram (!result.isOk) owner, rest, written'⟩ ∧
      Piece.textOf .output written' =
        Piece.textOf .output written ++ (writtenBy result ++ "\n") ∧
      Piece.textOf .error written' =
        Piece.textOf .error written ++ reportOf (owner.opening host.command) result := by
  intro move
  cases concludes with
  | @refused fault failed =>
    have refused : move =
        Activity.finish host.silent owner (errorOf (.error (.configuration fault))) := by
      simp only [move, Activity.execute, Host.silent, failed, errorOf]
    obtain ⟨behind, output, errors⟩ :=
      textOf_finish host owner (.error (.configuration fault))
    rw [← refused] at behind output errors
    refine ⟨[], written ++ move.2, rfl, behind ▸ .refl, ?_, ?_⟩
    · rw [Piece.textOf_append, output]
      rfl
    · rw [Piece.textOf_append, errors]
  | @ended machine final created ends =>
    have started : move = (.executing machine owner, []) := by
      simp only [move, Activity.execute, Host.silent, created]
    have empty : machine.output = "" := by
      obtain ⟨tape, -, rfl⟩ := create_eq_ok_iff.mp created
      rfl
    obtain ⟨count, rfl, running⟩ := ends.exists_running
    obtain ⟨answers, text, written₁, used, output, passes⟩ :=
      passes_after host running owner written
    obtain ⟨written₂, finishes⟩ := passes_finish host (ends_iff.mp ends).1 owner written₁
    have passes := passes.trans finishes
    rw [List.append_nil, String.empty_append] at passes
    rw [empty, String.empty_append] at output
    refine ⟨answers, written₂, used, ?_, ?_, passes.errors⟩
    · have start : written ++ move.2 = written := by simp [started]
      rw [start, started]
      exact passes.leads
    · rw [writtenBy_result, output]
      exact passes.output

/-- Where a batch ends, the program that it executes has ended before. -/
theorem exists_ends_of_leads (leads : Leads host.silent batch uses final)
    (ended : final.activity.status? = some status) (runs :
      batch.activity = .executing machine owner ∨
        batch.activity = .reading machine owner ∧ machine.asks) :
    ∃ last, Ends Input.feed (machine, batch.input) last := by
  induction leads generalizing machine with
  | refl =>
    obtain runs | ⟨runs, -⟩ := runs
    · rw [runs] at ended
      contradiction
    · rw [runs] at ended
      contradiction
  | @step batch final uses going _ ih =>
    obtain ⟨activity, lines, written⟩ := batch
    -- A program that waits for a line has asked for it, so the line is what its run reads next.
    obtain rfl | ⟨rfl, asks⟩ := runs
    · cases halted : machine.halted with
      | true => exact ⟨_, ends_of_halted halted⟩
      | false =>
        cases asks : machine.asks with
        | true =>
          refine ih ended (.inr ⟨?_, asks⟩)
          simp [Batch.step, Activity.isExecuting, Activity.step, halted, asks]
        | false =>
          obtain ⟨last, ends⟩ : ∃ last, Ends Input.feed (machine.step, lines) last := by
            refine ih ended (.inl ?_)
            simp [Batch.step, Activity.isExecuting, Activity.step, halted, asks]
          refine ⟨last, ends_advance_iff.mp ?_⟩
          rw [advance_of_not_asks asks]
          exact ends
    · have supplied : (advance Input.feed (machine, lines)) =
          (machine.supply (machine.settings.input.read (Input.answer (lines.headD []))),
            lines.tail) :=
        advance_of_asks asks
      obtain ⟨last, ends⟩ : ∃ last, Ends Input.feed (advance Input.feed (machine, lines)) last := by
        rw [supplied]
        refine ih ended (.inl ?_)
        simp only [Batch.step, Activity.isExecuting, Activity.takeReply, Host.interactive_silent,
          judge_alone]
        rfl
      exact ⟨last, ends_advance_iff.mp ends⟩

theorem exists_concludes_of_leads {move : Move}
    (starts : move = Activity.execute host.silent owner settings code)
    (leads : Leads host.silent ⟨move.1, lines, written ++ move.2⟩ uses final)
    (ended : final.activity.status? = some status) :
    ∃ result rest,
      Concludes host.allocator Input.feed (Program.ofString code) settings lines result rest := by
  cases created : Machine.create host.allocator (Program.ofString code) settings with
  | error fault => exact ⟨_, _, .refused created⟩
  | ok machine =>
    have executes : move.1 = .executing machine owner := by
      simp only [starts, Activity.execute, Host.silent, created]
    obtain ⟨last, ends⟩ := exists_ends_of_leads leads ended (.inl executes)
    exact ⟨_, _, .ended created ends⟩

/-- The batch in which the command runs a program, behind what was written before. -/
def commanded (host : Host) (written : Array Piece) (settings : Settings) (code : String)
    (lines : List Line) : Batch :=
  let move := Activity.execute host.silent .command settings code
  ⟨move.1, lines, written ++ move.2⟩

theorem exists_runFor_iff_concludes :
    (∃ fuel ended, runFor host.silent fuel (commanded host written settings code lines) =
        some ended) ↔
      ∃ result rest,
        Concludes host.allocator Input.feed (Program.ofString code) settings lines result rest := by
  constructor
  · rintro ⟨fuel, ⟨batch, status⟩, ran⟩
    obtain ⟨ended, uses, leads⟩ := leads_of_runFor ran
    exact exists_concludes_of_leads rfl leads ended
  · rintro ⟨result, rest, concludes⟩
    obtain ⟨answers, written, -, leads, -⟩ := leads_execute concludes .command written
    obtain ⟨fuel, ran⟩ := leads.exists_runFor rfl
    exact ⟨fuel, _, ran⟩

/-- What the command has come to when it ends. -/
theorem shows_of_concludes {fuel : Nat} (concludes :
      Concludes host.allocator Input.feed (Program.ofString code) settings lines result rest)
    (ran : runFor host.silent fuel (commanded host written settings code lines) =
      some (batch, status)) :
    ∃ answers, lines = answers ++ rest ∧ batch.input = rest ∧
      status = .code (if result.isOk then 0 else 1) ∧
      Piece.textOf .output batch.written =
        Piece.textOf .output written ++ (writtenBy result ++ "\n") ∧
      Piece.textOf .error batch.written =
        Piece.textOf .error written ++ reportOf s!"{host.command}: " result := by
  obtain ⟨answers, written', used, leads, output, errors⟩ :=
    leads_execute concludes .command written
  obtain ⟨ended, uses, leads'⟩ := leads_of_runFor ran
  obtain ⟨-, rfl⟩ := leads.unique rfl leads' ended
  cases ended
  refine ⟨answers, used, rfl, ?_, output, errors⟩
  cases result <;> rfl

end Batch

/-- What a program leaves unread are the last of its lines. -/
theorem Concludes.exists_answers {allocator : Allocator} {code : String} {settings : Settings}
    {lines rest : List Line} {result : Except RunError String}
    (concludes :
      Concludes allocator Input.feed (Program.ofString code) settings lines result rest) :
    ∃ answers, lines = answers ++ rest := by
  obtain ⟨answers, -, used, -⟩ :=
    @Batch.leads_execute _ _ _ _ _ { terminals := .none, allocator } concludes .command #[]
  exact ⟨answers, used⟩

/-- A provider that answers line after line, and then with the empty text, follows the lines. -/
theorem Input.follows_feed : (Feed.ofList (.ok "")).Follows (List.map Input.answer) Input.feed := by
  intro lines
  cases lines with
  | nil =>
    have empty : Line.text? [] = some "" := Line.text?_eq_some_iff.mpr (by decide)
    have answered : Input.answer [] = .ok "" := by
      rw [Input.answer, empty]
      rfl
    rw [Input.feed, answered]
    rfl
  | cons line rest => rfl

namespace Environment

/-- The code that a `run` command has to run: its words, or the text of its file. -/
inductive Supplies (environment : Environment) : Option String → List String → String → Prop
  | words {word : String} {words : List String} :
      Supplies environment none (word :: words) (String.join (word :: words))
  | file {path code : String} (read : environment.readText path = .ok code) :
      Supplies environment (some path) [] code

/-- All that is logged of the configuration file. -/
def warned (environment : Environment) : String :=
  String.join ((environment.order.arrange environment.ignored).map fun assignment =>
    environment.log "ignoring config entry" [("key", assignment.key), ("value", assignment.value)])

theorem textOf_warnings (environment : Environment) :
    Piece.textOf .output environment.warnings.toArray = "" ∧
      Piece.textOf .error environment.warnings.toArray = environment.warned := by
  rw [warnings, warned]
  induction environment.order.arrange environment.ignored with
  | nil => exact ⟨rfl, rfl⟩
  | cons assignment rest ih =>
    simp only [List.map_cons, Piece.textOf_cons, ih, String.join_cons]
    simp

theorem warned_of_ignored_eq_nil {environment : Environment} (useful : environment.ignored = []) :
    environment.warned = "" := by
  have none_left := environment.order.perm environment.ignored
  rw [useful, List.perm_nil] at none_left
  rw [warned, useful, none_left]
  rfl

theorem ignored_of_single {environment : Environment} {content : String}
    {assignment : Config.Assignment} (config : environment.configText? = some content)
    (useless : (Config.lastWins (Config.assignments content)).filter
      (fun assignment => (Config.assign? {} assignment).isNone) = [assignment]) :
    environment.ignored = [assignment] := by
  simp only [ignored, config, Config.ignored, useless, List.mergeSort_singleton]

end Environment

theorem startCommand_run {environment : Environment} {file : Option String} {words : List String}
    {code : String} (overrides : Overrides) (supplies : environment.Supplies file words code) :
    Activity.startCommand environment (.run false file words overrides) =
      let move := Activity.execute environment.host .command
        (overrides.apply environment.settings) code
      (move.1, environment.warnings ++ move.2) := by
  cases supplies with
  | words => rfl
  | file read =>
    simp only [Activity.startCommand, Activity.startRun, read]
    rfl

/-- The `run` command ends if and only if the library's run does, on a provider that answers the
lines of its standard input in turn.  It shows what that run has come to, behind the warnings of the
configuration file, and has used a line for each answer. -/
theorem process_iff_run (environment : Environment) {file : Option String} {words : List String}
    (overrides : Overrides) {code : String} (bytes : List UInt8)
    (quiet : environment.host.terminals = .none)
    (supplies : environment.Supplies file words code) :
    let allocator := environment.host.allocator
    let program := Program.ofString code
    let settings := overrides.apply environment.settings
    let provider : Feed (List Answer) := Feed.ofList (.ok "")
    let lines := Line.split bytes
    let move := Activity.startCommand environment (.run false file words overrides)
    let start : Batch := ⟨move.1, lines, move.2.toArray⟩
    Line.Divided bytes lines ∧ ∃ answers, List.Forall₂ Input.Answers lines answers ∧
    ((∃ fuel ended, Batch.runFor environment.host fuel start = some ended) ↔
      ∃ fuel result, run allocator fuel program settings provider answers = some result) ∧
    ∀ fuel fuel' result batch status,
      run allocator fuel program settings provider answers = some result →
      Batch.runFor environment.host fuel' start = some (batch, status) →
      Piece.textOf .output batch.written = writtenBy result ++ "\n" ∧
      Piece.textOf .error batch.written =
        environment.warned ++ reportOf s!"{environment.host.command}: " result ∧
      (environment.ignored = [] → (Piece.textOf .error batch.written = "" ↔ result.isOk)) ∧
      status = .code (if result.isOk then 0 else 1) ∧
      (∃ reads, batch.input = lines.drop reads ∧
        Concludes allocator provider program settings answers result (answers.drop reads)) ∧
      ∀ fault, Machine.create allocator program settings = .error fault →
        result = .error (.configuration fault) ∧ batch.input = lines ∧
        Piece.textOf .output batch.written = "\n" := by
  intro allocator program settings provider lines move start
  have silent := Host.silent_eq quiet
  have follows := Input.follows_feed
  refine ⟨Line.divided_split bytes, lines.map Input.answer, Input.forall₂_answers_iff.mpr rfl, ?_⟩
  have start_eq : start = Batch.commanded environment.host environment.warnings.toArray settings
      code lines := by
    simp only [start, move, startCommand_run overrides supplies, Batch.commanded, silent]
    simp [settings]
  obtain ⟨no_output, warned⟩ := environment.textOf_warnings
  rw [← silent, start_eq, Batch.exists_runFor_iff_concludes]
  simp only [provider, follows.run]
  refine ⟨?_, fun fuel fuel' result batch status ran ran' => ?_⟩
  · exact (exists_congr fun result => exists_run_iff.symm).trans exists_comm
  · obtain ⟨rest, concludes⟩ := exists_run_iff.mp ⟨fuel, ran⟩
    obtain ⟨answers, used, unused, exits, output, errors⟩ :=
      Batch.shows_of_concludes concludes ran'
    rw [no_output, String.empty_append] at output
    rw [warned] at errors
    refine ⟨output, errors, fun useful => ?_, exits, ⟨answers.length, ?_, ?_⟩,
      fun fault failed => ?_⟩
    · rw [errors, Environment.warned_of_ignored_eq_nil useful, String.empty_append,
        reportOf_eq_empty_iff]
    · rw [unused, used, List.drop_left]
    · rw [used, List.map_append, ← List.length_map (f := Input.answer), List.drop_left,
        ← List.map_append, ← used]
      exact concludes.map follows
    · obtain ⟨rfl, rfl⟩ := concludes.unique (.refused failed)
      exact ⟨rfl, unused, output⟩

/-- The code comes in two words, and the second of three lines has one character too many for a
`,`.  One assignment of the configuration file is of use and one is not. -/
theorem process_iff_run_of_long_line :
    let content := "[defaults]\nnumeric_output = yes\ncolour = red\n"
    let environment : Environment := {
      host := { command := "bf", terminals := .none }
      config := some (Line.ofString content)
      log := fun message fields => s!"2026-01-01T00:00:00.000000Z  WARN {message}" ++
        String.join (fields.map fun (name, value) => s!" {name}={value}") ++ "\n"
      fileContents := fun _ => .error .missing }
    let lines := Line.split [0x41, 13, 10, 0x62, 0x63, 10, 0x64]
    let move := Activity.startCommand environment (.run false none [",.", ","] {})
    let warning :=
      "2026-01-01T00:00:00.000000Z  WARN ignoring config entry key=colour value=red\n"
    let report := "bf: Runtime error at char index 2: " ++
        "expected a single character of input, got 2 characters\n" ++
      "            ,.,             \n" ++
      "Error at      ^      char index 2\n" ++
      "  message: expected a single character of input, got 2 characters\n" ++
      "   output: 65\n"
    environment.Supplies none [",.", ","] ",.," ∧
    ∃ fuel batch, Batch.runFor environment.host fuel ⟨move.1, lines, move.2.toArray⟩ =
        some (batch, .code 1) ∧
      Piece.textOf .output batch.written = "65\n" ∧
      Piece.textOf .error batch.written = warning ++ report := by
  intro content environment lines move warning report
  have supplies : environment.Supplies none [",.", ","] ",.," := .words
  obtain ⟨-, answers, answered, ends_iff, shows⟩ :=
    process_iff_run environment {} [0x41, 13, 10, 0x62, 0x63, 10, 0x64] rfl supplies
  obtain rfl := Input.forall₂_answers_iff.mp answered
  have warned : environment.warned = warning := by
    have ignored : environment.ignored = [⟨"colour", "red"⟩] :=
      @Environment.ignored_of_single environment content _ (Line.text?_ofString content)
        (by decide +kernel)
    rw [Environment.warned, ignored]
    decide +kernel
  have ran : (run .ample 9 (Program.ofString ",.,") environment.settings (Feed.ofList (.ok ""))
      (lines.map Input.answer)).map
        (fun result => (writtenBy result, reportOf "bf: " result, result.isOk)) =
      some ("65", report, false) := by
    decide +kernel
  obtain ⟨result, ran, shown⟩ := Option.map_eq_some_iff.mp ran
  simp only [Prod.mk.injEq] at shown
  obtain ⟨written, reported, failed⟩ := shown
  obtain ⟨fuel, ⟨batch, status⟩, ended⟩ := ends_iff.mpr ⟨9, result, ran⟩
  obtain ⟨output, errors, -, rfl, -⟩ := shows 9 fuel result batch status ran ended
  rw [failed] at ended
  rw [written] at output
  rw [warned, show reportOf s!"{environment.host.command}: " result = report from reported]
    at errors
  exact ⟨supplies, fuel, batch, ended, output, errors⟩

end Brainfuck
