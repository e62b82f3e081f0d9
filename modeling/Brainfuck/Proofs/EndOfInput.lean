import Brainfuck.Proofs.Lines
import Brainfuck.Proofs.Turns

/-! The end of input, and blank lines in its place.  A program that reads at the end of its input
fails, so it takes one blank line at most for an answer.  The prompt passes over blank lines, except
that two of them end a paste, which the end of input does as well.  So a session on a stream is the
session on the same stream with three line feeds more or any greater number. -/

namespace Brainfuck

open Text Machine

section Run

variable {allocator : Allocator} {left : Nat} {state state' : Machine × List Line}
  {machine final : Machine}
  {lines lines' rest rest' : List Line} {program : Program} {settings : Settings}
  {result : Except RunError String}

/-- One machine with lines to read and with the same lines padded.  A machine that has read past the
end of the former has halted. -/
inductive Beside (left : Nat) : Machine × List Line → Machine × List Line → Prop
  | level {machine : Machine} {lines lines' : List Line} (padded : Line.Padded left lines lines') :
      Beside left (machine, lines) (machine, lines')
  | past {machine : Machine} {more : Nat} (halted : machine.halted) :
      Beside left (machine, []) (machine, List.replicate more Line.blank)

theorem read_end (format : CellFormat) :
    format.read (Input.answer []) = .error (.inputLength 0) := by
  cases format <;> rfl

theorem Beside.machine_eq (beside : Beside left state state') : state'.1 = state.1 := by
  cases beside <;> rfl

theorem Beside.padded (beside : Beside left state state') : ∃ more,
    Line.Padded more state.2 state'.2 ∧ (more = left ∨ state.2 = []) := by
  cases beside with
  | level padded => exact ⟨left, padded, .inl rfl⟩
  | @past machine more halted => exact ⟨more, .blanks more, .inr rfl⟩

theorem Beside.advance (beside : Beside left state state') :
    Beside left (advance Input.feed state) (advance Input.feed state') := by
  cases beside with
  | past halted =>
    rw [advance_of_halted halted, advance_of_halted halted]
    exact .past halted
  | @level machine lines lines' padded =>
    cases asks : machine.asks with
    | false =>
      rw [advance_of_not_asks asks, advance_of_not_asks asks]
      exact .level padded
    | true =>
      rw [advance_of_asks asks, advance_of_asks asks]
      cases padded with
      | @line line line' rest rest' alike padded =>
        rw [List.headD_cons, List.headD_cons, alike.answer_eq]
        exact .level padded
      | blanks =>
        cases left with
        | zero => exact .level (.blanks 0)
        | succ left =>
          rw [List.replicate_succ, List.headD_cons, List.headD_nil, Line.answer_blank, read_end]
          exact .past (halted_of_fault rfl)

theorem Beside.after (beside : Beside left state state') (count : Nat) :
    Beside left (after Input.feed count state) (after Input.feed count state') := by
  induction count with
  | zero => exact beside
  | succ count ih =>
    rw [after_succ', after_succ']
    exact ih.advance

theorem Concludes.padded
    (concludes : Concludes allocator Input.feed program settings lines result rest)
    (padded : Line.Padded left lines lines') : ∃ more rest',
      Concludes allocator Input.feed program settings lines' result rest' ∧
        Line.Padded more rest rest' ∧ (more = left ∨ rest = []) := by
  cases concludes with
  | refused failed => exact ⟨left, lines', .refused failed, padded, .inl rfl⟩
  | @ended machine final created ends =>
    obtain ⟨halted, count, rfl⟩ := ends_iff.mp ends
    have start : Beside left (machine, lines) (machine, lines') := .level padded
    have beside := start.after count
    obtain ⟨more, padded', kept⟩ := beside.padded
    have ends' := ends_iff.mpr ⟨beside.machine_eq ▸ halted, count, rfl⟩
    have concludes' := Concludes.ended created ends'
    rw [beside.machine_eq] at concludes'
    exact ⟨more, _, concludes', padded', kept⟩

theorem Concludes.of_padded
    (concludes : Concludes allocator Input.feed program settings lines' result rest')
    (padded : Line.Padded left lines lines') :
    ∃ rest, Concludes allocator Input.feed program settings lines result rest := by
  cases concludes with
  | refused failed => exact ⟨lines, .refused failed⟩
  | @ended machine final created ends =>
    obtain ⟨halted, count, rfl⟩ := ends_iff.mp ends
    have start : Beside left (machine, lines) (machine, lines') := .level padded
    have beside := start.after count
    have ends' := ends_iff.mpr ⟨beside.machine_eq ▸ halted, count, rfl⟩
    rw [beside.machine_eq]
    exact ⟨_, .ended created ends'⟩

end Run

namespace Session

variable {session after : Session} {text text' code : String}

theorem handle_congr (same : chomp text' = chomp text) :
    session.handle text' = session.handle text := by
  simp only [handle, same]

theorem handle_blank_of_outside (outside : session.paste = none) :
    session.handle "\n" = (.nothing, session) := by
  have empty : chomp "\n" = "" := by decide
  have none_named : Directive.ofString? (trim "") = none := by decide
  have blank : (trim "").isEmpty = true := by decide
  simp only [handle, outside, interpret, empty, none_named, blank, if_true]

/-- A line that submits a program leaves no paste. -/
theorem paste_of_handle_eq_run (handled : session.handle text = (.run code, after)) :
    after.paste = none := by
  cases pasting : session.paste with
  | some paste =>
    rw [handle_of_paste pasting, gather] at handled
    split at handled <;> split at handled <;> cases handled <;> rfl
  | none =>
    simp only [handle, pasting, interpret] at handled
    cases named : Directive.ofString? (trim (chomp text)) with
    | some directive =>
      rw [named] at handled
      cases directive <;> simp [obey] at handled
    | none =>
      rw [named] at handled
      simp only at handled
      split at handled
      · simp at handled
      · split at handled
        · simp at handled
        · cases handled
          exact pasting

/-- The first or the second blank line submits what the end of input would. -/
theorem handle_blank_of_close (closed : session.close = (.run code, after)) :
    session.handle "\n" = (.run code, after) ∨ ∃ waiting,
      session.handle "\n" = (.nothing, waiting) ∧ waiting.handle "\n" = (.run code, after) := by
  have blank (session : Session) : session.handle "\n" = session.handle "" :=
    handle_congr (by decide)
  rw [close] at closed
  cases pasting : session.paste with
  | none =>
    simp [pasting] at closed
  | some paste =>
    simp only [pasting] at closed
    rw [blank]
    split at closed
    next waiting handled => exact .inr ⟨waiting, handled, (blank waiting).trans closed⟩
    · exact .inl closed

/-- Lines, and the same lines padded with blank lines enough to end a paste, unless there is no
line and no paste left. -/
def Padded (session : Session) (lines lines' : List Line) : Prop :=
  ∃ left, Line.Padded left lines lines' ∧ (2 ≤ left ∨ lines = [] ∧ session.paste = none)

end Session

section Course

variable {allocator : Allocator} {host : Host} {state : Session × List Line}
  {session after : Session} {lines lines' rest : List Line} {uses : List Use}
  {submissions : List Submission} {transcript transcript' : Transcript} {code : String}
  {settings : Settings}

theorem turn_blank (outside : session.paste = none) (rest : List Line) :
    Turn allocator (session, Line.blank :: rest) [.prompt Line.blank] [] (session, rest) :=
  .idle Line.text?_blank (Session.handle_blank_of_outside outside) (.inl rfl)

/-- Outside a paste blank lines are passed over to the end of input. -/
theorem exists_serves_blanks (outside : session.paste = none) (count : Nat) :
    ∃ transcript, Serves allocator (session, List.replicate count Line.blank) transcript ∧
      transcript.Agree ⟨[], [], .endOfInput, []⟩ := by
  induction count with
  | zero => exact ⟨_, .close (.endOfInput outside), .refl _⟩
  | succ count ih =>
    obtain ⟨transcript, serves, agree⟩ := ih
    exact ⟨_, .turn (turn_blank outside _) serves, agree.behind _ [] []⟩

/-- Of two blank lines or more, one ends the paste that the end of input would end. -/
theorem exists_turns_of_close (closed : session.close = (.run code, after)) (count : Nat) :
    ∃ waiting more, Turns allocator (session, List.replicate (count + 2) Line.blank) []
        (waiting, Line.blank :: List.replicate more Line.blank) ∧
      waiting.handle "\n" = (.run code, after) := by
  obtain first | ⟨waiting, first, second⟩ := Session.handle_blank_of_close closed
  · exact ⟨session, count + 1, .refl, first⟩
  · exact ⟨waiting, count, .turn (.idle Line.text?_blank first (.inl rfl)) .refl, second⟩

/-- A paste that is open at the end of input is followed by blank lines enough. -/
theorem Session.Padded.exists_eq_replicate (padded : session.Padded [] lines')
    (closed : session.close = (.run code, after)) :
    ∃ count, lines' = List.replicate (count + 2) Line.blank := by
  obtain ⟨left, padded, enough⟩ := padded
  have pasting : session.paste ≠ none := by
    intro outside
    simp [Session.close, outside] at closed
  have enough : 2 ≤ left := by simpa [pasting] using enough
  obtain ⟨count, rfl⟩ := Nat.exists_eq_add_of_le' enough
  cases padded with
  | blanks => exact ⟨count, rfl⟩

theorem Session.Padded.exists_eq_cons {line : Line} {text : String}
    (padded : session.Padded (line :: rest) lines') (read : line.text? = some text) :
    ∃ line' rest' text' left, lines' = line' :: rest' ∧ line'.text? = some text' ∧
      chomp text' = chomp text ∧ 2 ≤ left ∧ Line.Padded left rest rest' := by
  obtain ⟨left, padded, enough⟩ := padded
  cases padded with
  | @line _ line' _ rest' alike padded =>
    obtain ⟨text', read', same⟩ := alike.text? read
    have enough : 2 ≤ left := by simpa using enough
    exact ⟨line', rest', text', left, rfl, read', same, enough, padded⟩

theorem Turn.padded (turn : Turn allocator state uses submissions (after, rest))
    (padded : state.1.Padded state.2 lines') : ∃ uses' rest',
      Turn allocator (state.1, lines') uses' submissions (after, rest') ∧
        after.Padded rest rest' := by
  cases turn with
  | idle read handled idle =>
    obtain ⟨line', rest', text', left, rfl, read', same, enough, padded⟩ :=
      padded.exists_eq_cons read
    have handled' := (Session.handle_congr same).trans handled
    exact ⟨_, rest', .idle read' handled' idle, left, padded, .inl enough⟩
  | submission read handled concludes =>
    obtain ⟨line', _, text', left, rfl, read', same, enough, padded⟩ :=
      padded.exists_eq_cons read
    have handled' := (Session.handle_congr same).trans handled
    obtain ⟨more, rest', concludes', padded', kept⟩ := concludes.padded padded
    obtain ⟨answers', rfl⟩ := concludes'.exists_answers
    refine ⟨_, rest', .submission read' handled' concludes', more, padded', ?_⟩
    -- The program may have taken a blank line, but then none of the other lines is left.
    obtain rfl | none_left := kept
    · exact .inl enough
    · exact .inr ⟨none_left, Session.paste_of_handle_eq_run handled⟩

/-- What ends a session at the end of input ends it behind blank lines. -/
theorem LastTurn.padded (last : LastTurn allocator state transcript)
    (padded : state.1.Padded state.2 lines') :
    ∃ transcript', Serves allocator (state.1, lines') transcript' ∧
      transcript'.Agree transcript := by
  cases last with
  | endOfInput outside =>
    obtain ⟨left, padded, -⟩ := padded
    cases padded with
    | blanks => exact exists_serves_blanks outside left
  | @endOfPaste session after code result closed concludes =>
    obtain ⟨count, rfl⟩ := padded.exists_eq_replicate closed
    obtain ⟨waiting, more, turns, handled⟩ := exists_turns_of_close closed count
    obtain ⟨left, rest', concludes', padded', -⟩ := concludes.padded (.blanks more)
    obtain ⟨answers', used⟩ := concludes'.exists_answers
    rw [used] at turns concludes'
    have submission := Turn.submission Line.text?_blank handled concludes'
    cases padded' with
    | blanks =>
      obtain ⟨later, serves, idle⟩ :=
        exists_serves_blanks (Session.paste_of_handle_eq_run handled) left
      obtain ⟨whole, serves, agree⟩ := turns.exists_serves (.turn submission serves)
      have run := idle.behind [] [] [⟨code, after.settings, result⟩]
      exact ⟨whole, serves, agree.symm.trans ⟨run.submissions, run.ending⟩⟩
  | quit read outside word =>
    obtain ⟨line', rest', text', left, rfl, read', same, -⟩ := padded.exists_eq_cons read
    exact ⟨_, .close (.quit read' outside (same ▸ word)), rfl, rfl⟩
  | notText unread =>
    obtain ⟨left, padded, -⟩ := padded
    cases padded with
    | line alike padded =>
      exact ⟨_, .close (.notText (alike.text?_eq_none unread)), rfl, rfl⟩

theorem Serves.padded (serves : Serves allocator state transcript)
    (padded : state.1.Padded state.2 lines') :
    ∃ transcript', Serves allocator (state.1, lines') transcript' ∧
      transcript'.Agree transcript := by
  induction serves generalizing lines' with
  | close last => exact last.padded padded
  | turn turn _ ih =>
    obtain ⟨uses', rest', turn', padded'⟩ := turn.padded padded
    obtain ⟨transcript', serves, agree⟩ := ih padded'
    exact ⟨_, .turn turn' serves, agree.behind _ _ _⟩

theorem Submits.padded (submits : Submits allocator state code settings lines)
    (padded : state.1.Padded state.2 lines') : ∃ left rest,
      Submits allocator (state.1, lines') code settings rest ∧ Line.Padded left lines rest := by
  induction submits generalizing lines' with
  | line read handled =>
    obtain ⟨line', rest', text', left, rfl, read', same, -, padded⟩ :=
      padded.exists_eq_cons read
    have handled' := (Session.handle_congr same).trans handled
    exact ⟨left, rest', .line read' handled', padded⟩
  | @endOfPaste session after code closed =>
    obtain ⟨count, rfl⟩ := padded.exists_eq_replicate closed
    obtain ⟨waiting, more, turns, handled⟩ := exists_turns_of_close closed count
    exact ⟨more, _, turns.submits (.line Line.text?_blank handled), .blanks more⟩
  | later turn _ ih =>
    obtain ⟨uses', rest', turn', padded'⟩ := turn.padded padded
    obtain ⟨left, rest, submits, padded⟩ := ih padded'
    exact ⟨left, rest, .later turn' submits, padded⟩

/-- A session on padded lines ends only where the session on the lines does. -/
theorem Serves.of_padded (serves' : Serves host.allocator (session, lines') transcript')
    (nonempty : ∀ line ∈ lines', line ≠ []) (padded : session.Padded lines lines') :
    ∃ transcript, Serves host.allocator (session, lines) transcript ∧
      transcript'.Agree transcript := by
  obtain ⟨written, passes⟩ := Batch.passes_serves serves' nonempty #[]
  have concludes : ∀ code settings rest,
      Submits host.allocator (session, lines) code settings rest → ∃ result left,
        Concludes host.allocator Input.feed (Program.ofString code) settings rest result left := by
    intro code settings rest submits
    obtain ⟨left, rest', submits', padded'⟩ := submits.padded padded
    obtain ⟨result, _, concludes⟩ :=
      Batch.concludes_of_submits submits' nonempty passes.leads rfl
    exact ⟨result, concludes.of_padded padded'⟩
  obtain ⟨transcript, serves⟩ := exists_serves concludes
  obtain ⟨other, serves_other, agree⟩ := serves.padded padded
  exact ⟨transcript, serves, (serves'.unique serves_other).trans agree⟩

/-- A paste that is open at the end of the lines is submitted by blank lines in its place. -/
theorem Turns.exists_result_of_padded {paste : Paste}
    (turns : Turns host.allocator (session, lines) submissions (after, []))
    (pasting : after.paste = some paste)
    (serves' : Serves host.allocator (session, lines') transcript')
    (nonempty : ∀ line ∈ lines', line ≠ []) (padded : session.Padded lines lines') : ∃ result,
      Concludes host.allocator Input.feed (Program.ofString paste.closed) after.settings [] result
        [] ∧
        transcript'.submissions = submissions ++ [⟨paste.closed, after.settings, result⟩] ∧
        transcript'.ending = .endOfInput := by
  obtain ⟨transcript, serves, agree⟩ := serves'.of_padded nonempty padded
  rw [← agree.submissions, ← agree.ending]
  exact turns.exists_result pasting serves

/-- Two blank lines submit what is pasted. -/
theorem exists_submits_blanks {paste : Paste} (pasting : session.paste = some paste) :
    ∃ rest, Submits allocator (session, [Line.blank, Line.blank]) paste.closed session.settings
      rest := by
  obtain ⟨waiting, more, turns, handled⟩ :=
    exists_turns_of_close (Session.close_of_paste pasting) 0
  have submits : Submits allocator (waiting, Line.blank :: List.replicate more Line.blank) _ _ _ :=
    .line Line.text?_blank handled
  exact ⟨_, turns.submits submits⟩

end Course

namespace Batch

variable {host : Host} {session : Session} {lines lines' : List Line} {batch batch' : Batch}
  {status status' : ExitStatus} {fuel fuel' : Nat}

theorem ends_iff_of_padded (padded : session.Padded lines lines')
    (nonempty : ∀ line ∈ lines, line ≠ []) (nonempty' : ∀ line ∈ lines', line ≠ []) :
    (∃ fuel ended, runFor host.silent fuel (prompting #[] (session, lines)) = some ended) ↔
      ∃ fuel ended, runFor host.silent fuel (prompting #[] (session, lines')) = some ended := by
  constructor
  · rintro ⟨fuel, ⟨batch, status⟩, ran⟩
    obtain ⟨transcript, serves, -⟩ := exists_transcript nonempty ran
    obtain ⟨transcript', serves', -⟩ := serves.padded padded
    exact exists_runFor_of_serves serves' nonempty'
  · rintro ⟨fuel, ⟨batch, status⟩, ran⟩
    obtain ⟨transcript', serves', -⟩ := exists_transcript nonempty' ran
    obtain ⟨transcript, serves, -⟩ := serves'.of_padded nonempty' padded
    exact exists_runFor_of_serves serves nonempty

theorem shows_of_padded (padded : session.Padded lines lines')
    (nonempty : ∀ line ∈ lines, line ≠ []) (nonempty' : ∀ line ∈ lines', line ≠ [])
    (ran : runFor host.silent fuel (prompting #[] (session, lines)) = some (batch, status))
    (ran' : runFor host.silent fuel' (prompting #[] (session, lines')) = some (batch', status')) :
    Piece.textOf .output batch'.written = Piece.textOf .output batch.written ∧
      Piece.textOf .error batch'.written = Piece.textOf .error batch.written ∧
      status' = status := by
  obtain ⟨transcript, serves, output, errors, rfl⟩ := exists_transcript nonempty ran
  obtain ⟨transcript', serves', output', errors', rfl⟩ := exists_transcript nonempty' ran'
  obtain ⟨other, serves_other, agree⟩ := serves.padded padded
  have same := (serves'.unique serves_other).trans agree
  rw [output, output', errors, errors', same.output, same.errors, same.ending]
  exact ⟨rfl, rfl, rfl⟩

end Batch

/-- Three line feeds or more behind its input do not change what the bare prompt shows, nor whether
it ends.  In particular a paste that the end of input leaves open is run once, behind all the other
programs, and its text is what two blank lines submit. -/
theorem prompt_of_lineFeeds (host : Host) (settings : Settings) (bytes : List UInt8) {count : Nat}
    (enough : 3 ≤ count) :
    let session : Session := { settings }
    let start (stream : List UInt8) := Batch.prompting #[] (session, Line.split stream)
    let longer := bytes ++ List.replicate count 10
    ((∃ fuel ended, Batch.runFor host.silent fuel (start bytes) = some ended) ↔
      ∃ fuel ended, Batch.runFor host.silent fuel (start longer) = some ended) ∧
    (∀ fuel batch status fuel' batch' status',
      Batch.runFor host.silent fuel (start bytes) = some (batch, status) →
      Batch.runFor host.silent fuel' (start longer) = some (batch', status') →
      Piece.textOf .output batch'.written = Piece.textOf .output batch.written ∧
      Piece.textOf .error batch'.written = Piece.textOf .error batch.written ∧
      status' = status) ∧
    ∀ submissions opened paste,
      Turns host.allocator (session, Line.split bytes) submissions (opened, []) →
      opened.paste = some paste →
      (∃ rest, Submits host.allocator (opened, [Line.blank, Line.blank]) paste.closed
        opened.settings rest) ∧
      ∀ stream ∈ [bytes, longer], ∀ transcript,
        Serves host.allocator (session, Line.split stream) transcript →
        ∃ result,
          Concludes host.allocator Input.feed (Program.ofString paste.closed) opened.settings []
            result [] ∧
          transcript.submissions = submissions ++ [⟨paste.closed, opened.settings, result⟩] ∧
          transcript.ending = .endOfInput := by
  intro session start longer
  have nonempty (stream : List UInt8) : ∀ line ∈ Line.split stream, line ≠ [] :=
    fun line => nonempty_of_mem_split
  have padded : session.Padded (Line.split bytes) (Line.split longer) := by
    obtain ⟨left, close, padded⟩ := Line.exists_padded_split bytes count
    have two : 2 ≤ left := by omega
    exact ⟨left, padded, .inl two⟩
  refine ⟨Batch.ends_iff_of_padded padded (nonempty bytes) (nonempty longer), ?_, ?_⟩
  · intro fuel batch status fuel' batch' status' ran ran'
    exact Batch.shows_of_padded padded (nonempty bytes) (nonempty longer) ran ran'
  · intro submissions opened paste turns pasting
    refine ⟨exists_submits_blanks pasting, fun stream among transcript serves => ?_⟩
    obtain rfl | rfl : stream = bytes ∨ stream = longer := by simpa using among
    · exact turns.exists_result pasting serves
    · exact turns.exists_result_of_padded pasting serves (nonempty longer) padded

/-- The paste lacks the line feed of its last line, and its program reads at the end of input. -/
theorem prompt_of_lineFeeds_of_open_paste :
    let host : Host := { terminals := .none }
    let bytes := ":paste\n+.,".toUTF8.toList
    let lines := Line.split (bytes ++ List.replicate 3 10)
    let diagnostic := Diagnostic.of (Program.ofString "+.,\n\n") 2 "\x01" (.inputLength 0)
    (∃ fuel batch, Batch.runFor host.silent fuel
        (Batch.prompting #[] ({ settings := {} }, lines)) = some (batch, .code 0) ∧
      Piece.textOf .output batch.written = "\x01\n" ∧
      Piece.textOf .error batch.written =
        reportOf "" (.error (.execution diagnostic))) ∧
    ∀ transcript, Serves host.allocator ({ settings := {} }, lines) transcript →
      ∃ result, transcript.submissions = [⟨"+.,\n\n", {}, result⟩] := by
  intro host bytes lines diagnostic
  obtain ⟨ends, same, pasted⟩ := prompt_of_lineFeeds host {} bytes (Nat.le_refl 3)
  have ran : (Batch.runFor host.silent 20 (Batch.prompting #[] ({ settings := {} },
      Line.split bytes))).map (fun ended => (Piece.textOf .output ended.1.written,
        Piece.textOf .error ended.1.written, ended.2)) =
      some ("\x01\n", reportOf "" (.error (.execution diagnostic)), .code 0) := by
    decide +kernel
  refine ⟨?_, ?_⟩
  · obtain ⟨⟨batch, status⟩, ran, shown⟩ := Option.map_eq_some_iff.mp ran
    simp only [Prod.mk.injEq] at shown
    obtain ⟨output, errors, rfl⟩ := shown
    obtain ⟨fuel, ⟨batch', status'⟩, ran'⟩ := ends.mp ⟨20, _, ran⟩
    obtain ⟨output', errors', rfl⟩ := same 20 _ _ fuel _ _ ran ran'
    exact ⟨fuel, batch', ran', output'.trans output, errors'.trans errors⟩
  · have turns : Turns host.allocator ({ settings := {} }, Line.split bytes) []
        ({ settings := {}, paste := some ⟨"+.,\n", 0⟩ }, []) := by
      have split : Line.split bytes = [Line.ofString ":paste\n", Line.ofString "+.,"] := by
        decide +kernel
      have opening : Session.handle { settings := {} } ":paste\n" =
          (.message Session.pasteNotice, { settings := {}, paste := some {} }) := by decide +kernel
      have gathering : Session.handle { settings := {}, paste := some {} } "+.," =
          (.nothing, { settings := {}, paste := some ⟨"+.,\n", 0⟩ }) := by decide +kernel
      rw [split]
      exact .turn (.idle (Line.text?_ofString _) opening (.inr ⟨_, rfl⟩))
        (.turn (.idle (Line.text?_ofString _) gathering (.inl rfl)) .refl)
    obtain ⟨-, submitted⟩ := pasted _ _ _ turns rfl
    intro transcript serves
    obtain ⟨result, -, run, -⟩ := submitted _ (by simp) transcript serves
    exact ⟨result, run⟩

end Brainfuck
