import Brainfuck.Proofs.Prompt

/-! The course of a session.  From each state there is one turn at most, so every account of a
session tells of the same programs, and the turns that lead to a state are part of all of them. -/

namespace Brainfuck

open Text

/-- The text that an open paste has when it is submitted. -/
def Paste.closed (paste : Paste) : String :=
  if paste.blankRun = 0 then paste.code ++ "\n" else paste.code

/-- Two accounts of the same programs and of the same ending.  The lines that were used can differ. -/
structure Transcript.Agree (transcript transcript' : Transcript) : Prop where
  submissions : transcript'.submissions = transcript.submissions
  ending : transcript'.ending = transcript.ending

namespace Transcript.Agree

variable {first second third : Transcript}

theorem refl (transcript : Transcript) : Agree transcript transcript := ⟨rfl, rfl⟩

theorem symm (agree : Agree first second) : Agree second first :=
  ⟨agree.submissions.symm, agree.ending.symm⟩

theorem trans (agree : Agree first second) (agree' : Agree second third) : Agree first third :=
  ⟨agree'.submissions.trans agree.submissions, agree'.ending.trans agree.ending⟩

/-- What came before can have used other lines, but not run other programs. -/
theorem behind (agree : Agree first second) (uses uses' : List Use)
    (submissions : List Submission) :
    Agree (first.behind uses submissions) (second.behind uses' submissions) :=
  ⟨congrArg (submissions ++ ·) agree.submissions, agree.ending⟩

theorem behind_append (transcript : Transcript) (uses uses' : List Use)
    (submissions more : List Submission) :
    Agree (transcript.behind uses (submissions ++ more))
      ((transcript.behind uses' more).behind uses submissions) :=
  ⟨(List.append_assoc ..).symm, rfl⟩

theorem output (agree : Agree first second) : second.output = first.output :=
  congrArg Submission.outputs agree.submissions

theorem errors (agree : Agree first second) (command : String) :
    second.errors command = first.errors command := by
  rw [Transcript.errors, Transcript.errors, agree.submissions, agree.ending]

end Transcript.Agree

/-- Any number of turns, with the programs that were run in them. -/
inductive Turns (allocator : Allocator) :
    Session × List Line → List Submission → Session × List Line → Prop
  | refl {state : Session × List Line} : Turns allocator state [] state
  | turn {state next final : Session × List Line} {uses : List Use}
      {submissions more : List Submission} (turn : Turn allocator state uses submissions next)
      (turns : Turns allocator next more final) : Turns allocator state (submissions ++ more) final

variable {allocator : Allocator} {state next next' : Session × List Line} {session : Session}
  {lines : List Line} {uses uses' : List Use} {submissions submissions' : List Submission}
  {transcript transcript' : Transcript} {code : String} {settings : Settings} {paste : Paste}

theorem Turn.unique (turn : Turn allocator state uses submissions next)
    (turn' : Turn allocator state uses' submissions' next') :
    submissions' = submissions ∧ next' = next := by
  cases turn with
  | @idle session after line rest text action read handled idle =>
    cases turn' with
    | idle read' handled' _ =>
      cases read.symm.trans read'
      cases handled.symm.trans handled'
      exact ⟨rfl, rfl⟩
    | submission read' handled' _ =>
      cases read.symm.trans read'
      cases handled.symm.trans handled'
      obtain same | ⟨notice, same⟩ := idle <;> cases same
  | @submission session after line answers rest text code result read handled concludes =>
    generalize answers ++ rest = lines at turn' concludes
    cases turn' with
    | idle read' handled' idle =>
      cases read.symm.trans read'
      cases handled.symm.trans handled'
      obtain same | ⟨notice, same⟩ := idle <;> cases same
    | submission read' handled' concludes' =>
      cases read.symm.trans read'
      cases handled.symm.trans handled'
      obtain ⟨rfl, rfl⟩ := concludes.unique concludes'
      exact ⟨rfl, rfl⟩

/-- A session that goes on is not at its last turn. -/
theorem Turn.not_last (turn : Turn allocator state uses submissions next) :
    ¬ LastTurn allocator state transcript := by
  intro last
  cases last with
  | endOfInput => cases turn
  | endOfPaste => cases turn
  | quit read outside word =>
    have quits := Session.handle_eq_quit_iff.mpr ⟨outside, word⟩
    cases turn with
    | idle read' handled idle =>
      cases read.symm.trans read'
      rw [handled] at quits
      obtain rfl | ⟨notice, rfl⟩ := idle <;> cases quits
    | submission read' handled _ =>
      cases read.symm.trans read'
      rw [handled] at quits
      cases quits
  | notText unread =>
    cases turn with
    | idle read => cases unread.symm.trans read
    | submission read => cases unread.symm.trans read

theorem LastTurn.unique (last : LastTurn allocator state transcript)
    (last' : LastTurn allocator state transcript') :
    transcript.Agree transcript' := by
  cases last with
  | endOfInput outside =>
    cases last' with
    | endOfInput => exact .refl _
    | endOfPaste closed => simp [Session.close, outside] at closed
  | endOfPaste closed concludes =>
    cases last' with
    | endOfInput outside => simp [Session.close, outside] at closed
    | endOfPaste closed' concludes' =>
      cases closed.symm.trans closed'
      obtain ⟨rfl, -⟩ := concludes.unique concludes'
      exact .refl _
  | quit read =>
    cases last' with
    | quit => exact .refl _
    | notText unread => cases unread.symm.trans read
  | notText unread =>
    cases last' with
    | quit read => cases unread.symm.trans read
    | notText => exact .refl _

/-- All accounts of a session agree. -/
theorem Serves.unique (serves : Serves allocator state transcript)
    (serves' : Serves allocator state transcript') :
    transcript.Agree transcript' := by
  induction serves generalizing transcript' with
  | close last =>
    cases serves' with
    | close last' => exact last.unique last'
    | turn turn => exact absurd last turn.not_last
  | turn turn _ ih =>
    cases serves' with
    | close last => exact absurd last turn.not_last
    | turn turn' serves' =>
      obtain ⟨rfl, rfl⟩ := turn.unique turn'
      exact (ih serves').behind _ _ _

/-- An account from later on, behind the turns that lead there, is an account of the whole. -/
theorem Turns.exists_serves (turns : Turns allocator state submissions next)
    (serves : Serves allocator next transcript) :
    ∃ whole, Serves allocator state whole ∧ (transcript.behind [] submissions).Agree whole := by
  induction turns with
  | refl => exact ⟨transcript, serves, ⟨rfl, rfl⟩⟩
  | @turn state next final uses submissions more turn _ ih =>
    obtain ⟨later, serves, agree⟩ := ih serves
    exact ⟨_, .turn turn serves, (Transcript.Agree.behind_append ..).trans (agree.behind [] _ _)⟩

/-- Turns are part of every account of a session. -/
theorem Turns.serves (turns : Turns allocator state submissions next)
    (serves : Serves allocator state transcript) :
    ∃ later, Serves allocator next later ∧ (later.behind [] submissions).Agree transcript := by
  induction turns generalizing transcript with
  | refl => exact ⟨transcript, serves, ⟨rfl, rfl⟩⟩
  | @turn state next final uses submissions more turn _ ih =>
    cases serves with
    | close last => exact absurd last turn.not_last
    | turn turn' serves =>
      obtain ⟨rfl, rfl⟩ := turn.unique turn'
      obtain ⟨later, serves, agree⟩ := ih serves
      exact ⟨later, serves, (Transcript.Agree.behind_append ..).trans (agree.behind [] _ _)⟩

theorem Turns.submits (turns : Turns allocator state submissions next)
    (submits : Submits allocator next code settings lines) :
    Submits allocator state code settings lines := by
  induction turns with
  | refl => exact submits
  | turn turn _ ih => exact .later turn (ih submits)

/-- A paste that the end of input leaves open is run once, behind all the other programs. -/
theorem Turns.exists_result (turns : Turns allocator state submissions (session, []))
    (pasting : session.paste = some paste) (serves : Serves allocator state transcript) : ∃ result,
      Concludes allocator Input.feed (Program.ofString paste.closed) session.settings [] result [] ∧
        transcript.submissions = submissions ++ [⟨paste.closed, session.settings, result⟩] ∧
        transcript.ending = .endOfInput := by
  obtain ⟨later, serves, agree⟩ := turns.serves serves
  cases serves with
  | turn turn => cases turn
  | close last =>
    cases last with
    | endOfInput outside => cases outside.symm.trans pasting
    | @endOfPaste session after code result closed concludes =>
      cases closed.symm.trans (Session.close_of_paste pasting)
      exact ⟨result, concludes, agree.submissions, agree.ending⟩

namespace Batch

variable {host : Host} {state : Session × List Line} {written : Array Piece} {batch : Batch}
  {status : ExitStatus} {fuel : Nat}

/-- A process that ends at the prompt has been a session, and shows what its account says. -/
theorem exists_transcript (nonempty : ∀ line ∈ state.2, line ≠ [])
    (ran : runFor host.silent fuel (prompting #[] state) = some (batch, status)) :
    ∃ transcript, Serves host.allocator state transcript ∧
      Piece.textOf .output batch.written = transcript.output ∧
      Piece.textOf .error batch.written = transcript.errors host.command ∧
      status = .code transcript.ending.code := by
  obtain ⟨ended, uses, leads⟩ := leads_of_runFor ran
  obtain ⟨transcript, serves⟩ : ∃ transcript, Serves host.allocator state transcript :=
    exists_serves fun _ _ _ submits => concludes_of_submits submits nonempty leads ended
  obtain ⟨written, leads', output, errors⟩ := passes_serves serves nonempty #[]
  obtain ⟨-, rfl⟩ := leads'.unique rfl leads ended
  cases ended
  rw [prompting, Piece.textOf_nil, String.empty_append] at output errors
  exact ⟨transcript, serves, output, errors, rfl⟩

theorem exists_runFor_of_serves {transcript : Transcript}
    (serves : Serves host.allocator state transcript)
    (nonempty : ∀ line ∈ state.2, line ≠ []) :
    ∃ fuel ended, runFor host.silent fuel (prompting #[] state) = some ended := by
  obtain ⟨written, passes⟩ := passes_serves serves nonempty #[]
  obtain ⟨fuel, ran⟩ := passes.leads.exists_runFor rfl
  exact ⟨fuel, _, ran⟩

end Batch

end Brainfuck
