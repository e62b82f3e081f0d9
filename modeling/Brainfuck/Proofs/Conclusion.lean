import Brainfuck.Activity
import Brainfuck.Proofs.Failure

/-! What a program comes to: a result and what is left of its feed.  `reportOf` is what the command
says of a result on the error stream, where this is no terminal. -/

namespace Brainfuck

open Text Machine

/-- No stream is a terminal. -/
def Terminals.none : Terminals := ⟨false, false⟩

/-- The host with no stream a terminal. -/
def Host.silent (host : Host) : Host := { host with terminals := .none }

@[simp] theorem Host.allocator_silent (host : Host) : host.silent.allocator = host.allocator := rfl

@[simp] theorem Host.interactive_silent (host : Host) :
    host.silent.terminals.interactive = false := rfl

theorem Host.silent_eq {host : Host} (quiet : host.terminals = .none) : host.silent = host := by
  obtain ⟨command, terminals, allocator⟩ := host
  cases quiet
  rfl

variable {allocator : Allocator} {σ : Type} {feed : Feed σ} {program : Program}
  {settings : Settings} {source rest rest' : σ} {result result' : Except RunError String}

/-- A program on a fresh tape comes to a result, and leaves the rest of its feed unread. -/
inductive Concludes (allocator : Allocator) (feed : Feed σ) (program : Program)
    (settings : Settings) (source : σ) : Except RunError String → σ → Prop
  | refused {fault : Fault} (failed : create allocator program settings = .error fault) :
      Concludes allocator feed program settings source (.error (.configuration fault)) source
  | ended {machine : Machine} {final : Machine × σ}
      (created : create allocator program settings = .ok machine)
      (ends : Ends feed (machine, source) final) :
      Concludes allocator feed program settings source (final.1.result.mapError .execution) final.2

theorem exists_run_iff :
    (∃ fuel, run allocator fuel program settings feed source = some result) ↔
      ∃ rest, Concludes allocator feed program settings source result rest := by
  constructor
  · rintro ⟨fuel, ran⟩
    rw [run] at ran
    cases created : create allocator program settings with
    | error fault =>
      rw [created] at ran
      cases ran
      exact ⟨source, .refused created⟩
    | ok machine =>
      rw [created] at ran
      obtain ⟨final, ended, rfl⟩ := Option.map_eq_some_iff.mp ran
      exact ⟨final.2, .ended created ⟨fuel, ended⟩⟩
  · rintro ⟨rest, concludes⟩
    cases concludes with
    | refused failed => exact ⟨0, by rw [run, failed]⟩
    | ended created ends =>
      obtain ⟨fuel, ended⟩ := ends
      refine ⟨fuel, ?_⟩
      simp only [run, created, ended, Option.map_some]

theorem Concludes.unique
    (concludes : Concludes allocator feed program settings source result rest)
    (concludes' : Concludes allocator feed program settings source result' rest') :
    result = result' ∧ rest = rest' := by
  cases concludes with
  | refused failed =>
    cases concludes' with
    | refused failed' =>
      cases failed.symm.trans failed'
      exact ⟨rfl, rfl⟩
    | ended created' => cases failed.symm.trans created'
  | ended created ends =>
    cases concludes' with
    | refused failed' => cases created.symm.trans failed'
    | ended created' ends' =>
      cases created.symm.trans created'
      rw [ends.unique ends']
      exact ⟨rfl, rfl⟩

section Map

variable {τ : Type} {feed' : Feed τ} {f : σ → τ} {state : Machine × σ} {fuel : Nat}

/-- A feed that gives from the image of a source what the other gives from the source, and leaves
the image of what that one leaves. -/
def Feed.Follows (feed' : Feed τ) (f : σ → τ) (feed : Feed σ) : Prop :=
  ∀ source, feed' (f source) = ((feed source).1, f (feed source).2)

theorem Feed.Follows.advance (follows : feed'.Follows f feed) :
    Machine.advance feed' (Prod.map id f state) = Prod.map id f (Machine.advance feed state) := by
  simp only [Machine.advance, Prod.map, id_eq, follows state.2]
  split <;> rfl

/-- A run is the same run on the feed that follows. -/
theorem Feed.Follows.runFor (follows : feed'.Follows f feed) :
    Machine.runFor feed' fuel (Prod.map id f state) =
      (Machine.runFor feed fuel state).map (Prod.map id f) := by
  induction fuel generalizing state with
  | zero =>
    simp only [Machine.runFor, Prod.map, id_eq]
    split <;> rfl
  | succ fuel ih => rw [runFor_succ, runFor_succ, follows.advance, ih]

theorem Feed.Follows.run (follows : feed'.Follows f feed) :
    Brainfuck.run allocator fuel program settings feed' (f source) =
      Brainfuck.run allocator fuel program settings feed source := by
  rw [Brainfuck.run, Brainfuck.run]
  cases create allocator program settings with
  | error fault => rfl
  | ok machine =>
    have same := @Feed.Follows.runFor _ feed _ feed' f (machine, source) fuel follows
    simp only [Prod.map, id_eq] at same
    simp only [same, Option.map_map]
    rfl

theorem Concludes.map (concludes : Concludes allocator feed program settings source result rest)
    (follows : feed'.Follows f feed) :
    Concludes allocator feed' program settings (f source) result (f rest) := by
  cases concludes with
  | refused failed => exact .refused failed
  | @ended machine final created ends =>
    obtain ⟨fuel, ended⟩ := ends
    have ends' : Ends feed' (machine, f source) (Prod.map id f final) :=
      ⟨fuel, follows.runFor.trans (by rw [ended, Option.map_some])⟩
    exact .ended created ends'

end Map

def errorOf : Except RunError String → Option RunError
  | .ok _ => none
  | .error error => some error

/-- All that a program wrote, complete or up to its fault. -/
def writtenBy : Except RunError String → String
  | .ok output => output
  | .error (.configuration _) => ""
  | .error (.execution diagnostic) => diagnostic.output

/-- What is said of a result, behind the name of the command or nothing: the error, and below it the
four lines of the diagnostic. -/
def reportOf (opening : String) : Except RunError String → String
  | .ok _ => ""
  | .error (.configuration fault) => s!"{opening}Configuration error: {fault.message}\n"
  | .error (.execution ⟨position, window, output, fault⟩) =>
    s!"{opening}Runtime error at char index {position}: {fault.message}\n" ++
    s!"{window}\n" ++
    s!"Error at      ^      char index {position}\n" ++
    s!"  message: {fault.message}\n" ++
    s!"   output: {output}\n"

theorem writtenBy_result (machine : Machine) :
    writtenBy (machine.result.mapError .execution) = machine.output := by
  unfold result
  cases machine.fault <;> rfl

theorem reportOf_error (opening : String) (error : RunError) :
    reportOf opening (.error error) = opening ++ error.header ++ "\n" ++ match error with
      | .configuration _ => ""
      | .execution diagnostic => diagnostic.display ++ "\n" := by
  cases error with
  | configuration fault =>
    show opening ++ "Configuration error: " ++ fault.message ++ "\n" =
      opening ++ ("Configuration error: " ++ fault.message) ++ "\n" ++ ""
    simp only [String.append_assoc, String.append_empty]
  | execution diagnostic =>
    obtain ⟨position, window, output, fault⟩ := diagnostic
    show opening ++ "Runtime error at char index " ++ toString position ++ ": " ++
        fault.message ++ "\n" ++ (window ++ "\n") ++
        ("Error at      ^      char index " ++ toString position ++ "\n") ++
        ("  message: " ++ fault.message ++ "\n") ++ ("   output: " ++ output ++ "\n") =
      opening ++ ("Runtime error at char index " ++ toString position ++ ": " ++
        fault.message) ++ "\n" ++ (window ++ "\n" ++
        ("Error at      ^      char index " ++ toString position ++ "\n") ++
        ("  message: " ++ fault.message ++ "\n") ++ ("   output: " ++ output) ++ "\n")
    simp only [String.append_assoc]

theorem reportOf_eq_empty_iff {opening : String} {result : Except RunError String} :
    reportOf opening result = "" ↔ result.isOk := by
  cases result with
  | ok output => simp [reportOf, Except.isOk, Except.toBool]
  | error error => simp [reportOf_error, Except.isOk, Except.toBool, String.append_eq_empty_iff]

/-- What precedes a report to the owner of a program. -/
def Owner.opening (command : String) : Owner → String
  | .command => s!"{command}: "
  | .prompt .. => ""

theorem report_silent (host : Host) (owner : Owner) (error : RunError) :
    Activity.report host.silent owner error =
      ⟨.error, owner.opening host.command ++ error.header ++ "\n"⟩ :: match error with
        | .configuration _ => []
        | .execution diagnostic => [⟨.error, diagnostic.display ++ "\n"⟩] := by
  cases owner with
  | command => rfl
  | prompt =>
    simp only [Activity.report, Owner.opening, String.empty_append]
    rfl

theorem textOf_report (host : Host) (owner : Owner) (error : RunError) :
    Piece.textOf .output (Activity.report host.silent owner error).toArray = "" ∧
      Piece.textOf .error (Activity.report host.silent owner error).toArray =
        reportOf (owner.opening host.command) (.error error) := by
  rw [report_silent, reportOf_error]
  cases error <;> simp

/-- A line feed ends the output of a program, and the report of its error is written. -/
theorem textOf_finish (host : Host) (owner : Owner) (result : Except RunError String) :
    let move := Activity.finish host.silent owner (errorOf result)
    move.1 = Activity.afterProgram (!result.isOk) owner ∧
      Piece.textOf .output move.2.toArray = "\n" ∧
      Piece.textOf .error move.2.toArray = reportOf (owner.opening host.command) result := by
  cases result with
  | ok output => exact ⟨rfl, rfl, rfl⟩
  | error error =>
    obtain ⟨output, errors⟩ := textOf_report host owner error
    refine ⟨rfl, ?_, ?_⟩
    · simp [Activity.finish, errorOf, output]
    · simp [Activity.finish, errorOf, errors]

end Brainfuck
