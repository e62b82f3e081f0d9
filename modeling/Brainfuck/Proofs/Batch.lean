import Brainfuck.Activity.Batch

/-! The course of a batch.  `Leads` follows its steps and keeps account of the lines of input that
they use, so no line is used twice and none is left out.  A batch that ends has one course only.
`Passes` keeps account of what is written as well. -/

namespace Brainfuck

/-- What a line of the input is used for. -/
inductive Use
  /-- It is taken at the prompt. -/
  | prompt (line : Text.Line)
  /-- It answers a `,` of the program that runs. -/
  | answer (line : Text.Line)
  deriving DecidableEq, Repr

def Use.line : Use → Text.Line
  | prompt line | answer line => line

@[simp] theorem Use.line_comp_answer : Use.line ∘ Use.answer = id := rfl

namespace Batch

variable {host : Host} {batch middle final : Batch} {uses more : List Use}
  {output errors output' errors' : String} {status : ExitStatus} {activity next : Activity}
  {machine : Machine} {owner : Owner} {pieces : List Piece}

/-- The use that the next step makes of a line, if it takes one. -/
def use? (batch : Batch) : Option Use :=
  match batch.activity, batch.input with
  | .prompting .., line :: _ => some (.prompt line)
  | .reading .., line :: _ => some (.answer line)
  | _, _ => none

/-- Steps lead from one batch to another, and use these lines in this order. -/
inductive Leads (host : Host) : Batch → List Use → Batch → Prop
  | refl {batch : Batch} : Leads host batch [] batch
  | step {batch final : Batch} {uses : List Use} (going : batch.activity.status? = none)
      (rest : Leads host (batch.step host) uses final) :
      Leads host batch (batch.use?.toList ++ uses) final

theorem Leads.trans (leads : Leads host batch uses middle)
    (rest : Leads host middle more final) : Leads host batch (uses ++ more) final := by
  induction leads with
  | refl => exact rest
  | step going _ ih =>
    rw [List.append_assoc]
    exact .step going (ih rest)

theorem input_step (going : batch.activity.status? = none) :
    batch.input = batch.use?.toList.map Use.line ++ (batch.step host).input := by
  obtain ⟨activity, input, written⟩ := batch
  cases activity with
  | executing machine owner => rfl
  | ended status => contradiction
  | reading machine owner => cases input <;> rfl
  | prompting mode session => cases input <;> rfl

/-- The lines that are used, and after them those that are left, are all there were. -/
theorem Leads.input_eq (leads : Leads host batch uses final) :
    batch.input = uses.map Use.line ++ final.input := by
  induction leads with
  | refl => rfl
  | step going _ ih => rw [input_step going, ih, List.map_append, List.append_assoc]

/-- A batch that ends comes to its end from wherever its steps lead. -/
theorem Leads.rest (leads : Leads host batch uses middle)
    (ends : Leads host batch more final) (ended : final.activity.status? = some status) :
    ∃ rest, more = uses ++ rest ∧ Leads host middle rest final := by
  induction leads generalizing more with
  | refl => exact ⟨more, rfl, ends⟩
  | step going _ ih =>
    cases ends with
    | refl =>
      rw [going] at ended
      contradiction
    | step _ behind =>
      obtain ⟨rest, rfl, leads⟩ := ih behind
      exact ⟨rest, (List.append_assoc ..).symm, leads⟩

theorem Leads.of_ended (leads : Leads host batch uses final)
    (ended : batch.activity.status? = some status) : uses = [] ∧ final = batch := by
  cases leads with
  | refl => exact ⟨rfl, rfl⟩
  | step going _ =>
    rw [going] at ended
    contradiction

theorem Leads.unique {status' : ExitStatus} (leads : Leads host batch uses middle)
    (ended : middle.activity.status? = some status) (leads' : Leads host batch more final)
    (ended' : final.activity.status? = some status') : more = uses ∧ final = middle := by
  obtain ⟨rest, rfl, behind⟩ := leads.rest leads' ended'
  obtain ⟨rfl, rfl⟩ := behind.of_ended ended
  exact ⟨List.append_nil _, rfl⟩

theorem leads_of_runFor {fuel : Nat} (ran : runFor host fuel batch = some (final, status)) :
    final.activity.status? = some status ∧ ∃ uses, Leads host batch uses final := by
  induction fuel generalizing batch with
  | zero =>
    obtain ⟨status', ended, same⟩ := Option.map_eq_some_iff.mp ran
    cases same
    exact ⟨ended, [], .refl⟩
  | succ fuel ih =>
    rw [runFor] at ran
    cases ended : batch.activity.status? with
    | some status' =>
      rw [ended] at ran
      cases ran
      exact ⟨ended, [], .refl⟩
    | none =>
      rw [ended] at ran
      obtain ⟨ended', uses, leads⟩ := ih ran
      exact ⟨ended', _, .step ended leads⟩

theorem Leads.exists_runFor (leads : Leads host batch uses final)
    (ended : final.activity.status? = some status) :
    ∃ fuel, runFor host fuel batch = some (final, status) := by
  induction leads with
  | refl =>
    refine ⟨0, ?_⟩
    rw [runFor, ended]
    rfl
  | step going _ ih =>
    obtain ⟨fuel, ran⟩ := ih ended
    refine ⟨fuel + 1, ?_⟩
    rw [runFor, going]
    exact ran

/-- Steps lead from one batch to another, and write this to the two streams meanwhile. -/
structure Passes (host : Host) (batch : Batch) (uses : List Use)
    (output errors : String) (final : Batch) : Prop where
  leads : Leads host batch uses final
  output : Piece.textOf .output final.written = Piece.textOf .output batch.written ++ output
  errors : Piece.textOf .error final.written = Piece.textOf .error batch.written ++ errors

theorem Passes.refl : Passes host batch [] "" "" batch :=
  ⟨.refl, by simp, by simp⟩

theorem Passes.trans (passes : Passes host batch uses output errors middle)
    (rest : Passes host middle more output' errors' final) :
    Passes host batch (uses ++ more) (output ++ output') (errors ++ errors') final where
  leads := passes.leads.trans rest.leads
  output := by rw [rest.output, passes.output, String.append_assoc]
  errors := by rw [rest.errors, passes.errors, String.append_assoc]

theorem passes_of_step (input : List Text.Line) (written : Array Piece)
    (moved : (Activity.executing machine owner).step host = (next, pieces)) :
    Passes host ⟨.executing machine owner, input, written⟩ []
      (Piece.textOf .output pieces.toArray) (Piece.textOf .error pieces.toArray)
      ⟨next, input, written ++ pieces⟩ where
  leads := by
    have step : Batch.step host ⟨.executing machine owner, input, written⟩ =
        ⟨next, input, written ++ pieces⟩ := by
      simp only [Batch.step, Activity.isExecuting, if_true, moved]
    exact .step rfl (step ▸ .refl)
  output := Piece.textOf_append ..
  errors := Piece.textOf_append ..

theorem passes_of_takeReply (input : List Text.Line) (written : Array Piece)
    (waits : activity.isExecuting = false) (going : activity.status? = none)
    (moved : activity.takeReply host (input.headD []) = (next, pieces)) :
    Passes host ⟨activity, input, written⟩ (use? ⟨activity, input, written⟩).toList
      (Piece.textOf .output pieces.toArray) (Piece.textOf .error pieces.toArray)
      ⟨next, input.tail, written ++ pieces⟩ where
  leads := by
    have step : Batch.step host ⟨activity, input, written⟩ =
        ⟨next, input.tail, written ++ pieces⟩ := by
      simp only [Batch.step, waits, moved]
      rfl
    rw [← List.append_nil (Option.toList _)]
    exact .step going (step ▸ .refl)
  output := Piece.textOf_append ..
  errors := Piece.textOf_append ..

end Batch
end Brainfuck
