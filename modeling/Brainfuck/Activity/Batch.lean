import Brainfuck.Activity

/-! The command with its input complete from the start: it takes the lines in order, and finds the
end of input when none is left. -/

namespace Brainfuck

structure Batch where
  activity : Activity
  /-- The lines not yet taken. -/
  input : List Text.Line
  /-- All that has been written, in order. -/
  written : Array Piece := #[]

namespace Batch

/-- One step of the activity, or the next line where it waits. -/
def step (host : Host) (batch : Batch) : Batch :=
  let ⟨activity, input, written⟩ := batch
  if activity.isExecuting then
    let (activity, pieces) := activity.step host
    ⟨activity, input, written ++ pieces⟩
  else
    let (activity, pieces) := activity.takeReply host (input.headD [])
    ⟨activity, input.tail, written ++ pieces⟩

/-- Takes at most `fuel` steps, and yields the batch and its exit status if it has ended by then. -/
def runFor (host : Host) : (fuel : Nat) → Batch → Option (Batch × ExitStatus)
  | 0, batch => batch.activity.status?.map fun status => (batch, status)
  | fuel + 1, batch =>
    match batch.activity.status? with
    | some status => some (batch, status)
    | none => runFor host fuel (batch.step host)

end Batch
end Brainfuck
