import Brainfuck.Proofs.Classic
import Brainfuck.Proofs.Rerun

/-! Answers to reads.  A run asks its feed once for each `,` that it executes, and for nothing else.
So what a run has come to depends on the answers given so far and on none that may follow: two feeds
with the same first answers drive the same run until it asks for the next one. -/

namespace Brainfuck

namespace Feed

variable {σ : Type}

/-- What is left of a feed behind its first `count` answers. -/
def left (feed : Feed σ) (source : σ) (count : Nat) : σ :=
  (fun source => (feed source).2)^[count] source

/-- The answer of this number, counted from zero. -/
def answer (feed : Feed σ) (source : σ) (index : Nat) : Answer :=
  (feed (feed.left source index)).1

/-- The first `count` answers, in order. -/
def answers (feed : Feed σ) (source : σ) (count : Nat) : List Answer :=
  (List.range count).map (feed.answer source)

/-- The same feed, which keeps a record of the answers it has given. -/
def recorded (feed : Feed σ) : Feed (σ × List Answer)
  | (source, given) => ((feed source).1, (feed source).2, given ++ [(feed source).1])

variable {feed : Feed σ} {source : σ} {count : Nat}

theorem left_succ : feed.left source (count + 1) = (feed (feed.left source count)).2 :=
  Function.iterate_succ_apply' ..

theorem answers_succ :
    feed.answers source (count + 1) = feed.answers source count ++ [feed.answer source count] := by
  simp [answers, List.range_succ]

theorem answers_eq_iff {τ : Type} {feed' : Feed τ} {source' : τ} :
    feed.answers source count = feed'.answers source' count ↔
      ∀ index < count, feed.answer source index = feed'.answer source' index := by
  simp [answers]

end Feed

namespace Machine

variable {σ τ : Type} {feed : Feed σ} {feed' : Feed τ} {state : Machine × σ} {source : σ}
  {source' : τ} {machine : Machine} {count more shared : Nat}

/-- The answer that the next instruction is given, if it is a `,`. -/
def supplied? (feed : Feed σ) (state : Machine × σ) : Option Answer :=
  if state.1.asks then some (feed state.2).1 else none

theorem source_advance :
    (advance feed state).2 = if state.1.asks then (feed state.2).2 else state.2 := by
  rw [advance]
  split <;> rfl

/-- What the machine does depends on the next answer only if it asks for one. -/
theorem fst_advance_congr
    (same : machine.asks → (feed source).1 = (feed' source').1) :
    (advance feed (machine, source)).1 = (advance feed' (machine, source')).1 := by
  rw [advance, advance]
  cases asks : machine.asks with
  | true => simp only [if_true, same asks]
  | false => rfl

/-- A run yields the machine that has executed as many instructions as it has fuel. -/
theorem map_fst_runFor : (runFor feed count state).map Prod.fst =
    if (after feed count state).1.halted then some (after feed count state).1 else none := by
  split
  next halted => rw [runFor_eq_some_iff.mpr ⟨rfl, halted⟩, Option.map_some]
  next running =>
    rw [Option.map_eq_none_iff, Option.eq_none_iff_forall_ne_some]
    rintro final ran
    obtain ⟨rfl, halted⟩ := runFor_eq_some_iff.mp ran
    exact running halted

theorem advance_recorded (given : List Answer) :
    advance feed.recorded (machine, source, given) =
      ((advance feed (machine, source)).1, (advance feed (machine, source)).2,
        given ++ (supplied? feed (machine, source)).toList) := by
  rw [advance, advance, supplied?]
  cases machine.asks with
  | true => rfl
  | false => simp

theorem reads_le_of_le {earlier : Nat} (le : earlier ≤ count) :
    (after feed earlier state).1.log.reads ≤ (after feed count state).1.log.reads := by
  obtain ⟨more, rfl⟩ := Nat.exists_eq_add_of_le le
  induction more with
  | zero => exact Nat.le_refl _
  | succ more ih =>
    rw [← Nat.add_assoc, after_succ', reads_advance]
    exact Nat.le_add_right_of_le (ih (Nat.le_add_right ..))

theorem reads_le_of_ends {final : Machine × σ} (ends : Ends feed state final) (count : Nat) :
    (after feed count state).1.log.reads ≤ final.1.log.reads := by
  obtain ⟨halted, last, rfl⟩ := ends_iff.mp ends
  rcases Nat.le_total count last with before | behind
  · exact reads_le_of_le before
  · obtain ⟨more, rfl⟩ := Nat.exists_eq_add_of_le behind
    exact Nat.le_of_eq (by rw [after_add, after_of_halted halted])

section Unread

variable (unread : machine.log.reads = 0)

include unread

theorem source_after : (after feed count (machine, source)).2 =
    feed.left source (after feed count (machine, source)).1.log.reads := by
  induction count with
  | zero =>
    rw [after_zero, unread]
    rfl
  | succ count ih =>
    rw [after_succ', source_advance, reads_advance]
    split
    · rw [Feed.left_succ, ih]
    · exact ih

/-- The `,` executed have been given the first answers, one each. -/
theorem supplied_after : observed (supplied? feed) feed count (machine, source) =
    feed.answers source (after feed count (machine, source)).1.log.reads := by
  induction count with
  | zero =>
    rw [after_zero, unread]
    rfl
  | succ count ih =>
    rw [observed_succ, ih, after_succ', reads_advance, supplied?]
    split
    · rw [Feed.answers_succ, Feed.answer, ← source_after unread]
      rfl
    · exact List.append_nil _

/-- Nothing else has been asked for. -/
theorem after_recorded : after feed.recorded count (machine, source, []) =
    ((after feed count (machine, source)).1, (after feed count (machine, source)).2,
      feed.answers source (after feed count (machine, source)).1.log.reads) := by
  rw [← supplied_after unread]
  induction count with
  | zero => rfl
  | succ count ih => rw [after_succ', ih, advance_recorded, after_succ', observed_succ]

/-- Two feeds with the same first answers drive the same run until it has used them. -/
theorem fst_after_of_answers_eq
    (same : feed.answers source shared = feed'.answers source' shared)
    (few : (after feed count (machine, source)).1.log.reads ≤ shared) :
    (after feed' count (machine, source')).1 = (after feed count (machine, source)).1 := by
  induction count with
  | zero => rfl
  | succ count ih =>
    have before := ih (Nat.le_trans (reads_le_of_le (Nat.le_succ count)) few)
    have left : (after feed count (machine, source)).2 = feed.left source _ := source_after unread
    have left' : (after feed' count (machine, source')).2 = feed'.left source' _ :=
      source_after unread
    rw [before] at left'
    rw [after_succ', reads_advance] at few
    rw [after_succ', after_succ', ← Prod.eta (after feed count _), ← Prod.eta (after feed' count _),
      before, left, left']
    refine (fst_advance_congr fun asks => ?_).symm
    rw [if_pos asks] at few
    exact Feed.answers_eq_iff.mp same _ few

/-- A run that asks for more answers comes to ask for the first of them. -/
theorem exists_asking (many : shared < (after feed count (machine, source)).1.log.reads) :
    ∃ asking < count, (after feed asking (machine, source)).1.asks ∧
      (after feed asking (machine, source)).1.log.reads = shared := by
  induction count with
  | zero =>
    rw [after_zero, unread] at many
    contradiction
  | succ count ih =>
    rcases Nat.lt_or_ge shared (after feed count (machine, source)).1.log.reads with earlier | last
    · obtain ⟨asking, lt, asks, reads⟩ := ih earlier
      exact ⟨asking, Nat.lt_succ_of_lt lt, asks, reads⟩
    · rw [after_succ', reads_advance] at many
      split at many
      next asks => exact ⟨count, Nat.lt_succ_self count, asks, by omega⟩
      next => omega

end Unread

end Machine

theorem run_eq_map {allocator : Allocator} {σ : Type} {feed : Feed σ} {source : σ}
    {program : Program} {settings : Settings} {machine : Machine} {fuel : Nat}
    (created : Machine.create allocator program settings = .ok machine) :
    run allocator fuel program settings feed source =
      ((Machine.runFor feed fuel (machine, source)).map Prod.fst).map fun machine =>
        machine.result.mapError .execution := by
  rw [run, created, Option.map_map]
  rfl

/-- A run is given the first answers of its feed, one for each `,` that it executes, and the feed is
asked for no other.  So any feed that begins with the same answers drives the same run if these are
all that it asks for, and otherwise the same run up to the `,` at which it asks for the next. -/
theorem same_until_asked (machine : Machine) {σ : Type} (feed : Feed σ) (source : σ) :
    let now (count : Nat) := Machine.after feed count (machine.rewind, source)
    let reads (count : Nat) := (now count).1.log.reads
    (∀ count,
      Machine.observed (Machine.supplied? feed) feed count (machine.rewind, source) =
        feed.answers source (reads count) ∧
      Machine.after feed.recorded count (machine.rewind, source, []) =
        ((now count).1, (now count).2, feed.answers source (reads count))) ∧
    ∀ {τ : Type} (feed' : Feed τ) (source' : τ) (shared : Nat),
      feed.answers source shared = feed'.answers source' shared →
      let now' (count : Nat) := Machine.after feed' count (machine.rewind, source')
      ((∀ count, reads count ≤ shared) →
        (∀ count, (now' count).1 = (now count).1) ∧
        (∀ fuel, (Machine.runAgain feed' fuel (machine, source')).map Prod.fst =
          (Machine.runAgain feed fuel (machine, source)).map Prod.fst) ∧
        ∀ allocator program settings, Machine.create allocator program settings = .ok machine →
          ∀ fuel, run allocator fuel program settings feed' source' =
            run allocator fuel program settings feed source) ∧
      ∀ count, shared < reads count → ∃ asking < count, (now asking).1.asks ∧
        reads asking = shared ∧ ∀ earlier ≤ asking, (now' earlier).1 = (now earlier).1 := by
  intro now reads
  have unread : machine.rewind.log.reads = 0 := rfl
  refine ⟨fun count => ⟨Machine.supplied_after unread, Machine.after_recorded unread⟩, ?_⟩
  intro τ feed' source' shared same now'
  refine ⟨fun few => ?_, fun count many => ?_⟩
  · have same_run (count : Nat) : (now' count).1 = (now count).1 :=
      Machine.fst_after_of_answers_eq unread same (few count)
    have same_end (fuel : Nat) : (Machine.runAgain feed' fuel (machine, source')).map Prod.fst =
        (Machine.runAgain feed fuel (machine, source)).map Prod.fst := by
      rw [Machine.runAgain, Machine.runAgain, Machine.map_fst_runFor, Machine.map_fst_runFor]
      simp only [same_run fuel, now, now']
    refine ⟨same_run, same_end, fun allocator program settings created fuel => ?_⟩
    have new := (Machine.madeFrom_of_create created).rewind created
    rw [run_eq_map created, run_eq_map created, ← new]
    exact congrArg _ (same_end fuel)
  · obtain ⟨asking, lt, asks, used⟩ := Machine.exists_asking unread many
    refine ⟨asking, lt, asks, used, fun earlier le => ?_⟩
    exact Machine.fst_after_of_answers_eq unread same (used ▸ Machine.reads_le_of_le le)

/-- The second `,` is given two characters and fails.  A feed that goes on with other answers makes
no difference, and one that repeats its first answer makes none up to the second `,`. -/
theorem same_until_asked_of_word :
    let feed := Feed.ofList (.error "closed")
    let answers : List Answer := [.ok "b", .ok "cd"]
    let longer : List Answer := answers ++ [.ok "e", .error "broken"]
    let repeating : Feed Unit := fun _ => (.ok "b", ())
    ∃ machine, Machine.create .ample (Program.ofString ",.-,.,") {} = .ok machine ∧
      feed.answers answers 2 = feed.answers longer 2 ∧
      feed.answers answers 1 = repeating.answers () 1 ∧
      (∃ final final', Machine.runAgain feed 9 (machine, answers) = some final ∧
        Machine.runAgain feed 9 (machine, longer) = some final' ∧ final'.1 = final.1 ∧
        final.1.fault = some (.inputLength 2) ∧ final.1.log.reads = 2) ∧
      ∃ asking < 4, (Machine.after feed asking (machine.rewind, answers)).1.asks ∧
        (Machine.after feed asking (machine.rewind, answers)).1.log.reads = 1 ∧
        (Machine.after repeating asking (machine.rewind, ())).1 =
          (Machine.after feed asking (machine.rewind, answers)).1 := by
  intro feed answers longer repeating
  obtain ⟨machine, created⟩ :
    ∃ machine, Machine.create .ample (Program.ofString ",.-,.,") {} = .ok machine := ⟨_, rfl⟩
  have both : feed.answers answers 2 = feed.answers longer 2 := rfl
  have first : feed.answers answers 1 = repeating.answers () 1 := rfl
  obtain ⟨-, shares⟩ := same_until_asked machine feed answers
  obtain ⟨all_used, -⟩ := shares feed longer 2 both
  obtain ⟨-, asks_on⟩ := shares repeating () 1 first
  have ran : (Machine.runAgain feed 9 (machine, answers)).map (fun final =>
      (final.1.fault, final.1.log.reads)) = some (some (.inputLength 2), 2) := by
    cases created
    decide +kernel
  have many : 1 < (Machine.after feed 4 (machine.rewind, answers)).1.log.reads := by
    cases created
    decide +kernel
  obtain ⟨final, ran, shown⟩ := Option.map_eq_some_iff.mp ran
  simp only [Prod.mk.injEq] at shown
  obtain ⟨failed, reads⟩ := shown
  have few (count : Nat) := reads ▸ Machine.reads_le_of_ends ⟨9, ran⟩ count
  obtain ⟨-, same_end, -⟩ := all_used few
  have ran' := same_end 9
  rw [ran, Option.map_some, Option.map_eq_some_iff] at ran'
  obtain ⟨final', ran', same⟩ := ran'
  obtain ⟨asking, lt, asks, used, same_so_far⟩ := asks_on 4 many
  exact ⟨machine, created, both, first, ⟨final, final', ran, ran', same, failed, reads⟩,
    asking, lt, asks, used, same_so_far asking (Nat.le_refl _)⟩

end Brainfuck
