import Brainfuck.Config
import Brainfuck.Proofs.Trimming

/-! The assignments of a configuration file, told from its lines alone: which lines lie in the
section of defaults, what a line assigns there, and which assignment to a key is the last. -/

namespace Brainfuck.Config

open Text

/-- A value without the pair of double quotes around it, if there is one. -/
inductive Unquotes : List Char → List Char → Prop
  | quoted (value : List Char) : Unquotes ('"' :: (value ++ ['"'])) value
  | plain {value : List Char} (bare : ∀ inner, value ≠ '"' :: (inner ++ ['"'])) :
      Unquotes value value

/-- A line that opens the section of this name. -/
def Heads (line name : List Char) : Prop := Trims line ('[' :: (name ++ [']']))

def IsHeading (line : List Char) : Prop := ∃ name, Heads line name

/-- What a line assigns if it lies in the section of defaults.  A comment and a heading assign
nothing. -/
def Makes (line : List Char) (assignment : Assignment) : Prop :=
  ¬ IsHeading line ∧ ∃ key value bare, Trims line (key ++ '=' :: value) ∧
    (key ++ '=' :: value).head? ≠ some '#' ∧ '=' ∉ key ∧ Trims key assignment.key.toList ∧
    Trims value bare ∧ Unquotes bare assignment.value.toList

/-- Of the headings before a line the last is that of the defaults. -/
def InDefaults (lines : List (List Char)) (index : Nat) : Prop :=
  ∃ front opening between, lines.take index = front ++ opening :: between ∧
    Heads opening "defaults".toList ∧ ∀ line ∈ between, ¬ IsHeading line

def AssignedAt (lines : List (List Char)) (index : Nat) (assignment : Assignment) : Prop :=
  InDefaults lines index ∧ ∃ line, lines[index]? = some line ∧ Makes line assignment

/-- No later line assigns to the key. -/
def LastAssigned (lines : List (List Char)) (assignment : Assignment) : Prop :=
  ∃ index, AssignedAt lines index assignment ∧
    ∀ later value, index < later → ¬ AssignedAt lines later ⟨assignment.key, value⟩

section Lines

variable {line text value name : List Char} {assignment : Assignment}

theorem heading?_eq_some_iff : heading? text = some name ↔ text = '[' :: (name ++ [']']) := by
  constructor
  · intro heads
    unfold heading? at heads
    split at heads
    next rest =>
      rw [Option.ite_none_right_eq_some, Option.some.injEq] at heads
      obtain ⟨ends, rfl⟩ := heads
      obtain ⟨front, rfl⟩ := List.getLast?_eq_some_iff.mp ends
      rw [List.dropLast_concat]
    next => contradiction
  · rintro rfl
    rw [heading?, if_pos List.getLast?_concat, List.dropLast_concat]

theorem heading?_eq_none_iff : heading? (trimChars line) = none ↔ ¬ IsHeading line := by
  rw [Option.eq_none_iff_forall_ne_some, IsHeading, not_exists]
  exact forall_congr' fun name => not_congr (heading?_eq_some_iff.trans trims_iff.symm)

theorem unquote_quoted (value : List Char) : unquote ('"' :: (value ++ ['"'])) = value := by
  rw [unquote, if_pos List.getLast?_concat, List.dropLast_concat]

theorem unquote_of_bare (bare : ∀ inner, text ≠ '"' :: (inner ++ ['"'])) : unquote text = text := by
  unfold unquote
  split
  next rest =>
    refine if_neg fun ends => ?_
    obtain ⟨front, rfl⟩ := List.getLast?_eq_some_iff.mp ends
    exact bare front rfl
  next => rfl

theorem unquotes_iff : Unquotes text value ↔ unquote text = value := by
  constructor
  · intro unquotes
    cases unquotes with
    | quoted => exact unquote_quoted value
    | plain bare => exact unquote_of_bare bare
  · rintro rfl
    by_cases quoted : ∃ inner, text = '"' :: (inner ++ ['"'])
    · obtain ⟨inner, rfl⟩ := quoted
      rw [unquote_quoted]
      exact .quoted inner
    · rw [not_exists] at quoted
      rw [unquote_of_bare quoted]
      exact .plain quoted

theorem takeWhile_append_of_notMem {key : List Char} (absent : '=' ∉ key) (value : List Char) :
    (key ++ '=' :: value).takeWhile (· != '=') = key ∧
      (key ++ '=' :: value).dropWhile (· != '=') = '=' :: value := by
  have all : ∀ c ∈ key, (c != '=') = true := fun c among => by
    rw [bne_iff_ne]
    exact fun same => absent (same ▸ among)
  rw [List.takeWhile_append_of_pos all, List.dropWhile_append_of_pos all]
  simp

theorem assignment?_eq_some_iff : assignment? text = some assignment ↔
    ∃ key value bare, text = key ++ '=' :: value ∧ '=' ∉ key ∧
      Trims key assignment.key.toList ∧ Trims value bare ∧
      Unquotes bare assignment.value.toList := by
  constructor
  · intro assigns
    unfold assignment? at assigns
    split at assigns
    next => contradiction
    next sign value rest =>
      cases assigns
      have first := List.head?_dropWhile_not (· != '=') text
      rw [rest, List.head?_cons] at first
      obtain rfl : sign = '=' := by simpa using first
      refine ⟨text.takeWhile (· != '='), value, trimChars value, ?_, fun among => ?_, ?_,
        trims_iff.mpr rfl, ?_⟩
      · rw [← rest, List.takeWhile_append_dropWhile]
      · simpa using List.all_eq_true.mp List.all_takeWhile _ among
      · rw [trims_iff, String.toList_ofList]
      · rw [unquotes_iff, String.toList_ofList]
  · rintro ⟨key, value, bare, rfl, absent, keyed, bared, unquotes⟩
    obtain ⟨before, behind⟩ := takeWhile_append_of_notMem absent value
    rw [trims_iff] at keyed bared
    rw [unquotes_iff, ← bared] at unquotes
    simp only [assignment?, behind, before, unquotes, keyed, String.ofList_toList]

end Lines

section Sections

variable {line : List Char} {rest lines : List (List Char)} {inside : Bool} {index : Nat}
  {assignment : Assignment}

/-- The assignment of a line in the section. -/
def made? (line : List Char) : Option Assignment :=
  let text := trimChars line
  if text.isEmpty ∨ text.head? = some '#' ∨ (heading? text).isSome then none else assignment? text

/-- Whether the lines behind this one lie in the section. -/
def insideAfter (inside : Bool) (line : List Char) : Bool :=
  match heading? (trimChars line) with
  | some name => name == "defaults".toList
  | none => inside

theorem made?_eq_some_iff : made? line = some assignment ↔ Makes line assignment := by
  rw [made?, Makes, ← heading?_eq_none_iff, Option.ite_none_left_eq_some, not_or, not_or,
    Option.not_isSome_iff_eq_none, assignment?_eq_some_iff]
  simp only [trims_iff]
  constructor
  · rintro ⟨⟨-, code, body⟩, key, value, bare, whole, assigns⟩
    exact ⟨body, key, value, bare, whole, whole ▸ code, assigns⟩
  · rintro ⟨body, key, value, bare, whole, code, assigns⟩
    refine ⟨⟨fun empty => ?_, whole ▸ code, body⟩, key, value, bare, whole, assigns⟩
    rw [whole, List.isEmpty_iff] at empty
    simp at empty

theorem assignmentsFrom_cons : assignmentsFrom inside (line :: rest) =
    (if inside then made? line else none).toList ++
      assignmentsFrom (insideAfter inside line) rest := by
  rw [assignmentsFrom, made?, insideAfter]
  cases trimmed : trimChars line with
  | nil => simp [heading?]
  | cons first text =>
    by_cases comment : first = '#'
    · simp [comment, heading?]
    · cases heading? (first :: text) <;> cases inside <;> simp [comment]

theorem insideAfter_iff : insideAfter inside line ↔
    Heads line "defaults".toList ∨ inside ∧ ¬ IsHeading line := by
  rw [insideAfter, ← heading?_eq_none_iff, Heads, trims_iff, ← heading?_eq_some_iff]
  cases heading? (trimChars line) <;> simp

/-- `InDefaults` for lines of which the first lies behind such a heading or not. -/
def InSection (inside : Bool) (lines : List (List Char)) (index : Nat) : Prop :=
  InDefaults lines index ∨ inside ∧ ∀ line ∈ lines.take index, ¬ IsHeading line

theorem inSection_false : InSection false lines index ↔ InDefaults lines index := by
  simp [InSection]

theorem inSection_zero : InSection inside lines 0 ↔ inside := by
  simp [InSection, InDefaults]

theorem inDefaults_succ : InDefaults (line :: rest) (index + 1) ↔
    InDefaults rest index ∨
      Heads line "defaults".toList ∧ ∀ line ∈ rest.take index, ¬ IsHeading line := by
  constructor
  · rintro ⟨front, opening, between, same, heads, others⟩
    rw [List.take_succ_cons] at same
    obtain ⟨rfl, first⟩ | ⟨front, rfl, later⟩ := List.cons_eq_append_iff.mp same
    · obtain ⟨rfl, rfl⟩ := List.cons_eq_cons.mp first
      exact .inr ⟨heads, others⟩
    · exact .inl ⟨front, opening, between, later, heads, others⟩
  · rintro (⟨front, opening, between, same, heads, others⟩ | ⟨heads, others⟩)
    · exact ⟨line :: front, opening, between, by rw [List.take_succ_cons, same, List.cons_append],
        heads, others⟩
    · exact ⟨[], line, rest.take index, List.take_succ_cons, heads, others⟩

theorem inSection_succ :
    InSection inside (line :: rest) (index + 1) ↔
      InSection (insideAfter inside line) rest index := by
  rw [InSection, InSection, inDefaults_succ, insideAfter_iff, List.take_succ_cons,
    List.forall_mem_cons, or_assoc, or_and_right, and_assoc]

/-- `AssignedAt` for lines of which the first lies in the section or not. -/
def AssignedFrom (inside : Bool) (lines : List (List Char)) (index : Nat)
    (assignment : Assignment) : Prop :=
  InSection inside lines index ∧ ∃ line, lines[index]? = some line ∧ Makes line assignment

theorem assignedFrom_zero :
    AssignedFrom inside (line :: rest) 0 assignment ↔ inside ∧ Makes line assignment := by
  simp [AssignedFrom, inSection_zero]

theorem assignedFrom_succ : AssignedFrom inside (line :: rest) (index + 1) assignment ↔
    AssignedFrom (insideAfter inside line) rest index assignment := by
  rw [AssignedFrom, inSection_succ, List.getElem?_cons_succ, AssignedFrom]

theorem mem_made_iff : assignment ∈ (if inside then made? line else none).toList ↔
    inside ∧ Makes line assignment := by
  cases inside <;> simp [made?_eq_some_iff]

theorem mem_assignmentsFrom_iff :
    assignment ∈ assignmentsFrom inside lines ↔
      ∃ index, AssignedFrom inside lines index assignment := by
  -- Each line may open or leave the section, so the lemma is about both kinds of first line.
  induction lines generalizing inside with
  | nil => simp [assignmentsFrom, AssignedFrom]
  | cons line rest ih =>
    rw [assignmentsFrom_cons, List.mem_append, mem_made_iff, ih]
    constructor
    · rintro (now | ⟨index, later⟩)
      · exact ⟨0, assignedFrom_zero.mpr now⟩
      · exact ⟨index + 1, assignedFrom_succ.mpr later⟩
    · rintro ⟨_ | index, assigned⟩
      · exact .inl (assignedFrom_zero.mp assigned)
      · exact .inr ⟨index, assignedFrom_succ.mp assigned⟩

end Sections

section LastWins

variable {line : List Char} {rest lines : List (List Char)} {inside : Bool} {index : Nat}
  {assignment first : Assignment} {assignments : List Assignment}

theorem any_key_iff {key : String} : assignments.any (·.key == key) ↔
    ∃ value, ⟨key, value⟩ ∈ assignments := by
  simp only [List.any_eq_true, beq_iff_eq]
  constructor
  · rintro ⟨⟨_, value⟩, among, rfl⟩
    exact ⟨value, among⟩
  · rintro ⟨value, among⟩
    exact ⟨_, among, rfl⟩

theorem mem_lastWins_cons : assignment ∈ lastWins (first :: assignments) ↔
    (assignment = first ∧ ¬ ∃ value, ⟨first.key, value⟩ ∈ assignments) ∨
      assignment ∈ lastWins assignments := by
  rw [lastWins, ← any_key_iff]
  split <;> simp_all

theorem mem_of_mem_lastWins (among : assignment ∈ lastWins assignments) :
    assignment ∈ assignments := by
  induction assignments with
  | nil => contradiction
  | cons first assignments ih =>
    rw [mem_lastWins_cons] at among
    obtain ⟨rfl, -⟩ | among := among
    · exact List.mem_cons_self
    · exact List.mem_cons_of_mem _ (ih among)

theorem nodup_keys_lastWins (assignments : List Assignment) :
    ((lastWins assignments).map (·.key)).Nodup := by
  induction assignments with
  | nil => exact List.nodup_nil
  | cons first assignments ih =>
    rw [lastWins]
    split
    next => exact ih
    next fresh =>
      rw [any_key_iff] at fresh
      refine List.nodup_cons.mpr ⟨fun among => fresh ?_, ih⟩
      obtain ⟨⟨_, value⟩, among, rfl⟩ := List.mem_map.mp among
      exact ⟨value, mem_of_mem_lastWins among⟩

theorem mem_lastWins_toList_append {own : Option Assignment} :
    assignment ∈ lastWins (own.toList ++ assignments) ↔
      (assignment ∈ own.toList ∧ ¬ ∃ value, ⟨assignment.key, value⟩ ∈ assignments) ∨
        assignment ∈ lastWins assignments := by
  cases own with
  | none => simp
  | some first =>
    rw [Option.toList_some, List.singleton_append, mem_lastWins_cons, List.mem_singleton]
    refine or_congr_left (and_congr_right ?_)
    rintro rfl
    rfl

/-- `LastAssigned` for lines of which the first lies in the section or not. -/
def LastFrom (inside : Bool) (lines : List (List Char)) (assignment : Assignment) : Prop :=
  ∃ index, AssignedFrom inside lines index assignment ∧
    ∀ later value, index < later → ¬ AssignedFrom inside lines later ⟨assignment.key, value⟩

theorem lastFrom_cons : LastFrom inside (line :: rest) assignment ↔
    ((inside ∧ Makes line assignment) ∧
      ¬ ∃ value, ⟨assignment.key, value⟩ ∈ assignmentsFrom (insideAfter inside line) rest) ∨
    LastFrom (insideAfter inside line) rest assignment := by
  have now : inside ∧ Makes line assignment ↔ AssignedFrom inside (line :: rest) 0 assignment :=
    assignedFrom_zero.symm
  simp only [now, mem_assignmentsFrom_iff, ← assignedFrom_succ]
  constructor
  · rintro ⟨_ | index, assigned, last⟩
    · exact .inl ⟨assigned, fun ⟨value, later, again⟩ => last _ value (Nat.succ_pos later) again⟩
    · exact .inr ⟨index, assignedFrom_succ.mp assigned, fun later value behind again =>
        last _ value (Nat.succ_lt_succ behind) (assignedFrom_succ.mpr again)⟩
  · rintro (⟨assigned, last⟩ | ⟨index, assigned, last⟩)
    · refine ⟨0, assigned, fun later value behind again => last ⟨value, later - 1, ?_⟩⟩
      rwa [Nat.sub_add_cancel behind]
    · refine ⟨index + 1, assignedFrom_succ.mpr assigned, fun later value behind again => ?_⟩
      obtain ⟨later, rfl⟩ := Nat.exists_eq_add_of_lt behind
      exact last (index + 1 + later) value (by omega) (assignedFrom_succ.mp again)

theorem mem_lastWins_assignmentsFrom_iff :
    assignment ∈ lastWins (assignmentsFrom inside lines) ↔ LastFrom inside lines assignment := by
  induction lines generalizing inside with
  | nil => simp [assignmentsFrom, lastWins, LastFrom, AssignedFrom]
  | cons line rest ih =>
    rw [assignmentsFrom_cons, mem_lastWins_toList_append, mem_made_iff, ih, lastFrom_cons]

end LastWins

/-- The assignments that count are those that are the last to their keys. -/
theorem mem_lastWins_iff {content : String} {assignment : Assignment} :
    assignment ∈ lastWins (assignments content) ↔
      LastAssigned (content.toList.splitOn '\n') assignment := by
  rw [assignments, mem_lastWins_assignmentsFrom_iff]
  simp only [LastFrom, LastAssigned, AssignedFrom, AssignedAt, inSection_false]

/-- Only one assignment to a key is the last. -/
theorem LastAssigned.unique {lines : List (List Char)} {key value value' : String}
    (last : LastAssigned lines ⟨key, value⟩) (last' : LastAssigned lines ⟨key, value'⟩) :
    value = value' := by
  obtain ⟨index, assigned, none_later⟩ := last
  obtain ⟨index', assigned', none_later'⟩ := last'
  rcases Nat.lt_trichotomy index index' with before | rfl | behind
  · exact absurd assigned' (none_later index' value' before)
  · obtain ⟨-, line, among, makes⟩ := assigned
    obtain ⟨-, line', among', makes'⟩ := assigned'
    obtain rfl := Option.some.inj (among.symm.trans among')
    rw [← made?_eq_some_iff] at makes makes'
    exact (Assignment.mk.inj (Option.some.inj (makes.symm.trans makes'))).2
  · exact absurd assigned (none_later' index value behind)

end Brainfuck.Config
