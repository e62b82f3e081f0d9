import Mathlib.Data.List.Nodup
import Brainfuck.Proofs.Assignments
import Brainfuck.Proofs.Spelling

/-! How settings are found.  Each of the four has a key in the configuration file; the last
assignment to the key decides it, and the built-in value stands where there is none or its value is
of no use.  So the order in which the last assignments are carried out does not matter.  An option
on the command line outranks the file in its own setting and leaves the others alone. -/

namespace Brainfuck.Config

open Text

/-! ### The values of the keys -/

def policy? (value : String) : Option OverflowPolicy := (parseBool value).map .ofClassic

def format? (value : String) : Option CellFormat := (parseBool value).map .ofNumeric

def tapeLength? (value : String) : Option Nat := (parseCount value).filter (1 ≤ ·)

def IsPolicy (value : String) (policy : OverflowPolicy) : Prop :=
  ∃ truth, IsTruth value truth ∧ (if truth then .classic else .strict) = policy

def IsFormat (value : String) (format : CellFormat) : Prop :=
  ∃ truth, IsTruth value truth ∧ (if truth then .numeric else .character) = format

def IsTapeLength (value : String) (length : Nat) : Prop := IsCount value length ∧ 1 ≤ length

/-- An assignment to a known key of a value that the key has a use for. -/
def Usable (assignment : Assignment) : Prop :=
  (assignment.key ∈ ["classic", "numeric_input", "numeric_output"] ∧
    ∃ truth, IsTruth assignment.value truth) ∨
  (assignment.key = "memory" ∧ ∃ length, IsTapeLength assignment.value length)

section Values

variable {value : String}

theorem policy?_eq_some_iff {policy : OverflowPolicy} :
    policy? value = some policy ↔ IsPolicy value policy := by
  rw [policy?, Option.map_eq_some_iff]
  exact exists_congr fun truth => and_congr parseBool_eq_some_iff (by cases truth <;> rfl)

theorem format?_eq_some_iff {format : CellFormat} :
    format? value = some format ↔ IsFormat value format := by
  rw [format?, Option.map_eq_some_iff]
  exact exists_congr fun truth => and_congr parseBool_eq_some_iff (by cases truth <;> rfl)

theorem tapeLength?_eq_some_iff {length : Nat} :
    tapeLength? value = some length ↔ IsTapeLength value length := by
  rw [tapeLength?, Option.filter_eq_some_iff, parseCount_eq_some_iff, decide_eq_true_eq,
    IsTapeLength]

end Values

/-- A setting behind an assignment, if it is the one with this key. -/
def decided {α : Type} (key : String) (read : String → Option α) (old : α)
    (assignment : Assignment) : α :=
  if assignment.key = key then (read assignment.value).getD old else old

/-- The settings behind an assignment, one by one. -/
def assigned (settings : Settings) (assignment : Assignment) : Settings where
  policy := decided "classic" policy? settings.policy assignment
  input := decided "numeric_input" format? settings.input assignment
  output := decided "numeric_output" format? settings.output assignment
  tapeLength := decided "memory" tapeLength? settings.tapeLength assignment

section Assign

variable {settings : Settings} {assignment : Assignment}

theorem getD_assign? :
    (assign? settings assignment).getD settings = assigned settings assignment := by
  obtain ⟨key, value⟩ := assignment
  rw [assign?, assigned]
  split
  case h_1 _ known | h_2 _ known | h_3 _ known =>
    obtain rfl : key = _ := known
    cases read : parseBool value <;> simp [decided, policy?, format?, read]
  case h_4 _ known =>
    obtain rfl : key = _ := known
    cases read : (parseCount value).filter (1 ≤ ·) <;> simp [decided, tapeLength?, read]
  case h_5 classic input output memory => simp_all [decided]

theorem isNone_assign?_iff : (assign? settings assignment).isNone ↔ ¬ Usable assignment := by
  obtain ⟨key, value⟩ := assignment
  simp only [assign?, Usable, IsTapeLength, ← parseBool_eq_some_iff, ← parseCount_eq_some_iff]
  split
  case h_1 | h_2 | h_3 => cases read : parseBool value <;> simp
  case h_4 => cases read : parseCount value <;> simp
  case h_5 => simp_all

end Assign

/-! ### The last assignments in any order -/

/-- Carries out an assignment, or notes it as one of no use. -/
def carryOut : Settings × List Assignment → Assignment → Settings × List Assignment
  | (settings, useless), assignment =>
    match assign? settings assignment with
    | some settings => (settings, useless)
    | none => (settings, useless ++ [assignment])

/-- The built-in settings behind some assignments, and those of no use among them. -/
def resolve (entries : List Assignment) : Settings × List Assignment :=
  entries.foldl carryOut ({}, [])

/-- The last assignments of some lines, one to each key, in any order. -/
structure Lists (lines : List (List Char)) (entries : List Assignment) : Prop where
  nodup : (entries.map (·.key)).Nodup
  mem_iff : ∀ assignment, assignment ∈ entries ↔ LastAssigned lines assignment

/-- The value of a setting by the last assignment to its key, and the built-in one where there is
none or it is of no use.  `means` tells which values are of use, and for what. -/
inductive Gives {α : Type} (lines : List (List Char)) (key : String) (means : String → α → Prop)
    (builtIn : α) : α → Prop
  | last {value : String} {setting : α} (last : LastAssigned lines ⟨key, value⟩)
      (usable : means value setting) : Gives lines key means builtIn setting
  | useless {value : String} (last : LastAssigned lines ⟨key, value⟩)
      (useless : ∀ setting, ¬ means value setting) : Gives lines key means builtIn builtIn
  | absent (absent : ∀ value, ¬ LastAssigned lines ⟨key, value⟩) :
      Gives lines key means builtIn builtIn

section Order

variable {α : Type} {lines : List (List Char)} {entries : List Assignment} {settings : Settings}
  {key value : String} {read : String → Option α} {means : String → α → Prop}
  {old builtIn setting setting' : α}

theorem Gives.eq_of_last (means_iff : ∀ {value setting}, read value = some setting ↔
      means value setting) (gives : Gives lines key means builtIn setting)
    (last : LastAssigned lines ⟨key, value⟩) : setting = (read value).getD builtIn := by
  cases gives with
  | last last' usable =>
    obtain rfl := last.unique last'
    rw [means_iff.mpr usable, Option.getD_some]
  | useless last' useless =>
    obtain rfl := last.unique last'
    have unread : read value = none := Option.eq_none_iff_forall_ne_some.mpr fun setting given =>
      useless setting (means_iff.mp given)
    rw [unread, Option.getD_none]
  | absent absent => exact absurd last (absent value)

theorem Gives.eq_of_absent (gives : Gives lines key means builtIn setting)
    (absent : ∀ value, ¬ LastAssigned lines ⟨key, value⟩) : setting = builtIn := by
  cases gives with
  | last last => exact absurd last (absent _)
  | useless | absent => rfl

theorem Gives.unique (means_iff : ∀ {value setting}, read value = some setting ↔
      means value setting) (gives : Gives lines key means builtIn setting)
    (gives' : Gives lines key means builtIn setting') : setting = setting' := by
  by_cases assigned : ∃ value, LastAssigned lines ⟨key, value⟩
  · obtain ⟨value, last⟩ := assigned
    rw [gives.eq_of_last means_iff last, gives'.eq_of_last means_iff last]
  · rw [not_exists] at assigned
    rw [gives.eq_of_absent assigned, gives'.eq_of_absent assigned]

theorem foldl_assigned : entries.foldl assigned settings = {
    policy := entries.foldl (decided "classic" policy?) settings.policy
    input := entries.foldl (decided "numeric_input" format?) settings.input
    output := entries.foldl (decided "numeric_output" format?) settings.output
    tapeLength := entries.foldl (decided "memory" tapeLength?) settings.tapeLength } := by
  induction entries generalizing settings with
  | nil => rfl
  | cons assignment entries ih => simp only [List.foldl_cons, ih, assigned]

theorem foldl_decided_of_notMem (absent : key ∉ entries.map (·.key)) :
    entries.foldl (decided key read) old = old := by
  induction entries generalizing old with
  | nil => rfl
  | cons assignment entries ih =>
    rw [List.map_cons, List.mem_cons, not_or] at absent
    rw [List.foldl_cons, ih absent.2, decided, if_neg (Ne.symm absent.1)]

/-- Where no two assignments have one key, the one to the key decides, wherever it stands. -/
theorem foldl_decided_of_mem (nodup : (entries.map (·.key)).Nodup)
    (among : ⟨key, value⟩ ∈ entries) :
    entries.foldl (decided key read) old = (read value).getD old := by
  induction entries generalizing old with
  | nil => contradiction
  | cons assignment entries ih =>
    rw [List.map_cons, List.nodup_cons] at nodup
    rw [List.foldl_cons]
    obtain rfl | among := List.mem_cons.mp among
    · rw [foldl_decided_of_notMem nodup.1, decided, if_pos rfl]
    · have other : assignment.key ≠ key := fun same =>
        nodup.1 (same ▸ List.mem_map_of_mem (f := (·.key)) among)
      rw [ih nodup.2 among, decided, if_neg other]

theorem gives_foldl (means_iff : ∀ {value setting}, read value = some setting ↔
      means value setting) (listed : Lists lines entries) :
    Gives lines key means builtIn (entries.foldl (decided key read) builtIn) := by
  by_cases among : key ∈ entries.map (·.key)
  · obtain ⟨⟨_, value⟩, entry, rfl⟩ := List.mem_map.mp among
    rw [foldl_decided_of_mem listed.nodup entry]
    have last := (listed.mem_iff _).mp entry
    cases usable : read value with
    | some setting => exact .last last (means_iff.mp usable)
    | none =>
      exact .useless last fun setting given => by simp [means_iff.mpr given] at usable
  · rw [foldl_decided_of_notMem among]
    exact .absent fun value last =>
      among (List.mem_map_of_mem (f := (·.key)) ((listed.mem_iff _).mpr last))

theorem foldl_carryOut {useless : List Assignment} :
    entries.foldl carryOut (settings, useless) = (entries.foldl assigned settings,
      useless ++ entries.filter fun assignment => (assign? {} assignment).isNone) := by
  induction entries generalizing settings useless with
  | nil => simp
  | cons assignment entries ih =>
    -- Whether an assignment is of use does not depend on the settings before it.
    have none_iff : (assign? settings assignment).isNone = (assign? {} assignment).isNone := by
      rw [Bool.eq_iff_iff, isNone_assign?_iff, isNone_assign?_iff]
    rw [List.foldl_cons, List.foldl_cons, List.filter_cons, ← getD_assign?, ← none_iff, carryOut]
    cases assign? settings assignment <;> simp [ih]

theorem foldl_assign? : entries.foldl
    (fun settings assignment => (assign? settings assignment).getD settings) settings =
      entries.foldl assigned settings := by
  simp only [getD_assign?]

theorem Lists.perm {entries' : List Assignment} (listed : Lists lines entries)
    (listed' : Lists lines entries') : entries.Perm entries' :=
  (List.perm_ext_iff_of_nodup (List.Nodup.of_map _ listed.nodup)
    (List.Nodup.of_map _ listed'.nodup)).mpr
    fun assignment => (listed.mem_iff assignment).trans (listed'.mem_iff assignment).symm

end Order

variable {content : String} {entries : List Assignment} {assignment : Assignment}

theorem lists_lastWins (content : String) :
    Lists (content.toList.splitOn '\n') (lastWins (assignments content)) :=
  ⟨nodup_keys_lastWins _, fun _ => mem_lastWins_iff⟩

/-- The settings of some lines, in the words of their last assignments. -/
structure Settles (lines : List (List Char)) (settings : Settings) : Prop where
  policy : Gives lines "classic" IsPolicy .strict settings.policy
  input : Gives lines "numeric_input" IsFormat .character settings.input
  output : Gives lines "numeric_output" IsFormat .character settings.output
  tapeLength : Gives lines "memory" IsTapeLength 1000 settings.tapeLength

theorem Settles.unique {lines : List (List Char)} {settings settings' : Settings}
    (settles : Settles lines settings) (settles' : Settles lines settings') :
    settings = settings' := by
  obtain ⟨policy, input, output, tapeLength⟩ := settings
  obtain ⟨policy', input', output', tapeLength'⟩ := settings'
  obtain rfl : policy = policy' := settles.policy.unique policy?_eq_some_iff settles'.policy
  obtain rfl : input = input' := settles.input.unique format?_eq_some_iff settles'.input
  obtain rfl : output = output' := settles.output.unique format?_eq_some_iff settles'.output
  obtain rfl : tapeLength = tapeLength' :=
    settles.tapeLength.unique tapeLength?_eq_some_iff settles'.tapeLength
  rfl

theorem settles_resolve {lines : List (List Char)} (listed : Lists lines entries) :
    Settles lines (resolve entries).1 := by
  rw [resolve, foldl_carryOut, foldl_assigned]
  exact ⟨gives_foldl policy?_eq_some_iff listed, gives_foldl format?_eq_some_iff listed,
    gives_foldl format?_eq_some_iff listed, gives_foldl tapeLength?_eq_some_iff listed⟩

theorem settings_eq_resolve (content : String) :
    settings content = (resolve (lastWins (assignments content))).1 := by
  rw [resolve, foldl_carryOut, settings, foldl_assign?]

/-- The assignments of no use are the same in every order. -/
theorem perm_ignored (listed : Lists (content.toList.splitOn '\n') entries) :
    (resolve entries).2.Perm (ignored content) := by
  rw [resolve, foldl_carryOut, List.nil_append, ignored]
  exact ((listed.perm (lists_lastWins content)).filter _).trans (List.mergeSort_perm _ _).symm

theorem mem_ignored_iff : assignment ∈ ignored content ↔
    LastAssigned (content.toList.splitOn '\n') assignment ∧ ¬ Usable assignment := by
  rw [ignored, List.mem_mergeSort, List.mem_filter, mem_lastWins_iff, isNone_assign?_iff]

theorem one_le_of_gives {lines : List (List Char)} {key : String} {builtIn length : Nat}
    (positive : 1 ≤ builtIn) (gives : Gives lines key IsTapeLength builtIn length) :
    1 ≤ length := by
  cases gives with
  | last last usable => exact usable.2
  | useless | absent => exact positive

/-- The settings of a file are those of the last assignments to the four keys, where these are of
use, and the built-in ones elsewhere, in whatever order the last assignments are carried out; the
tape has a cell at least.  The assignments ignored are the last ones that are of no use.  Options
change the settings that they name and no others. -/
theorem settings_resolved (content : String) (flags : Overrides)
    (compatible : ¬ (flags.classic ∧ flags.strict)) :
    let lines := content.toList.splitOn '\n'
    let file := settings content
    let applied := flags.apply file
    Lists lines (lastWins (assignments content)) ∧
    (∀ entries, Lists lines entries →
      (resolve entries).1 = file ∧ (resolve entries).2.Perm (ignored content)) ∧
    Gives lines "classic" IsPolicy .strict file.policy ∧
    Gives lines "numeric_input" IsFormat .character file.input ∧
    Gives lines "numeric_output" IsFormat .character file.output ∧
    Gives lines "memory" IsTapeLength 1000 file.tapeLength ∧ 1 ≤ file.tapeLength ∧
    (∀ entry, entry ∈ ignored content ↔ LastAssigned lines entry ∧ ¬ Usable entry) ∧
    applied = {
      policy := if flags.classic then .classic else if flags.strict then .strict else file.policy
      input := if flags.numericInput then .numeric else file.input
      output := if flags.numericOutput then .numeric else file.output
      tapeLength := flags.memory.getD file.tapeLength } := by
  intro lines file applied
  have settles : Settles lines file := by
    rw [show file = _ from settings_eq_resolve content]
    exact settles_resolve (lists_lastWins content)
  refine ⟨lists_lastWins content, fun entries listed => ?_, settles.policy, settles.input,
    settles.output, settles.tapeLength, one_le_of_gives (by decide) settles.tapeLength,
    fun entry => mem_ignored_iff, ?_⟩
  · exact ⟨(settles_resolve listed).unique settles, perm_ignored listed⟩
  · simp only [applied, Overrides.apply]
    cases classic : flags.classic <;> cases strict : flags.strict <;> simp_all

/-- The tape length is given twice in the section, and once where it does not count; the policy is
given a word of no use in the end. -/
theorem settings_resolved_of_reopened :
    let content := "memory = 5\n[defaults]\nclassic = yes\nmemory = 0\n[other]\n" ++
      "numeric_input = on\n[defaults]\r\nnumeric_output = \" ON\"\n# classic = no\n" ++
      "memory = +30000\nclassic = maybe\ncolour = \"a=b]\n"
    let flags : Overrides := { classic := true, memory := some 12 }
    settings content = { output := .numeric, tapeLength := 30000 } ∧
    IsTapeLength "+30000" 30000 ∧ IsFormat " ON" .numeric ∧
    ⟨"colour", "\"a=b]"⟩ ∈ ignored content ∧ ⟨"classic", "maybe"⟩ ∈ ignored content ∧
    (¬ LastAssigned (content.toList.splitOn '\n') ⟨"memory", "0"⟩) ∧
    flags.apply (settings content) =
      { policy := .classic, output := .numeric, tapeLength := 12 } := by
  intro content flags
  have entries : lastWins (assignments content) = [⟨"numeric_output", " ON"⟩,
      ⟨"memory", "+30000"⟩, ⟨"classic", "maybe"⟩, ⟨"colour", "\"a=b]"⟩] := by decide +kernel
  have found : settings content = { output := .numeric, tapeLength := 30000 } := by
    rw [settings, entries]
    decide +kernel
  have ignores (entry : Assignment) (last : entry ∈ lastWins (assignments content))
      (useless : (assign? {} entry).isNone) : entry ∈ ignored content := by
    rw [ignored, List.mem_mergeSort]
    exact List.mem_filter.mpr ⟨last, useless⟩
  have length : LastAssigned (content.toList.splitOn '\n') ⟨"memory", "+30000"⟩ := by
    rw [← mem_lastWins_iff, entries]
    decide
  obtain ⟨-, -, -, -, -, -, -, -, applied⟩ := settings_resolved content flags (by decide)
  refine ⟨found, tapeLength?_eq_some_iff.mp (by decide +kernel),
    format?_eq_some_iff.mp (by decide +kernel), ignores _ (by rw [entries]; decide) (by decide),
    ignores _ (by rw [entries]; decide) (by decide +kernel), fun last => ?_,
    applied.trans (by rw [found]; rfl)⟩
  exact absurd (length.unique last) (by decide)

end Brainfuck.Config
