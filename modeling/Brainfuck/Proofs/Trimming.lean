import Mathlib.Data.List.DropRight
import Brainfuck.Text.Blank

/-! What is left of a text without its ends, told from the text as a whole: a line without the
characters that end it, and a text without the blanks around it. -/

namespace Brainfuck.Text

/-- The text is the other with nothing but line feeds and carriage returns behind it, and the other
has none at its end. -/
def Strips (text stripped : String) : Prop :=
  ∃ ends, text.toList = stripped.toList ++ ends ∧ (∀ c ∈ ends, c = '\n' ∨ c = '\r') ∧
    ∀ c, stripped.toList.getLast? = some c → c ≠ '\n' ∧ c ≠ '\r'

/-- The text is the other between blanks, if there are any, and the other has none at its ends. -/
def Trims (text inner : List Char) : Prop :=
  ∃ front back, text = front ++ (inner ++ back) ∧ (∀ c ∈ front, isBlank c) ∧
    (∀ c ∈ back, isBlank c) ∧ (∀ c, inner.head? = some c → isBlank c = false) ∧
    ∀ c, inner.getLast? = some c → isBlank c = false

variable {p : Char → Bool} {text inner ends : List Char}

theorem dropEndWhile_append (all : ∀ c ∈ ends, p c) :
    dropEndWhile p (text ++ ends) = dropEndWhile p text := by
  induction ends using List.reverseRecOn with
  | nil => rw [List.append_nil]
  | append_singleton ends c ih =>
    rw [List.forall_mem_append, List.forall_mem_singleton] at all
    rw [← List.append_assoc, dropEndWhile_concat all.2, ih all.1]

theorem dropEndWhile_of_getLast? (keeps : ∀ c, text.getLast? = some c → p c = false) :
    dropEndWhile p text = text := by
  obtain rfl | ⟨front, c, rfl⟩ := List.eq_nil_or_concat text
  · rfl
  · rw [List.concat_eq_append] at keeps ⊢
    exact dropEndWhile_concat_of_not (keeps c List.getLast?_concat) front

theorem getLast?_dropEndWhile {c : Char} (last : (dropEndWhile p text).getLast? = some c) :
    p c = false := by
  rw [dropEndWhile, List.getLast?_reverse] at last
  have dropped := List.head?_dropWhile_not p text.reverse
  rw [last] at dropped
  simpa using dropped

theorem exists_dropEndWhile_append (p : Char → Bool) (text : List Char) :
    ∃ ends, text = dropEndWhile p text ++ ends ∧ ∀ c ∈ ends, p c :=
  ⟨text.rtakeWhile p, List.rdropWhile_append_rtakeWhile.symm, fun _ => List.mem_rtakeWhile_imp⟩

theorem head?_dropEndWhile (keeps : ∀ c, text.head? = some c → p c = false) :
    (dropEndWhile p text).head? = text.head? := by
  obtain ⟨ends, whole, all⟩ := exists_dropEndWhile_append p text
  cases kept : dropEndWhile p text with
  | cons c front =>
    rw [kept] at whole
    rw [whole, List.cons_append, List.head?_cons, List.head?_cons]
  | nil =>
    -- All of the text satisfies `p`, so it has no first character.
    obtain rfl : text = ends := by rwa [kept] at whole
    cases text with
    | nil => rfl
    | cons c text =>
      have drops := all c List.mem_cons_self
      rw [keeps c rfl] at drops
      contradiction

theorem strips_iff {text stripped : String} : Strips text stripped ↔ chomp text = stripped := by
  constructor
  · rintro ⟨ends, whole, all, last⟩
    rw [chomp, whole, dropEndWhile_append (by simpa using all),
      dropEndWhile_of_getLast? (by simpa using last), String.ofList_toList]
  · rintro rfl
    obtain ⟨ends, whole, all⟩ :=
      exists_dropEndWhile_append (fun c => c == '\n' || c == '\r') text.toList
    rw [Strips, chomp, String.toList_ofList]
    refine ⟨ends, whole, by simpa using all, fun c last => ?_⟩
    simpa using getLast?_dropEndWhile last

theorem trims_iff : Trims text inner ↔ trimChars text = inner := by
  constructor
  · rintro ⟨front, back, rfl, before, behind, first, last⟩
    rw [trimChars, List.dropWhile_append_of_pos before]
    cases inner with
    | nil =>
      rw [List.nil_append, List.dropWhile_eq_nil_iff.mpr behind]
      rfl
    | cons c rest =>
      rw [List.cons_append, List.dropWhile_cons_of_neg (by simp [first c rfl]), ← List.cons_append,
        dropEndWhile_append behind, dropEndWhile_of_getLast? last]
  · rintro rfl
    obtain ⟨back, whole, behind⟩ := exists_dropEndWhile_append isBlank (text.dropWhile isBlank)
    have first : ∀ c, (text.dropWhile isBlank).head? = some c → isBlank c = false := by
      intro c first
      simpa [first] using List.head?_dropWhile_not isBlank text
    refine ⟨text.takeWhile isBlank, back, ?_, ?_, behind, fun c kept => ?_,
      fun c => getLast?_dropEndWhile⟩
    · rw [trimChars, ← whole, List.takeWhile_append_dropWhile]
    · exact fun c among => List.all_eq_true.mp List.all_takeWhile c among
    · exact first c (head?_dropEndWhile first ▸ kept)

end Brainfuck.Text
