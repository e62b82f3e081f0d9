/-! White space, as the Unicode property `White_Space` has it, and text without it at its ends. -/

namespace Brainfuck.Text

/-- The characters with the property `White_Space`, twenty-five in all. -/
def isBlank (c : Char) : Bool :=
  let code := c.toNat
  (0x09 ≤ code && code ≤ 0x0D) || code == 0x20 || code == 0x85 || code == 0xA0 || code == 0x1680 ||
    (0x2000 ≤ code && code ≤ 0x200A) || code == 0x2028 || code == 0x2029 || code == 0x202F ||
    code == 0x205F || code == 0x3000

/-- A text without the characters at its end that satisfy `p`. -/
def dropEndWhile (p : Char → Bool) (text : List Char) : List Char :=
  (text.reverse.dropWhile p).reverse

/-- A text without the blanks at its two ends. -/
def trimChars (text : List Char) : List Char :=
  dropEndWhile isBlank (text.dropWhile isBlank)

def trim (text : String) : String := String.ofList (trimChars text.toList)

/-- Whether a text has no character but blanks. -/
def allBlank (text : String) : Bool := text.toList.all isBlank

/-- A text without the line feeds and carriage returns at its end. -/
def chomp (line : String) : String :=
  String.ofList (dropEndWhile (fun c => c == '\n' || c == '\r') line.toList)

theorem dropEndWhile_concat {p : Char → Bool} {c : Char} (drops : p c) (text : List Char) :
    dropEndWhile p (text ++ [c]) = dropEndWhile p text := by
  rw [dropEndWhile, List.reverse_append, List.reverse_singleton, List.singleton_append,
    List.dropWhile_cons_of_pos drops, dropEndWhile]

theorem dropEndWhile_concat_of_not {p : Char → Bool} {c : Char} (keeps : p c = false)
    (text : List Char) : dropEndWhile p (text ++ [c]) = text ++ [c] := by
  rw [dropEndWhile, List.reverse_append, List.reverse_singleton, List.singleton_append,
    List.dropWhile_cons_of_neg (by simp [keeps]), List.reverse_cons, List.reverse_reverse]

theorem trimChars_concat {c : Char} (blank : isBlank c) (text : List Char) :
    trimChars (text ++ [c]) = trimChars text := by
  rw [trimChars, List.dropWhile_append]
  split
  next none_left =>
    rw [List.isEmpty_iff] at none_left
    simp [trimChars, none_left, blank]
  · exact dropEndWhile_concat blank _

/-- What is trimmed in the end need not be dropped before. -/
theorem trimChars_dropEndWhile {p : Char → Bool} (blank : ∀ c, p c → isBlank c)
    (text : List Char) : trimChars (dropEndWhile p text) = trimChars text := by
  obtain ⟨back, rfl⟩ : ∃ back : List Char, text = back.reverse := ⟨_, text.reverse_reverse.symm⟩
  induction back with
  | nil => rfl
  | cons c back ih =>
    rw [List.reverse_cons]
    cases drops : p c with
    | true => rw [dropEndWhile_concat drops, ih, trimChars_concat (blank c drops)]
    | false => rw [dropEndWhile_concat_of_not drops]

/-- The end of a line is white space. -/
theorem trim_chomp (line : String) : trim (chomp line) = trim line := by
  have blank : ∀ c, (c == '\n' || c == '\r') = true → isBlank c := by
    intro c ends
    obtain rfl | rfl : c = '\n' ∨ c = '\r' := by simpa using ends
    all_goals decide
  rw [trim, chomp, String.toList_ofList, trimChars_dropEndWhile blank, trim]

end Brainfuck.Text
