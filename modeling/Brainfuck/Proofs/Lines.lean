import Mathlib.Data.List.SplitBy
import Brainfuck.Input

/-! Line feeds behind a stream.  The first completes the last line, if that lacks its end, and the
line reads as before; each of the others is a blank line. -/

namespace Brainfuck

namespace Text

theorem chomp_lineFeed (text : String) : chomp (text ++ "\n") = chomp text := by
  have list : (text ++ "\n").toList = text.toList ++ ['\n'] := String.toList_append ..
  rw [chomp, list, dropEndWhile_concat (by decide), chomp]

namespace Line

variable {line line' rest : Line} {text : String} {bytes : List UInt8} {count : Nat}

/-- The byte that ends a line, alone. -/
def blank : Line := [10]

theorem text?_eq_some_iff : line.text? = some text ↔ line = ofString text := by
  constructor
  · intro read
    unfold text? String.fromUTF8? at read
    split at read
    · cases read
      rfl
    · contradiction
  · rintro rfl
    exact text?_ofString text

theorem ofString_eq (text : String) :
    ofString text = text.toList.flatMap String.utf8EncodeChar := by
  have encoded : text.toList.utf8Encode = text.toByteArray := String.utf8Encode_toList
  rw [ofString, String.toUTF8_eq_toByteArray, ← encoded, List.utf8Encode]
  exact List.toList_data_toByteArray

theorem ofString_append (text more : String) :
    ofString (text ++ more) = ofString text ++ ofString more := by
  simp only [ofString_eq, String.toList_append, List.flatMap_append]

/-- Among the bytes of a character only the first can be a line feed. -/
theorem eq_nil_of_utf8EncodeChar {c : Char} {front : List UInt8}
    (encoded : String.utf8EncodeChar c = front ++ [10]) : front = [] := by
  have inside : front.length < (String.utf8EncodeChar c).length := by simp [encoded]
  have at_end : (String.utf8EncodeChar c)[front.length] = 10 := by
    simp [encoded]
  have first : (String.utf8EncodeChar c)[front.length].IsUTF8FirstByte := by
    rw [at_end]
    decide
  exact List.length_eq_zero_iff.mp (UInt8.isUTF8FirstByte_getElem_utf8EncodeChar.mp first)

theorem exists_ofString_of_concat (whole : ofString text = line ++ [10]) :
    ∃ front, line = ofString front := by
  rw [ofString_eq] at whole
  obtain empty | ⟨front, c, chars⟩ := List.eq_nil_or_concat text.toList
  · rw [empty] at whole
    simp at whole
  · rw [chars, List.concat_eq_append, List.flatMap_append, List.flatMap_singleton] at whole
    obtain empty | ⟨early, last, encoded⟩ := List.eq_nil_or_concat (String.utf8EncodeChar c)
    · exact absurd empty String.utf8EncodeChar_ne_nil
    · rw [List.concat_eq_append] at encoded
      rw [encoded, ← List.append_assoc] at whole
      obtain ⟨before, same⟩ := List.append_inj' whole rfl
      obtain rfl := List.singleton_inj.mp same
      obtain rfl := eq_nil_of_utf8EncodeChar encoded
      refine ⟨String.ofList front, ?_⟩
      rw [ofString_eq, String.toList_ofList, ← before, List.append_nil]

theorem text?_concat (line : Line) : text? (line ++ [10]) = (text? line).map (· ++ "\n") := by
  cases read : text? line with
  | some text =>
    rw [text?_eq_some_iff.mp read]
    exact text?_eq_some_iff.mpr (ofString_append text "\n").symm
  | none =>
    cases whole : text? (line ++ [10]) with
    | none => rfl
    | some text =>
      obtain ⟨front, rfl⟩ := exists_ofString_of_concat (text?_eq_some_iff.mp whole).symm
      rw [text?_ofString] at read
      contradiction

/-- Two lines that read as the same text, their ends apart; or neither is text. -/
def Alike (line line' : Line) : Prop := line.text?.map chomp = line'.text?.map chomp

theorem alike_concat (line : Line) : Alike line (line ++ [10]) := by
  rw [Alike, text?_concat, Option.map_map]
  cases text? line with
  | none => rfl
  | some text => exact congrArg some (chomp_lineFeed text).symm

theorem Alike.text? (alike : Alike line line') (read : line.text? = some text) :
    ∃ text', line'.text? = some text' ∧ chomp text' = chomp text := by
  rw [Alike, read, Option.map_some] at alike
  exact Option.map_eq_some_iff.mp alike.symm

theorem Alike.text?_eq_none (alike : Alike line line') (unread : line.text? = none) :
    line'.text? = none := by
  rw [Alike, unread, Option.map_none] at alike
  exact Option.map_eq_none_iff.mp alike.symm

theorem answer_eq (line : Line) :
    Input.answer line = (line.text?.map chomp).elim (.error notText) .ok := by
  rw [Input.answer]
  cases line.text? <;> rfl

/-- Lines alike answer a read alike. -/
theorem Alike.answer_eq (alike : Alike line line') : Input.answer line = Input.answer line' := by
  rw [Line.answer_eq, Line.answer_eq, alike]

theorem text?_blank : text? blank = some "\n" := text?_eq_some_iff.mpr (by decide)

/-- A blank line answers a read as the end of input does. -/
theorem answer_blank : Input.answer blank = Input.answer [] := by
  have empty : text? [] = some "" := text?_eq_some_iff.mpr (by decide)
  rw [Input.answer, Input.answer, text?_blank, empty]
  rfl

theorem split_concat {front : List UInt8} (inside : ∀ byte ∈ front, byte ≠ 10) (byte : UInt8) :
    split (front ++ [byte]) = [front ++ [byte]] := by
  apply List.splitBy_of_isChain (by simp)
  rw [List.isChain_iff_getElem]
  intro position before_last
  have early : position < front.length := by
    rw [List.length_append, List.length_singleton] at before_last
    omega
  rw [List.getElem_append_left early]
  simpa using inside _ (List.getElem_mem early)

theorem split_cons {front : List UInt8} (inside : ∀ byte ∈ front, byte ≠ 10)
    (rest : List UInt8) : split (front ++ 10 :: rest) = (front ++ [10]) :: split rest := by
  have whole : front ++ 10 :: rest = front ++ [10] ++ rest := by simp
  have apart : split (front ++ [10] ++ rest) = split (front ++ [10]) ++ split rest := by
    apply List.splitBy_append
    intro last among
    rw [List.getLast?_concat, Option.mem_some_iff] at among
    subst among
    simp
  rw [whole, apart, split_concat inside, List.singleton_append]

/-- A stream is what is left of one line, or its first line ends in front of the others. -/
theorem eq_unended_or_line (bytes : List UInt8) : (∀ byte ∈ bytes, byte ≠ 10) ∨
    ∃ front rest, (∀ byte ∈ front, byte ≠ 10) ∧ bytes = front ++ 10 :: rest := by
  by_cases among : (10 : UInt8) ∈ bytes
  · obtain ⟨front, rest, rfl, absent⟩ := List.eq_append_cons_of_mem among
    exact .inr ⟨front, rest, fun byte mem same => absent (same ▸ mem), rfl⟩
  · exact .inl fun byte mem same => among (same ▸ mem)

theorem split_blanks (count : Nat) :
    split (List.replicate count 10) = List.replicate count blank := by
  induction count with
  | zero => rfl
  | succ count ih =>
    rw [List.replicate_succ, List.replicate_succ, ← ih]
    exact split_cons (fun byte mem => absurd mem List.not_mem_nil) (List.replicate count 10)

/-- The second list has the lines of the first, alike, and then so many blank ones. -/
inductive Padded : Nat → List Line → List Line → Prop
  | blanks (count : Nat) : Padded count [] (List.replicate count blank)
  | line {count : Nat} {line line' : Line} {rest rest' : List Line} (alike : Alike line line')
      (padded : Padded count rest rest') : Padded count (line :: rest) (line' :: rest')

theorem Padded.refl (lines : List Line) : Padded 0 lines lines := by
  induction lines with
  | nil => exact .blanks 0
  | cons line lines ih => exact .line rfl ih

/-- Behind what is left of one line the first line feed makes this line complete. -/
theorem exists_padded_of_unended (inside : ∀ byte ∈ bytes, byte ≠ 10) (count : Nat) :
    ∃ left, count ≤ left + 1 ∧
      Padded left (split bytes) (split (bytes ++ List.replicate count 10)) := by
  obtain rfl | ⟨early, last, rfl⟩ := List.eq_nil_or_concat bytes
  · refine ⟨count, Nat.le_succ count, ?_⟩
    rw [List.nil_append, split_blanks]
    exact .blanks count
  · cases count with
    | zero =>
      refine ⟨0, Nat.zero_le 1, ?_⟩
      rw [List.replicate_zero, List.append_nil]
      exact .refl _
    | succ count =>
      refine ⟨count, Nat.le_refl _, ?_⟩
      rw [List.replicate_succ, split_cons inside, split_blanks]
      rw [List.concat_eq_append] at inside ⊢
      have early_inside : ∀ byte ∈ early, byte ≠ 10 :=
        fun byte mem => inside byte (List.mem_append_left _ mem)
      rw [split_concat early_inside]
      exact .line (alike_concat _) (.blanks count)

/-- Line feeds behind a stream are as many blank lines behind its lines, or one less. -/
theorem exists_padded_split (bytes : List UInt8) (count : Nat) : ∃ left, count ≤ left + 1 ∧
    Padded left (split bytes) (split (bytes ++ List.replicate count 10)) := by
  induction length : bytes.length using Nat.strong_induction_on generalizing bytes with
  | _ length ih =>
    subst length
    obtain inside | ⟨front, rest, inside, rfl⟩ := eq_unended_or_line bytes
    · exact exists_padded_of_unended inside count
    · have shorter : rest.length < (front ++ 10 :: rest).length := by
        rw [List.length_append, List.length_cons]
        omega
      obtain ⟨left, enough, padded⟩ := ih rest.length shorter rest rfl
      refine ⟨left, enough, ?_⟩
      rw [List.append_assoc, List.cons_append, split_cons inside, split_cons inside]
      exact .line rfl padded

end Line
end Text
end Brainfuck
