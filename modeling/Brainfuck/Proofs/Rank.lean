import Brainfuck.Proofs.Partner

/-! Programs without their comments.  The rank of a position counts the instructions before it, so
an instruction stands in the program without comments at its rank, and so does its partner. -/

namespace Brainfuck

def isCode (c : Char) : Bool := (Instruction.ofChar? c).isSome

theorem depthAfter_filter {depth : Nat} {text : List Char} :
    depthAfter depth (text.filter isCode) = depthAfter depth text := by
  induction text generalizing depth with
  | nil => rfl
  | cons c text ih =>
    cases code : isCode c with
    | true => simp [code, ih]
    | false =>
      have other : Bracket.ofChar? c = none := by
        rw [Option.eq_none_iff_forall_ne_some]
        intro bracket of_char
        rw [← Instruction.ofChar?_eq_loop_iff] at of_char
        simp [isCode, of_char] at code
      simp [code, ih, nest_of_none other]

theorem balanced_filter_iff {text : List Char} : Balanced (text.filter isCode) ↔ Balanced text := by
  rw [balanced_iff_depthAfter, balanced_iff_depthAfter, depthAfter_filter]

theorem isCode_char (bracket : Bracket) : isCode bracket.char := by
  cases bracket <;> rfl

namespace Program

/-- The program without its comments. -/
def code (program : Program) : Program := program.filter isCode

/-- The number of instructions before a position. -/
def rank (program : Program) (position : Nat) : Nat := (program.toList.take position).countP isCode

def IsCodeAt (program : Program) (position : Nat) : Prop :=
  ∃ c, program[position]? = some c ∧ isCode c

/-- Nothing but comments stands between two positions. -/
def NoCodeBetween (program : Program) (first stop : Nat) : Prop :=
  ∀ position, first < position → position < stop → ¬ program.IsCodeAt position

instance (program : Program) (position : Nat) : Decidable (program.IsCodeAt position) :=
  decidable_of_iff (program[position]?.any isCode) (Option.any_eq_true ..)

instance (program : Program) (first stop : Nat) : Decidable (program.NoCodeBetween first stop) :=
  decidable_of_iff (∀ position < stop, first < position → ¬ program.IsCodeAt position)
    ⟨fun comments position lt lt' => comments position lt' lt,
      fun comments position lt' lt => comments position lt lt'⟩

variable {program : Program} {position other first stop : Nat} {c : Char} {bracket : Bracket}

theorem rank_succ (at_position : program[position]? = some c) :
    program.rank (position + 1) = program.rank position + if isCode c then 1 else 0 := by
  rw [← Array.getElem?_toList] at at_position
  rw [rank, rank, List.take_add_one, at_position, List.countP_append]
  simp [List.countP_cons]

theorem rank_next (code : program.IsCodeAt position) :
    program.rank (position + 1) = program.rank position + 1 := by
  obtain ⟨c, at_position, code⟩ := code
  rw [rank_succ at_position, if_pos code]

theorem rank_mono (le : position ≤ other) : program.rank position ≤ program.rank other := by
  exact (List.take_sublist_take_left le).countP_le

theorem rank_lt (code : program.IsCodeAt position) (lt : position < other) :
    program.rank position < program.rank other := by
  have le : program.rank (position + 1) ≤ program.rank other := rank_mono lt
  rwa [rank_next code] at le

theorem rank_of_size_le (le : program.size ≤ position) :
    program.rank position = program.code.size := by
  rw [rank, List.take_of_length_le (by simpa using le), List.countP_eq_length_filter, code,
    ← Array.length_toList, Array.toList_filter]

theorem filter_getElem?_countP {text : List Char} (at_position : text[position]? = some c)
    (code : isCode c) : (text.filter isCode)[(text.take position).countP isCode]? = some c := by
  induction text generalizing position with
  | nil => contradiction
  | cons d text ih =>
    cases position with
    | zero =>
      obtain rfl : d = c := Option.some.inj at_position
      simp [code]
    | succ position =>
      have inside : text[position]? = some c := at_position
      have tail := ih inside
      cases head : isCode d <;> simpa [head] using tail

theorem exists_countP_of_filter {text : List Char} {count : Nat}
    (at_rank : (text.filter isCode)[count]? = some c) :
    ∃ position, text[position]? = some c ∧ (text.take position).countP isCode = count := by
  induction text generalizing count with
  | nil => contradiction
  | cons d text ih =>
    cases head : isCode d with
    | false =>
      rw [List.filter_cons_of_neg (by simp [head])] at at_rank
      obtain ⟨position, at_position, rfl⟩ := ih at_rank
      exact ⟨position + 1, at_position, by simp [head]⟩
    | true =>
      rw [List.filter_cons_of_pos head] at at_rank
      cases count with
      | zero => exact ⟨0, at_rank, rfl⟩
      | succ count =>
        obtain ⟨position, at_position, rfl⟩ := ih at_rank
        exact ⟨position + 1, at_position, by simp [head]⟩

theorem toList_code : program.code.toList = program.toList.filter isCode := Array.toList_filter

theorem code_code : program.code.code = program.code := by
  simp [code, Array.filter_filter]

/-- An instruction stands at its rank in the program without comments. -/
theorem code_getElem?_rank (at_position : program[position]? = some c) (code : isCode c) :
    program.code[program.rank position]? = some c := by
  rw [← Array.getElem?_toList] at at_position
  rw [← Array.getElem?_toList, toList_code]
  exact filter_getElem?_countP at_position code

theorem isCodeAt_rank (code : program.IsCodeAt position) :
    program.code.IsCodeAt (program.rank position) := by
  obtain ⟨c, at_position, code⟩ := code
  exact ⟨c, code_getElem?_rank at_position code, code⟩

theorem exists_rank_eq {count : Nat} (at_rank : program.code[count]? = some c) :
    ∃ position, program[position]? = some c ∧ program.rank position = count := by
  rw [← Array.getElem?_toList, toList_code] at at_rank
  obtain ⟨position, at_position, same⟩ := exists_countP_of_filter at_rank
  exact ⟨position, by rwa [Array.getElem?_toList] at at_position, same⟩

theorem take_countP_filter {text : List Char} {count : Nat} :
    (text.filter isCode).take ((text.take count).countP isCode) =
      (text.take count).filter isCode := by
  have split := List.filter_append (p := isCode) (text.take count) (text.drop count)
  rw [List.take_append_drop] at split
  rw [split, List.countP_eq_length_filter, List.take_left]

theorem rank_code : program.code.rank (program.rank position) = program.rank position := by
  rw [rank, toList_code, rank, take_countP_filter, List.countP_filter]
  simp

theorem drop_countP_filter {text : List Char} {count : Nat} :
    (text.filter isCode).drop ((text.take count).countP isCode) =
      (text.drop count).filter isCode := by
  have split := List.filter_append (p := isCode) (text.take count) (text.drop count)
  rw [List.take_append_drop] at split
  rw [split, List.countP_eq_length_filter, List.drop_left]

theorem between_rank (le : first ≤ stop) :
    program.code.between (program.rank first) (program.rank stop) =
      (program.between first stop).filter isCode := by
  obtain ⟨more, rfl⟩ := Nat.exists_eq_add_of_le le
  have length : program.rank (first + more) - program.rank first =
      ((program.toList.drop first).take more).countP isCode := by
    rw [rank, rank, List.take_add, List.countP_append, Nat.add_sub_cancel_left]
  rw [between, between, Array.toList_extract, Array.toList_extract, List.extract_eq_take_drop,
    List.extract_eq_take_drop, toList_code, length, rank, drop_countP_filter, take_countP_filter,
    Nat.add_sub_cancel_left]

theorem Loop.rank {opening closing : Nat} (loop : program.Loop opening closing) :
    program.code.Loop (program.rank opening) (program.rank closing) where
  lt := rank_lt ⟨_, loop.opens, rfl⟩ loop.lt
  opens := code_getElem?_rank loop.opens rfl
  closes := code_getElem?_rank loop.closes rfl
  body := by
    rw [← rank_next ⟨_, loop.opens, rfl⟩, between_rank loop.lt, balanced_filter_iff]
    exact loop.body

/-- Every loop of the program without comments is one of the program. -/
theorem Loop.of_rank {opening closing : Nat} (loop : program.code.Loop opening closing) :
    ∃ opening' closing', program.Loop opening' closing' ∧ program.rank opening' = opening ∧
      program.rank closing' = closing := by
  obtain ⟨opening, opens, rfl⟩ := exists_rank_eq loop.opens
  obtain ⟨closing, closes, rfl⟩ := exists_rank_eq loop.closes
  have lt : opening < closing :=
    Nat.lt_of_not_le fun ge => absurd (rank_mono ge) (Nat.not_le_of_lt loop.lt)
  have body := loop.body
  rw [← rank_next ⟨_, opens, rfl⟩, between_rank lt, balanced_filter_iff] at body
  exact ⟨opening, closing, ⟨lt, opens, closes, body⟩, rfl, rfl⟩

theorem rank_injective (code : program.IsCodeAt position) (code' : program.IsCodeAt other)
    (same : program.rank position = program.rank other) : position = other := by
  rcases Nat.lt_trichotomy position other with lt | rfl | gt
  · exact absurd same (Nat.ne_of_lt (rank_lt code lt))
  · rfl
  · exact absurd same (Nat.ne_of_gt (rank_lt code' gt))

theorem Paired.of_rank {partner : Nat} (code : program.IsCodeAt position)
    (paired : program.code.Paired (program.rank position) partner) :
    ∃ partner, program.Paired position partner := by
  obtain loop | loop := paired
  · obtain ⟨opening, closing, loop', same, -⟩ := loop.of_rank
    obtain rfl := rank_injective ⟨_, loop'.opens, rfl⟩ code same
    exact ⟨closing, .inl loop'⟩
  · obtain ⟨opening, closing, loop', -, same⟩ := loop.of_rank
    obtain rfl := rank_injective ⟨_, loop'.closes, rfl⟩ code same
    exact ⟨opening, .inr loop'⟩

theorem isCodeAt_of_partners {partner : Nat}
    (partners : program.Partners position bracket partner) : program.IsCodeAt partner :=
  ⟨_, partners.at_partner, isCode_char _⟩

/-- The search for a partner finds the bracket of the same rank without the comments. -/
theorem target_code_rank (at_bracket : program[position]? = some bracket.char) :
    program.code.target (program.rank position) bracket =
      (program.target position bracket).map program.rank := by
  have at_rank := code_getElem?_rank at_bracket (isCode_char bracket)
  cases found : program.target position bracket with
  | ok partner =>
    rw [target_eq_ok_iff, ← paired_iff_partners at_bracket] at found
    rw [Except.map, target_eq_ok_iff, ← paired_iff_partners at_rank]
    exact found.imp Loop.rank Loop.rank
  | error fault =>
    rw [target_eq_error_iff] at found
    obtain ⟨no_partner, rfl⟩ := found
    rw [Except.map, target_eq_error_iff]
    refine ⟨?_, rfl⟩
    rintro ⟨partner, partners⟩
    rw [← paired_iff_partners at_rank] at partners
    obtain ⟨partner, paired⟩ := partners.of_rank ⟨_, at_bracket, isCode_char bracket⟩
    exact no_partner ⟨partner, (paired_iff_partners at_bracket).mp paired⟩

end Program
end Brainfuck
