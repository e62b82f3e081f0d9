import Brainfuck.Proofs.Checked
import Brainfuck.Proofs.Comments
import Brainfuck.Proofs.Numeral

/-! Cells written and read.  A character is read as the cell that is written as it.  A number is
written as its numeral, and the numeral is read as the number again as long as it has no more than
two digits.  So a `,` and a `.` with nothing but comments between them copy a character. -/

namespace Brainfuck

namespace CellFormat

/-- The numeral of a number: decimal digits, with no zero in front unless it is the only one. -/
structure Numeral (chars : List Char) (number : Nat) : Prop where
  nonempty : chars ≠ []
  digits : ∀ c ∈ chars, c.isDigit
  plain : chars.head? = some '0' → chars = ['0']
  value : Nat.ofDigitChars 10 chars 0 = number

variable {c : Char} {chars : List Char} {number : Nat} {value : UInt32} {text : String}

theorem exists_ones_of_isDigit (digit : c.isDigit) : ∃ ones ≤ 9, c.toNat = '0'.toNat + ones := by
  rw [Char.isDigit, Bool.and_eq_true, decide_eq_true_eq, decide_eq_true_eq] at digit
  obtain ⟨low, high⟩ := digit
  have low : 48 ≤ c.toNat := UInt32.le_iff_toNat_le.mp low
  have high : c.toNat ≤ 57 := UInt32.le_iff_toNat_le.mp high
  exact ⟨c.toNat - 48, by omega, by rw [toNat_zero]; omega⟩

theorem digitChar_eq {ones : Nat} (le : ones ≤ 9) (code : c.toNat = '0'.toNat + ones) :
    Nat.digitChar ones = c := by
  apply Char.toNat_inj.mp
  rw [Nat.toNat_digitChar_of_lt_ten (Nat.lt_succ_of_le le), code, toNat_zero]

theorem eq_zero_of_head?_toDigits (zero : (Nat.toDigits 10 number).head? = some '0') :
    number = 0 := by
  induction number using Nat.strongRecOn with
  | ind number ih =>
    by_cases small : number < 10
    · rw [Nat.toDigits_of_lt_base small, List.head?_cons, Option.some.injEq] at zero
      exact Nat.digitChar_eq_zero.mp zero
    · rw [Nat.toDigits_of_base_le (by decide) (Nat.not_lt.mp small), List.head?_append,
        Option.or_of_isSome (by simp)] at zero
      have tens := ih (number / 10) (by omega) zero
      omega

theorem numeral_toDigits (number : Nat) : Numeral (Nat.toDigits 10 number) number where
  nonempty := Nat.toDigits_ne_nil
  digits := fun _ among => Nat.isDigit_of_mem_toDigits (by decide) (by decide) among
  plain := fun zero => by rw [eq_zero_of_head?_toDigits zero, Nat.toDigits_zero]
  value := Nat.ofDigitChars_ten_toDigits

/-- Digits behind the numeral of a number that is not zero. -/
theorem toDigits_append (positive : 0 < number) (digits : ∀ c ∈ chars, c.isDigit) :
    Nat.toDigits 10 number ++ chars = Nat.toDigits 10 (Nat.ofDigitChars 10 chars number) := by
  induction chars generalizing number with
  | nil => rw [Nat.ofDigitChars_nil, List.append_nil]
  | cons c rest ih =>
    obtain ⟨ones, le, code⟩ := exists_ones_of_isDigit (digits c List.mem_cons_self)
    have small : ones < 10 := Nat.lt_succ_of_le le
    have longer : Nat.toDigits 10 number ++ [c] = Nat.toDigits 10 (10 * number + ones) := by
      rw [← digitChar_eq le code, ← Nat.toDigits_of_lt_base small,
        Nat.toDigits_append_toDigits (by decide) positive small]
    have behind := ih (show 0 < 10 * number + ones by omega) fun d among =>
      digits d (List.mem_cons_of_mem _ among)
    rw [List.append_cons, longer, behind, ← digitChar_eq le code,
      Nat.ofDigitChars_cons_digitChar_of_lt_ten small]

/-- A number has one numeral. -/
theorem Numeral.eq_toDigits (numeral : Numeral chars number) :
    chars = Nat.toDigits 10 number := by
  obtain ⟨nonempty, digits, plain, rfl⟩ := numeral
  match chars with
  | [] => exact absurd rfl nonempty
  | c :: rest =>
    obtain ⟨ones, le, code⟩ := exists_ones_of_isDigit (digits c List.mem_cons_self)
    obtain rfl := digitChar_eq le code
    rcases Nat.eq_zero_or_pos ones with rfl | positive
    · rw [plain rfl]
      rfl
    · have small : ones < 10 := Nat.lt_succ_of_le le
      rw [Nat.ofDigitChars_cons_digitChar_of_lt_ten small, Nat.mul_zero, Nat.zero_add,
        ← toDigits_append positive fun d among => digits d (List.mem_cons_of_mem _ among),
        Nat.toDigits_of_lt_base small, List.singleton_append]

theorem numeral_iff : Numeral chars number ↔ chars = Nat.toDigits 10 number :=
  ⟨Numeral.eq_toDigits, fun same => same ▸ numeral_toDigits number⟩

theorem Numeral.length_le_two_iff (numeral : Numeral chars number) :
    chars.length ≤ 2 ↔ number < 100 := by
  rw [numeral.eq_toDigits]
  exact Nat.length_toDigits_le_iff (by decide) (by decide)

/-- A numeral of one digit or two is what is read as its number. -/
theorem Numeral.spells (numeral : Numeral chars number) (short : chars.length ≤ 2) :
    Spells chars number := by
  have digit (c : Char) (among : c ∈ chars) := exists_ones_of_isDigit (numeral.digits c among)
  have value := numeral.value
  match chars with
  | [] => exact absurd rfl numeral.nonempty
  | [c] =>
    obtain ⟨ones, le, code⟩ := digit c (by simp)
    rw [← digitChar_eq le code, Nat.ofDigitChars_cons_digitChar_of_lt_ten (by omega),
      Nat.ofDigitChars_nil, Nat.mul_zero, Nat.zero_add] at value
    exact value ▸ .one code le
  | [c, d] =>
    obtain ⟨tens, le, code⟩ := digit c (by simp)
    obtain ⟨ones, le', code'⟩ := digit d (by simp)
    rw [← digitChar_eq le code, ← digitChar_eq le' code',
      Nat.ofDigitChars_cons_digitChar_of_lt_ten (by omega),
      Nat.ofDigitChars_cons_digitChar_of_lt_ten (by omega), Nat.ofDigitChars_nil, Nat.mul_zero,
      Nat.zero_add] at value
    exact value ▸ .two code le code' le'
  | c :: d :: e :: rest => simp at short

theorem encode_numeric_eq_ok_iff :
    numeric.encode value = .ok text ↔ Numeral text.toList value.toNat := by
  rw [numeral_iff, encode, decimal_eq, Except.ok.injEq, Nat.toString_eq_ofList_toDigits, eq_comm,
    ← String.toList_inj, String.toList_ofList]

/-- A numeral is read as its number, or rejected for the number of its digits. -/
theorem decode_of_numeral (numeral : Numeral text.toList value.toNat) : numeric.decode text =
    if value.toNat < 100 then .ok value else .error (.inputLength text.length) := by
  split
  next small =>
    exact decodeChars_eq_ok_iff.mpr (.digits (numeral.spells (numeral.length_le_two_iff.mpr small)))
  next large =>
    rw [← numeral.length_le_two_iff, Nat.not_le] at large
    rw [← String.length_toList]
    exact decodeChars_eq_inputLength_iff.mpr ⟨rfl, .inr large⟩

theorem scalar?_eq_some_iff : scalar? value = some c ↔ c.val = value := by
  unfold scalar?
  split
  next valid =>
    rw [Option.some.injEq, ← Char.val_inj, eq_comm]
  next invalid =>
    simp only [reduceCtorEq, false_iff]
    rintro rfl
    exact invalid c.valid

theorem encode_character_eq_ok_iff :
    character.encode value = .ok text ↔ ∃ c : Char, c.val = value ∧ text = String.singleton c := by
  simp only [← scalar?_eq_some_iff]
  cases scalar : scalar? value <;> simp [encode, scalar, eq_comm]

theorem decode_character_eq_ok_iff :
    character.decode text = .ok value ↔ ∃ c : Char, c.val = value ∧ text = String.singleton c := by
  have single (c : Char) : text = String.singleton c ↔ text.toList = [c] := by
    rw [← String.toList_inj, String.toList_singleton]
  simp only [single, decode]
  generalize text.toList = chars
  rcases chars with _ | ⟨c, _ | ⟨d, rest⟩⟩
  · simp [decodeChars]
  · simp [decodeChars, eq_comm]
  · simp [decodeChars]

theorem length_eq_one_iff : text.length = 1 ↔ ∃ c, text = String.singleton c := by
  rw [← String.length_toList, List.length_eq_one_iff]
  simp only [← String.toList_inj, String.toList_singleton]

end CellFormat

namespace Machine

variable {σ : Type} {feed : Feed σ} {state : Machine × σ} {last : Nat} {c : Char}

/-- Comments are passed one by one, and nothing else is done. -/
theorem after_comments (feed : Feed σ) (state : Machine × σ) (sound : state.1.fault = none)
    (le : state.1.position ≤ last) (inside : last ≤ state.1.program.size)
    (comments : ∀ position, state.1.position ≤ position → position < last →
      ¬ state.1.program.IsCodeAt position) :
    after feed (last - state.1.position) state = ({ state.1 with position := last }, state.2) := by
  induction le with
  | refl =>
    rw [Nat.sub_self]
    rfl
  | @step last le ih =>
    have before := ih (Nat.le_of_succ_le inside) fun position le lt =>
      comments position le (Nat.lt_succ_of_lt lt)
    have running : (after feed (last - state.1.position) state).1.halted = false := by
      rw [before]
      exact halted_eq_false_iff.mpr ⟨sound, inside⟩
    have comment : (after feed (last - state.1.position) state).1.instruction? = none := by
      rw [before, Option.eq_none_iff_forall_ne_some]
      exact fun instruction executes =>
        comments last le (Nat.lt_succ_self last) (isCodeAt_of_instruction executes)
    rw [Nat.succ_sub le, after_succ', advance_of_running running, comment, before]
    rfl

theorem advance_of_read {value : UInt32} (running : state.1.halted = false)
    (executes : state.1.instruction? = some .read)
    (decoded : state.1.settings.input.read (feed state.2).1 = .ok value) :
    advance feed state = (state.1.supply (.ok value), (feed state.2).2) := by
  rw [advance_of_running running, executes]
  simp only [decoded]

theorem advance_of_write {text : String} (running : state.1.halted = false)
    (executes : state.1.instruction? = some .write)
    (encoded : state.1.settings.output.encode state.1.tape.current = .ok text) :
    advance feed state =
      ({ state.1 with
          position := state.1.position + 1
          output := state.1.output ++ text
          log.fragments := state.1.log.fragments.push text }, state.2) := by
  rw [advance_of_running running, executes]
  simp only [write, encoded]

/-- What a `,` reads as a character, a `.` behind it writes. -/
theorem after_echo (sound : state.1.fault = none)
    (input : state.1.settings.input = .character) (output : state.1.settings.output = .character)
    (reads : state.1.program[state.1.position]? = some ',') (lt : state.1.position < last)
    (comments : state.1.program.NoCodeBetween state.1.position last)
    (writes : state.1.program[last]? = some '.')
    (answered : (feed state.2).1 = .ok (String.singleton c)) :
    after feed (last - state.1.position + 1) state =
      ({ state.1 with
          tape := state.1.tape.store c.val
          position := last + 1
          output := state.1.output ++ String.singleton c
          log.fragments := state.1.log.fragments.push (String.singleton c)
          log.reads := state.1.log.reads + 1 }, (feed state.2).2) := by
  have inside := Program.lt_size writes
  have read : advance feed state = (state.1.supply (.ok c.val), (feed state.2).2) := by
    apply advance_of_read (halted_eq_false_iff.mpr ⟨sound, Nat.lt_trans lt inside⟩)
    · rw [instruction?, reads]
      rfl
    · rw [input, answered]
      exact CellFormat.decode_character_eq_ok_iff.mpr ⟨c, rfl, rfl⟩
  have passed : after feed (last - (state.1.position + 1)) (advance feed state) =
      ({ state.1.supply (.ok c.val) with position := last }, (feed state.2).2) := by
    rw [read]
    exact after_comments feed (state.1.supply (.ok c.val), (feed state.2).2) sound lt
      (Nat.le_of_lt inside) comments
  have count : last - state.1.position + 1 = last - (state.1.position + 1) + 1 + 1 := by omega
  rw [count, after_succ, after_succ', passed]
  refine advance_of_write ?_ ?_ ?_
  · exact halted_eq_false_iff.mpr ⟨sound, inside⟩
  · show state.1.program[last]?.bind _ = _
    rw [writes]
    rfl
  · show state.1.settings.output.encode (state.1.tape.store c.val).current = _
    rw [output, Tape.current_store]
    exact CellFormat.encode_character_eq_ok_iff.mpr ⟨c, rfl, rfl⟩

end Machine

open CellFormat

/-- A number is written as its numeral, by tens and ones or at once, and this is read as the number,
or rejected for the number of its digits if these are more than two.  A cell is written as a
character if and only if it is a Unicode scalar value, and a text is read as a cell if and only if
the cell is written as this text.  So a `.` writes the character that a `,` has read, if only
comments stand between them. -/
theorem read_iff_written (value : UInt32) (text : String) :
    (∃ numeral, numeric.encode value = .ok numeral ∧
      Checked.encode? .numeric value = some (.ok numeral) ∧
      (∀ other : String, Numeral other.toList value.toNat ↔ other = numeral) ∧
      numeric.decode numeral =
        if value.toNat < 100 then .ok value else .error (.inputLength numeral.length)) ∧
    ((∃ written, character.encode value = .ok written) ↔
      value.toNat < 0xD800 ∨ 0xDFFF < value.toNat ∧ value.toNat < 0x110000) ∧
    (∀ written, character.encode value = .ok written →
      written.length = 1 ∧ character.decode written = .ok value) ∧
    (character.decode text = .ok value ↔ character.encode value = .ok text) ∧
    ∀ {σ : Type} (feed : Feed σ) (before : Machine × σ) (last : Nat), text.length = 1 →
      before.1.fault = none → before.1.settings.input = .character →
      before.1.settings.output = .character → before.1.program[before.1.position]? = some ',' →
      before.1.position < last → before.1.program.NoCodeBetween before.1.position last →
      before.1.program[last]? = some '.' → (feed before.2).1 = .ok text →
      let behind := Machine.after feed (last - before.1.position + 1) before
      behind.1.fault = none ∧ behind.1.position = last + 1 ∧
        behind.1.output = before.1.output ++ text ∧
        behind.1.log.fragments = before.1.log.fragments.push text := by
  have character_iff (text : String) :
      character.decode text = .ok value ↔ character.encode value = .ok text := by
    rw [decode_character_eq_ok_iff, encode_character_eq_ok_iff]
  refine ⟨?_, ?_, fun written encoded => ?_, character_iff text, ?_⟩
  · have encoded : numeric.encode value = .ok (decimal value) := rfl
    have numeral := encode_numeric_eq_ok_iff.mp encoded
    refine ⟨_, encoded, encoded ▸ Checked.encode?_eq, fun other => ?_, decode_of_numeral numeral⟩
    rw [← encode_numeric_eq_ok_iff, encoded, Except.ok.injEq, eq_comm]
  · simp only [encode_character_eq_ok_iff]
    constructor
    · rintro ⟨-, c, rfl, -⟩
      exact c.valid
    · exact fun scalar => ⟨_, ⟨value, scalar⟩, rfl, rfl⟩
  · obtain ⟨c, -, rfl⟩ := encode_character_eq_ok_iff.mp encoded
    exact ⟨String.length_singleton, (character_iff _).mpr encoded⟩
  · intro σ feed before last single sound input output reads lt comments writes answered
    obtain ⟨c, rfl⟩ := length_eq_one_iff.mp single
    intro behind
    have echo : behind = _ :=
      Machine.after_echo sound input output reads lt comments writes answered
    rw [echo]
    exact ⟨sound, rfl, rfl, rfl⟩

/-- The least number of three digits is not read again, and a character above the basic plane is
copied behind a word. -/
theorem read_iff_written_of_word :
    let program := Program.ofString ",copy."
    let settings : Settings := { policy := .classic, tapeLength := 1 }
    let feed := Feed.ofList (.error "closed")
    numeric.encode 100 = .ok "100" ∧ numeric.decode "100" = .error (.inputLength 3) ∧
      ∃ machine, Machine.create .ample program settings = .ok machine ∧
        let behind := Machine.after feed 6 (machine, [.ok "🧠"])
        behind.1.output = "🧠" ∧ behind.1.log.fragments = #["🧠"] := by
  intro program settings feed
  obtain ⟨⟨numeral, encoded, -, unique, decoded⟩, -, -, -, echo⟩ := read_iff_written 100 "🧠"
  obtain rfl : "100" = numeral := (unique "100").mp (encode_numeric_eq_ok_iff.mp rfl)
  obtain ⟨machine, created⟩ : ∃ machine, Machine.create .ample program settings = .ok machine :=
    ⟨_, rfl⟩
  obtain ⟨tape, -, rfl⟩ := Machine.create_eq_ok_iff.mp created
  have comments : program.NoCodeBetween 0 5 := by decide +kernel
  have copied := echo feed ({ program, settings, tape }, [.ok "🧠"]) 5 rfl rfl rfl rfl rfl
    (show 0 < 5 by decide) comments rfl rfl
  simp only [Nat.sub_zero, Nat.reduceAdd, String.empty_append] at copied
  obtain ⟨-, -, output, fragments⟩ := copied
  have rejected := decoded.trans (if_neg (show ¬ (100 : UInt32).toNat < 100 by decide))
  exact ⟨encoded, rejected, _, created, output, fragments⟩

end Brainfuck
