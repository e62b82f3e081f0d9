import Brainfuck.Config
import Brainfuck.Proofs.Trimming

/-! What a value says: a truth value by one of its words, or a count by its digits. -/

namespace Brainfuck

namespace Text

/-- The words for a truth value. -/
def wordsFor : Bool → List String
  | true => ["true", "yes", "on", "1"]
  | false => ["false", "no", "off", "0"]

/-- The text is a word for the truth value, in letters of either case, with blanks around it or
none. -/
def IsTruth (text : String) (truth : Bool) : Prop :=
  ∃ letters word, Trims text.toList letters ∧ letters.map Char.toLower = word.toList ∧
    word ∈ wordsFor truth

/-- One decimal digit or more, and the number that they spell. -/
structure Decimal (chars : List Char) (number : Nat) : Prop where
  nonempty : chars ≠ []
  digits : ∀ c ∈ chars, c.isDigit
  value : Nat.ofDigitChars 10 chars 0 = number

/-- The text is a count that 64 bits can hold, after a plus sign or none. -/
def IsCount (text : String) (count : Nat) : Prop :=
  (∃ digits, (text.toList = digits ∨ text.toList = '+' :: digits) ∧ Decimal digits count) ∧
    count < UInt64.size

variable {text : String} {digits : List Char} {value count : Nat}

theorem countFrom_eq_some_iff : countFrom value digits = some count ↔
    (∀ c ∈ digits, c.isDigit) ∧ Nat.ofDigitChars 10 digits value = count := by
  induction digits generalizing value with
  | nil => simp [countFrom]
  | cons c rest ih =>
    rw [countFrom, List.forall_mem_cons, Nat.ofDigitChars_cons, Nat.mul_comm]
    cases c.isDigit with
    | true => simp [ih]
    | false => simp

theorem decimal_iff : Decimal digits count ↔ digits ≠ [] ∧ countFrom 0 digits = some count := by
  rw [countFrom_eq_some_iff]
  exact ⟨fun decimal => ⟨decimal.nonempty, decimal.digits, decimal.value⟩,
    fun ⟨nonempty, digits, value⟩ => ⟨nonempty, digits, value⟩⟩

theorem not_decimal_plus {rest : List Char} : ¬ Decimal ('+' :: rest) count := fun decimal =>
  absurd (decimal.digits '+' List.mem_cons_self) (by decide)

/-- The count of the digits that are left without a sign. -/
theorem unsigned_eq_some_iff :
    (if digits.isEmpty then none else (countFrom 0 digits).filter (· < UInt64.size)) = some count ↔
      Decimal digits count ∧ count < UInt64.size := by
  rw [decimal_iff, Option.ite_none_left_eq_some, Option.filter_eq_some_iff, List.isEmpty_iff,
    and_assoc, decide_eq_true_eq]

theorem parseCount_eq_some_iff : parseCount text = some count ↔ IsCount text count := by
  rw [parseCount, unsigned_eq_some_iff, IsCount]
  refine and_congr_left fun _ => ?_
  split
  next rest signed =>
    rw [signed]
    constructor
    · exact fun decimal => ⟨rest, .inr rfl, decimal⟩
    · rintro ⟨digits, rfl | same, decimal⟩
      · exact absurd decimal not_decimal_plus
      · exact (List.cons.inj same).2 ▸ decimal
  next plain =>
    constructor
    · exact fun decimal => ⟨_, .inl rfl, decimal⟩
    · rintro ⟨digits, rfl | signed, decimal⟩
      · exact decimal
      · exact absurd signed (plain digits)

end Text

namespace Config

open Text

variable {value : String} {truth : Bool}

theorem isTruth_iff : IsTruth value truth ↔
    String.ofList ((trimChars value.toList).map Char.toLower) ∈ wordsFor truth := by
  simp only [IsTruth, trims_iff]
  constructor
  · rintro ⟨_, word, rfl, same, among⟩
    rwa [same, String.ofList_toList]
  · intro among
    exact ⟨_, _, rfl, String.toList_ofList.symm, among⟩

theorem notMem_wordsFor_false {word : String} (among : word ∈ wordsFor true) :
    word ∉ wordsFor false := by
  have apart : ∀ word ∈ wordsFor true, word ∉ wordsFor false := by decide +kernel
  exact apart word among

theorem parseBool_eq_some_iff : parseBool value = some truth ↔ IsTruth value truth := by
  rw [isTruth_iff]
  change (if _ ∈ wordsFor true then some true else if _ ∈ wordsFor false then some false
    else none) = some truth ↔ _
  cases truth with
  | true => split <;> simp_all
  | false =>
    split
    next affirmed => simp [notMem_wordsFor_false affirmed]
    next => split <;> simp_all

end Config
end Brainfuck
