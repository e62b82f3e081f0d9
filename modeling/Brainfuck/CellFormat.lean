import Brainfuck.Fault

/-! The two formats in which a cell is written by `.` and read by `,`: as the character whose code
it holds, or as a decimal number.  A number is written with as many digits as it needs and read from
one or two. -/

namespace Brainfuck

inductive CellFormat
  | character
  | numeric
  deriving DecidableEq, Repr

namespace CellFormat

def name : CellFormat → String
  | character => "character"
  | numeric => "numeric"

def toggle : CellFormat → CellFormat
  | character => numeric
  | numeric => character

@[simp] theorem toggle_toggle (format : CellFormat) : format.toggle.toggle = format := by
  cases format <;> rfl

def ofNumeric (numeric : Bool) : CellFormat := if numeric then .numeric else .character

/-- The character that a value is the code of, if there is one. -/
def scalar? (value : UInt32) : Option Char :=
  if h : value.isValidChar then some ⟨value, h⟩ else none

/-- A value in decimal.  A number of two digits is put together from its tens and its ones. -/
def decimal (value : UInt32) : String :=
  if value < 10 then toString value.toNat
  else
    let tens := value / 10
    let ones := value - 10 * tens
    if tens < 10 ∧ ones < 10 then toString (tens * 10 + ones).toNat else toString value.toNat

def encode : CellFormat → UInt32 → Except Fault String
  | character, value =>
    match scalar? value with
    | some c => .ok (String.singleton c)
    | none => .error (.notCharacter value)
  | numeric, value => .ok (decimal value)

/-- The value of the decimal digit that a word is the code of. -/
def digit? (code : UInt32) : Option UInt32 :=
  if '0'.val ≤ code ∧ code ≤ '9'.val then some (code - '0'.val) else none

/-- One character as its code, or two as the upper and the lower half of one word. -/
def pack : List Char → Except Fault UInt32
  | [c] => .ok c.val
  | [c, d] =>
    if 0xFFFF < c.val ∨ 0xFFFF < d.val then .error .notDigits else .ok (c.val <<< 16 ||| d.val)
  | text => .error (.inputLength text.length)

/-- The number that a packed word spells: a whole word that is a digit stands for it, and any other
must have a digit in each half. -/
def unpack (word : UInt32) : Except Fault UInt32 :=
  match digit? word with
  | some digit => .ok digit
  | none =>
    match digit? (word >>> 16), digit? (word &&& 0xFFFF) with
    | some tens, some ones => .ok (tens * 10 + ones)
    | _, _ => .error .notDigits

def decodeChars : CellFormat → List Char → Except Fault UInt32
  | character, [c] => .ok c.val
  | character, text => .error (.inputLength text.length)
  | numeric, text => pack text >>= unpack

def decode (format : CellFormat) (text : String) : Except Fault UInt32 :=
  format.decodeChars text.toList

variable {format : CellFormat} {value : UInt32} {fault : Fault} {text : String}

/-- The tens and the ones of a number are all of it. -/
theorem decimal_eq (value : UInt32) : decimal value = toString value.toNat := by
  have whole : value / 10 * 10 + (value - 10 * (value / 10)) = value := by
    rw [UInt32.mul_comm, UInt32.add_comm, UInt32.sub_add_cancel]
  simp only [decimal, whole, ite_self]

theorem scalar?_eq_none_iff : scalar? value = none ↔ ∀ c : Char, c.val ≠ value := by
  unfold scalar?
  split
  next valid => simpa using ⟨⟨value, valid⟩, rfl⟩
  next invalid =>
    simp only [true_iff]
    rintro c rfl
    exact invalid c.valid

theorem encode_eq_error_iff : format.encode value = .error fault ↔
    format = .character ∧ (∀ c : Char, c.val ≠ value) ∧ fault = .notCharacter value := by
  rw [← scalar?_eq_none_iff]
  cases format with
  | character => cases scalar : scalar? value <;> simp [encode, scalar, eq_comm]
  | numeric => simp [encode]

theorem digit?_le {code digit : UInt32} (spelled : digit? code = some digit) : digit.toNat ≤ 9 := by
  rw [digit?, Option.ite_none_right_eq_some, Option.some.injEq] at spelled
  obtain ⟨⟨low, high⟩, rfl⟩ := spelled
  rw [UInt32.toNat_sub_of_le _ _ low]
  exact Nat.sub_le_of_le_add (UInt32.le_iff_toNat_le.mp high)

theorem unpack_le {word : UInt32} (spelled : unpack word = .ok value) : value.toNat ≤ 99 := by
  unfold unpack at spelled
  split at spelled
  next digit is_digit =>
    cases spelled
    exact Nat.le_trans (digit?_le is_digit) (by decide)
  next =>
    split at spelled
    next tens ones are_digits are_digits' =>
      cases spelled
      have high := digit?_le are_digits
      have low := digit?_le are_digits'
      rw [UInt32.toNat_add, UInt32.toNat_mul]
      calc (tens.toNat * 10 % 2 ^ 32 + ones.toNat) % 2 ^ 32
          _ ≤ tens.toNat * 10 % 2 ^ 32 + ones.toNat := Nat.mod_le ..
          _ ≤ tens.toNat * 10 + ones.toNat := Nat.add_le_add_right (Nat.mod_le ..) _
          _ ≤ 99 := by omega
    next => contradiction

/-- A number is read from two digits at most. -/
theorem decode_numeric_le (decoded : numeric.decode text = .ok value) : value.toNat ≤ 99 := by
  rw [decode, decodeChars] at decoded
  cases packed : pack text.toList with
  | error fault =>
    rw [packed] at decoded
    contradiction
  | ok word =>
    rw [packed] at decoded
    exact unpack_le decoded

theorem unpack_eq_error {word : UInt32} (rejected : unpack word = .error fault) :
    fault = .notDigits := by
  unfold unpack at rejected
  split at rejected
  · contradiction
  · split at rejected <;> cases rejected
    rfl

/-- A text is rejected for its length, or as a number for what is no digit in it. -/
theorem decode_eq_error (rejected : format.decode text = .error fault) :
    fault = .inputLength text.length ∨ format = .numeric ∧ fault = .notDigits := by
  rw [← String.length_toList]
  unfold decode at rejected
  generalize text.toList = chars at rejected
  unfold decodeChars at rejected
  split at rejected
  · contradiction
  · cases rejected
    exact .inl rfl
  · unfold pack at rejected
    split at rejected
    · exact .inr ⟨rfl, unpack_eq_error rejected⟩
    · split at rejected
      · cases rejected
        exact .inr ⟨rfl, rfl⟩
      · exact .inr ⟨rfl, unpack_eq_error rejected⟩
    · cases rejected
      exact .inl rfl

end CellFormat
end Brainfuck
