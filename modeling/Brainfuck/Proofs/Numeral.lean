import Brainfuck.CellFormat

/-! Numbers as they are read.  A text of one character or two is packed into one word, and the word
is looked at first as the code of a digit and then as two codes in its halves.  This comes to one
decimal digit or two, and to one reading more: behind a NUL, which leaves the upper half zero, a
digit is read as if it stood alone. -/

namespace Brainfuck.CellFormat

/-- One decimal digit or two, with the number that they spell. -/
inductive Spells : List Char → Nat → Prop
  | one {c : Char} {ones : Nat} (digit : c.toNat = '0'.toNat + ones) (le : ones ≤ 9) :
      Spells [c] ones
  | two {c d : Char} {tens ones : Nat} (digit : c.toNat = '0'.toNat + tens) (le : tens ≤ 9)
      (digit' : d.toNat = '0'.toNat + ones) (le' : ones ≤ 9) : Spells [c, d] (10 * tens + ones)

variable {c d : Char} {code digit value word : UInt32} {fault : Fault} {text : String}

theorem toNat_zero : '0'.toNat = 48 := rfl

theorem digit?_eq_some_iff :
    digit? code = some digit ↔ code.toNat = '0'.toNat + digit.toNat ∧ digit.toNat ≤ 9 := by
  have low : '0'.val.toNat = 48 := rfl
  have high : '9'.val.toNat = 57 := rfl
  rw [digit?, Option.ite_none_right_eq_some, Option.some.injEq, UInt32.le_iff_toNat_le,
    UInt32.le_iff_toNat_le, low, high, toNat_zero]
  constructor
  · rintro ⟨⟨above, below⟩, rfl⟩
    have difference := UInt32.toNat_sub_of_le code '0'.val (UInt32.le_iff_toNat_le.mpr above)
    omega
  · rintro ⟨same, le⟩
    refine ⟨by omega, UInt32.toNat_inj.mp ?_⟩
    rw [UInt32.toNat_sub_of_le code '0'.val (UInt32.le_iff_toNat_le.mpr (by omega))]
    omega

theorem toNat_upper (word : UInt32) : (word >>> 16).toNat = word.toNat / 65536 := by
  rw [UInt32.toNat_shiftRight]
  exact Nat.shiftRight_eq_div_pow ..

theorem toNat_lower (word : UInt32) : (word &&& 0xFFFF).toNat = word.toNat % 65536 := by
  rw [UInt32.toNat_and]
  exact Nat.and_two_pow_sub_one_eq_mod word.toNat 16

theorem toNat_shifted (small : code.toNat < 65536) : (code <<< 16).toNat = code.toNat <<< 16 := by
  rw [UInt32.toNat_shiftLeft]
  apply Nat.mod_eq_of_lt
  show code.toNat <<< 16 < 2 ^ 32
  rw [Nat.shiftLeft_eq]
  omega

theorem toNat_packed {upper lower : UInt32} (small : upper.toNat < 65536)
    (small' : lower.toNat < 65536) :
    (upper <<< 16 ||| lower).toNat = upper.toNat * 65536 + lower.toNat := by
  rw [UInt32.toNat_or, toNat_shifted small, ← Nat.shiftLeft_add_eq_or_of_lt small',
    Nat.shiftLeft_eq]

theorem toNat_ofNat_of_le {number : Nat} (le : number ≤ 99) :
    (UInt32.ofNat number).toNat = number :=
  UInt32.toNat_ofNat_of_lt' (Nat.lt_of_le_of_lt le (by decide))

theorem digit?_of_toNat {number : Nat} (same : code.toNat = '0'.toNat + number)
    (le : number ≤ 9) : digit? code = some (.ofNat number) := by
  rw [digit?_eq_some_iff, toNat_ofNat_of_le (by omega)]
  exact ⟨same, le⟩

theorem toNat_number {tens ones : UInt32} (le : tens.toNat ≤ 9) (le' : ones.toNat ≤ 9) :
    (tens * 10 + ones).toNat = 10 * tens.toNat + ones.toNat := by
  rw [UInt32.toNat_add, UInt32.toNat_mul]
  show (tens.toNat * 10 % 2 ^ 32 + ones.toNat) % 2 ^ 32 = _
  omega

/-- A word spells the digit that it is the code of, or two digits with their codes in its halves. -/
theorem unpack_eq_ok_iff : unpack word = .ok value ↔
    (word.toNat = '0'.toNat + value.toNat ∧ value.toNat ≤ 9) ∨
    ∃ tens ≤ 9, ∃ ones ≤ 9, value.toNat = 10 * tens + ones ∧
      word.toNat = ('0'.toNat + tens) * 65536 + ('0'.toNat + ones) := by
  constructor
  · intro spelled
    unfold unpack at spelled
    split at spelled
    next digit whole =>
      cases spelled
      exact .inl (digit?_eq_some_iff.mp whole)
    next =>
      split at spelled
      next tens ones upper lower =>
        cases spelled
        obtain ⟨code, le⟩ := digit?_eq_some_iff.mp upper
        obtain ⟨code', le'⟩ := digit?_eq_some_iff.mp lower
        rw [toNat_upper] at code
        rw [toNat_lower] at code'
        exact .inr ⟨_, le, _, le', toNat_number le le', by omega⟩
      next => contradiction
  · rintro (⟨code, le⟩ | ⟨tens, le, ones, le', sum, code⟩)
    · rw [unpack, digit?_eq_some_iff.mpr ⟨code, le⟩]
    · rw [toNat_zero] at code
      have whole : digit? word = none := by
        apply Option.eq_none_iff_forall_ne_some.mpr
        intro digit spelled
        obtain ⟨same, below⟩ := digit?_eq_some_iff.mp spelled
        rw [toNat_zero] at same
        omega
      have upper : digit? (word >>> 16) = some (.ofNat tens) :=
        digit?_of_toNat (by rw [toNat_upper, toNat_zero]; omega) le
      have lower : digit? (word &&& 0xFFFF) = some (.ofNat ones) :=
        digit?_of_toNat (by rw [toNat_lower, toNat_zero]; omega) le'
      have fits : (UInt32.ofNat tens).toNat = tens := toNat_ofNat_of_le (by omega)
      have fits' : (UInt32.ofNat ones).toNat = ones := toNat_ofNat_of_le (by omega)
      rw [unpack, whole, upper, lower]
      apply congrArg Except.ok
      apply UInt32.toNat_inj.mp
      rw [toNat_number (fits.symm ▸ le) (fits'.symm ▸ le'), fits, fits', sum]

theorem toNat_lt (c : Char) : c.toNat < 0x110000 := by
  obtain below | ⟨-, below⟩ := c.valid
  · exact Nat.lt_trans below (by decide)
  · exact below

theorem Spells.length {chars : List Char} {number : Nat} (spelled : Spells chars number) :
    chars.length = 1 ∨ chars.length = 2 := by
  cases spelled with
  | one => exact .inl rfl
  | two => exact .inr rfl

/-- The digits of a number are characters of the basic plane. -/
theorem Spells.small {chars : List Char} {number : Nat} (spelled : Spells chars number) :
    ∀ c ∈ chars, c.toNat < 65536 := by
  cases spelled with
  | one code le =>
    rintro c among
    obtain rfl := List.mem_singleton.mp among
    rw [toNat_zero] at code
    omega
  | two code le code' le' =>
    rw [toNat_zero] at code code'
    rintro c among
    obtain rfl | among := List.mem_cons.mp among
    · omega
    · obtain rfl := List.mem_singleton.mp among
      omega

/-- The texts that are read as numbers, with the numbers. -/
inductive ReadsAs : List Char → Nat → Prop
  | digits {chars : List Char} {number : Nat} (spelled : Spells chars number) :
      ReadsAs chars number
  | behindNul {c : Char} {number : Nat} (spelled : Spells [c] number) :
      ReadsAs ['\x00', c] number

theorem ReadsAs.length {chars : List Char} {number : Nat} (read : ReadsAs chars number) :
    chars.length = 1 ∨ chars.length = 2 := by
  cases read with
  | digits spelled => exact spelled.length
  | behindNul => exact .inr rfl

theorem ReadsAs.le {chars : List Char} {number : Nat} (read : ReadsAs chars number) :
    number ≤ 99 := by
  cases read with
  | digits spelled => cases spelled <;> omega
  | behindNul spelled => cases spelled; omega

theorem ReadsAs.small {chars : List Char} {number : Nat} (read : ReadsAs chars number) :
    ∀ c ∈ chars, c.toNat < 65536 := by
  cases read with
  | digits spelled => exact spelled.small
  | behindNul spelled =>
    rintro c among
    obtain rfl | among := List.mem_cons.mp among
    · decide
    · exact spelled.small c among

theorem unpack_char_eq_ok_iff : unpack c.val = .ok value ↔ ReadsAs [c] value.toNat := by
  have scalar := toNat_lt c
  rw [unpack_eq_ok_iff]
  constructor
  · rintro (⟨code, le⟩ | ⟨tens, le, ones, le', -, code⟩)
    · exact .digits (.one code le)
    · rw [toNat_zero] at code
      change c.toNat = _ at code
      omega
  · rintro (⟨⟨code, le⟩⟩)
    exact .inl ⟨code, le⟩

theorem unpack_pair_eq_ok_iff (small : c.toNat < 65536) (small' : d.toNat < 65536) :
    unpack (c.val <<< 16 ||| d.val) = .ok value ↔ ReadsAs [c, d] value.toNat := by
  have packed : (c.val <<< 16 ||| d.val).toNat = c.toNat * 65536 + d.toNat :=
    toNat_packed small small'
  rw [unpack_eq_ok_iff, packed, toNat_zero]
  constructor
  · rintro (⟨code, le⟩ | ⟨tens, le, ones, le', sum, code⟩)
    · -- The whole word is the code of a digit, so its upper half is zero.
      obtain rfl : c = '\x00' := Char.toNat_inj.mp (by show c.toNat = 0; omega)
      have lower : d.toNat = '0'.toNat + value.toNat := by rw [toNat_zero]; omega
      exact .behindNul (.one lower le)
    · have upper : c.toNat = '0'.toNat + tens := by rw [toNat_zero]; omega
      have lower : d.toNat = '0'.toNat + ones := by rw [toNat_zero]; omega
      rw [sum]
      exact .digits (.two upper le lower le')
  · intro read
    generalize value.toNat = number at read
    cases read with
    | digits spelled =>
      cases spelled with
      | two code le code' le' =>
        rw [toNat_zero] at code code'
        exact .inr ⟨_, le, _, le', rfl, by rw [code, code']⟩
    | behindNul spelled =>
      cases spelled with
      | one code le =>
        rw [toNat_zero] at code
        have upper : '\x00'.toNat = 0 := rfl
        exact .inl ⟨by rw [upper, code, Nat.zero_mul, Nat.zero_add], le⟩

theorem decodeChars_pair : numeric.decodeChars [c, d] =
    if c.toNat < 65536 ∧ d.toNat < 65536 then unpack (c.val <<< 16 ||| d.val)
    else .error .notDigits := by
  have large (e : Char) : 0xFFFF < e.val ↔ ¬ e.toNat < 65536 := by
    rw [UInt32.lt_iff_toNat_lt, Nat.not_lt]
    rfl
  simp only [decodeChars, pack, large, ← Decidable.not_and_iff_not_or_not, ite_not]
  split <;> rfl

theorem decodeChars_eq_ok_iff {chars : List Char} :
    numeric.decodeChars chars = .ok value ↔ ReadsAs chars value.toNat := by
  match chars with
  | [] | c :: d :: e :: rest =>
    constructor
    · intro decoded
      contradiction
    · intro read
      have length := read.length
      simp at length
  | [c] => exact unpack_char_eq_ok_iff
  | [c, d] =>
    rw [decodeChars_pair]
    split
    next both => exact unpack_pair_eq_ok_iff both.1 both.2
    next large =>
      constructor
      · intro decoded
        contradiction
      · intro read
        exact absurd ⟨read.small c (by simp), read.small d (by simp)⟩ large

/-- A text is rejected for its length if and only if it has no character or more than two. -/
theorem decodeChars_eq_inputLength_iff {chars : List Char} {count : Nat} :
    numeric.decodeChars chars = .error (.inputLength count) ↔
      count = chars.length ∧ (chars.length = 0 ∨ 2 < chars.length) := by
  match chars with
  | [] | c :: d :: e :: rest =>
    show (Except.error (Fault.inputLength _) : Except Fault UInt32) = _ ↔ _
    simp [eq_comm]
  | [c] =>
    constructor
    · intro rejected
      cases unpack_eq_error rejected
    · simp
  | [c, d] =>
    rw [decodeChars_pair]
    constructor
    · intro rejected
      split at rejected
      · cases unpack_eq_error rejected
      · cases rejected
    · simp

theorem exists_ok_of_readsAs {number : Nat} (read : ReadsAs text.toList number) :
    ∃ value, numeric.decode text = .ok value := by
  have fits : (UInt32.ofNat number).toNat = number := toNat_ofNat_of_le read.le
  exact ⟨.ofNat number, decodeChars_eq_ok_iff.mpr (fits.symm ▸ read)⟩

/-- A text is read as a number if and only if it is one digit or two, or one digit behind a NUL.  A
text of no character or of more than two is rejected for its length, and any other for what is no
digit in it. -/
theorem decode_numeric_iff (text : String) :
    (∀ value, numeric.decode text = .ok value ↔ ReadsAs text.toList value.toNat) ∧
    (∀ count, numeric.decode text = .error (.inputLength count) ↔
      count = text.length ∧ (text.length = 0 ∨ 2 < text.length)) ∧
    (numeric.decode text = .error .notDigits ↔
      (text.length = 1 ∨ text.length = 2) ∧ ¬ ∃ number, ReadsAs text.toList number) := by
  have lengths (count : Nat) : numeric.decode text = .error (.inputLength count) ↔
      count = text.length ∧ (text.length = 0 ∨ 2 < text.length) := by
    rw [← String.length_toList]
    exact decodeChars_eq_inputLength_iff
  refine ⟨fun value => decodeChars_eq_ok_iff, lengths, ?_⟩
  constructor
  · intro rejected
    refine ⟨?_, fun ⟨number, read⟩ => ?_⟩
    · obtain length | wrong : (text.length = 1 ∨ text.length = 2) ∨
          (text.length = 0 ∨ 2 < text.length) := by omega
      · exact length
      · cases rejected.symm.trans ((lengths text.length).mpr ⟨rfl, wrong⟩)
    · obtain ⟨value, decoded⟩ := exists_ok_of_readsAs read
      cases rejected.symm.trans decoded
  · rintro ⟨length, unread⟩
    cases decoded : numeric.decode text with
    | ok value => exact absurd ⟨_, decodeChars_eq_ok_iff.mp decoded⟩ unread
    | error fault =>
      obtain rfl | ⟨-, rfl⟩ := decode_eq_error decoded
      · have wrong := ((lengths text.length).mp decoded).2
        omega
      · rfl

/-- Not all that is read is digits. -/
theorem decode_numeric_behind_nul :
    numeric.decode "\x005" = .ok 5 ∧ ¬ ∃ number, Spells "\x005".toList number := by
  refine ⟨rfl, fun ⟨number, spelled⟩ => ?_⟩
  have chars : "\x005".toList = ['\x00', '5'] := by decide
  rw [chars] at spelled
  cases spelled with
  | two code =>
    rw [toNat_zero] at code
    change 0 = _ at code
    omega

end Brainfuck.CellFormat
