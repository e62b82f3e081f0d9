import Brainfuck.Program
import Brainfuck.Proofs.Balance

/-! The search for the partner of a bracket.  `seekClosing` and `seekOpening` find the bracket at
which the count of open loops first reaches the one that is sought; from a single loop this is the
bracket up to which the text is balanced, so `partner?` finds exactly the positions of `Partners`. -/

namespace Brainfuck.Program

/-- The text from position `first` on and before position `stop`. -/
def between (program : Program) (first stop : Nat) : List Char := (program.extract first stop).toList

/-- The bracket at `closing` is the first from `first` on that closes a loop of which `depth` others
were opened inside. -/
def ClosesAt (program : Program) (depth first closing : Nat) : Prop :=
  first ≤ closing ∧ program[closing]? = some ']' ∧
    depthAfter depth (program.between first closing) = some 0

/-- The bracket at `opening` opens a loop inside which `depth` others are open before `stop`. -/
def OpensAt (program : Program) (depth stop opening : Nat) : Prop :=
  opening < stop ∧ program[opening]? = some '[' ∧
    depthAfter 0 (program.between (opening + 1) stop) = some depth

/-- A `]` behind the position, or a `[` before it, with a balanced text between.  Only the text
before the end of the program counts. -/
def Partners (program : Program) (position : Nat) : Bracket → Nat → Prop
  | .opening, partner => position < partner ∧ program[partner]? = some ']' ∧
      Balanced (program.between (position + 1) partner)
  | .closing, partner => partner < position ∧ program[partner]? = some '[' ∧
      Balanced (program.between (partner + 1) (min position program.size))

/-- A loop of the program: a `[` and a `]` with a balanced text between. -/
structure Loop (program : Program) (opening closing : Nat) : Prop where
  lt : opening < closing
  opens : program[opening]? = some '['
  closes : program[closing]? = some ']'
  body : Balanced (program.between (opening + 1) closing)

def Paired (program : Program) (position partner : Nat) : Prop :=
  program.Loop position partner ∨ program.Loop partner position

variable {program : Program} {depth first middle stop position partner opening closing : Nat}
  {c : Char} {bracket : Bracket}

@[simp] theorem between_self : program.between first first = [] := by
  simp [between]

theorem lt_size (at_position : program[position]? = some c) : position < program.size :=
  (Array.getElem?_eq_some_iff.mp at_position).1

theorem between_eq_cons (lt : first < stop) (head : program[first]? = some c) :
    program.between first stop = c :: program.between (first + 1) stop := by
  obtain ⟨inside, rfl⟩ := Array.getElem?_eq_some_iff.mp head
  obtain ⟨count, rfl⟩ := Nat.exists_eq_add_of_lt lt
  simp only [between, Array.toList_extract, List.extract_eq_take_drop]
  rw [List.drop_eq_getElem_cons (by simpa using inside),
    show first + count + 1 - first = count + 1 by omega,
    show first + count + 1 - (first + 1) = count by omega, List.take_succ_cons]
  simp

theorem between_succ (le : first ≤ stop) (last : program[stop]? = some c) :
    program.between first (stop + 1) = program.between first stop ++ [c] := by
  obtain ⟨inside, rfl⟩ := Array.getElem?_eq_some_iff.mp last
  simp only [between, Array.toList_extract, List.extract_eq_take_drop]
  rw [Nat.sub_add_comm le, List.take_add_one]
  congr 1
  rw [List.getElem?_drop, Nat.add_sub_cancel' le]
  simp [inside]

theorem between_append (le : first ≤ middle) (le' : middle ≤ stop) :
    program.between first stop = program.between first middle ++ program.between middle stop := by
  rw [between, between, between, ← Array.toList_append, Array.extract_append_extract,
    Nat.min_eq_left le, Nat.max_eq_right le']

/-- The search to the right moves over one character. -/
theorem closesAt_iff_of_head (head : program[first]? = some c) :
    program.ClosesAt depth first partner ↔ (partner = first ∧ c = ']' ∧ depth = 0) ∨
      ∃ inner, nest depth c = some inner ∧ program.ClosesAt inner (first + 1) partner := by
  constructor
  · rintro ⟨le, closes, balanced⟩
    rcases Nat.eq_or_lt_of_le le with rfl | lt
    · rw [head] at closes
      simp_all
    · rw [between_eq_cons lt head, depthAfter_cons, Option.bind_eq_some_iff] at balanced
      obtain ⟨inner, nested, balanced⟩ := balanced
      exact .inr ⟨inner, nested, lt, closes, balanced⟩
  · rintro (⟨rfl, rfl, rfl⟩ | ⟨inner, nested, lt, closes, balanced⟩)
    · exact ⟨Nat.le_refl _, head, by simp⟩
    · refine ⟨Nat.le_of_lt lt, closes, ?_⟩
      rw [between_eq_cons lt head, depthAfter_cons, nested]
      exact balanced

/-- The search to the left moves over one character. -/
theorem opensAt_succ_iff (last : program[stop]? = some c) :
    program.OpensAt depth (stop + 1) partner ↔ (partner = stop ∧ c = '[' ∧ depth = 0) ∨
      ∃ inner, program.OpensAt inner stop partner ∧ nest inner c = some depth := by
  constructor
  · rintro ⟨lt, opens, reached⟩
    rcases Nat.eq_or_lt_of_le (Nat.le_of_lt_succ lt) with rfl | lt
    · rw [last] at opens
      simp_all
    · rw [between_succ lt last, depthAfter_append, Option.bind_eq_some_iff] at reached
      obtain ⟨inner, before, reached⟩ := reached
      exact .inr ⟨inner, ⟨lt, opens, before⟩, by simpa using reached⟩
  · rintro (⟨rfl, rfl, rfl⟩ | ⟨inner, ⟨lt, opens, before⟩, nested⟩)
    · exact ⟨Nat.lt_succ_self _, last, by simp⟩
    · refine ⟨Nat.lt_succ_of_lt lt, opens, ?_⟩
      rw [between_succ lt last, depthAfter_append, before]
      simp [nested]

/-- A loop that is open at some place is open at each place before it inside the loop. -/
theorem OpensAt.before (opens : program.OpensAt depth stop opening) (lt : opening < middle)
    (le : middle ≤ stop) : ∃ inner, program.OpensAt inner middle opening := by
  obtain ⟨-, opens, reached⟩ := opens
  rw [between_append lt le, depthAfter_append, Option.bind_eq_some_iff] at reached
  obtain ⟨inner, before, -⟩ := reached
  exact ⟨inner, lt, opens, before⟩

/-- Of two loops that are open at one place, more loops are open inside the outer one. -/
theorem OpensAt.depth_lt {inner outer : Nat} (outside : program.OpensAt outer stop opening)
    (inside : program.OpensAt inner stop position) (lt : opening < position)
    (le : stop ≤ program.size) : inner < outer := by
  induction stop generalizing inner outer with
  | zero => exact absurd outside.1 (Nat.not_lt_zero _)
  | succ stop ih =>
    have last := Array.getElem?_eq_getElem (show stop < program.size from le)
    rw [opensAt_succ_iff last] at outside inside
    obtain ⟨rfl, -⟩ | ⟨outer', outside, nested⟩ := outside
    · obtain ⟨rfl, -⟩ | ⟨_, inside, -⟩ := inside
      · exact absurd lt (Nat.lt_irrefl _)
      · exact absurd lt (Nat.not_lt_of_lt inside.1)
    · obtain ⟨rfl, opens, rfl⟩ | ⟨inner', inside, nested'⟩ := inside
      · rw [opens, nest_opening] at nested
        have := Option.some.inj nested
        omega
      · exact nest_strictMono nested' nested (ih outside inside (Nat.le_of_succ_le le))

theorem seekClosing_eq_some_iff {rest : Nat} (le : rest ≤ program.size) :
    program.seekClosing rest (depth + 1) = some partner ↔
      program.ClosesAt depth (program.size - rest) partner := by
  induction rest generalizing depth with
  | zero =>
    simp only [seekClosing, reduceCtorEq, Nat.sub_zero, false_iff]
    rintro ⟨le, closes, -⟩
    have := lt_size closes
    omega
  | succ rest ih =>
    have inside : program.size - (rest + 1) < program.size := by omega
    have next : program.size - (rest + 1) + 1 = program.size - rest := by omega
    have head := Array.getElem?_eq_getElem inside
    rw [closesAt_iff_of_head head, next, seekClosing]
    simp only [head, Option.bind_some]
    generalize program[program.size - (rest + 1)] = c
    cases kind : Bracket.ofChar? c with
    | none =>
      have not_closing : c ≠ ']' := by rintro rfl; contradiction
      simp [not_closing, nest_of_none kind, ih (Nat.le_of_succ_le le)]
    | some bracket =>
      obtain rfl := Bracket.ofChar?_eq_some_iff.mp kind
      cases bracket with
      | opening => simp [Bracket.char, ih (Nat.le_of_succ_le le)]
      | closing =>
        cases depth with
        | zero => simp [Bracket.char, eq_comm]
        | succ depth => simp [Bracket.char, ih (Nat.le_of_succ_le le)]

theorem seekOpening_eq_some_iff (le : stop ≤ program.size) :
    program.seekOpening stop (depth + 1) = some partner ↔ program.OpensAt depth stop partner := by
  induction stop generalizing depth with
  | zero => simp [seekOpening, OpensAt]
  | succ stop ih =>
    have last := Array.getElem?_eq_getElem (show stop < program.size from le)
    rw [opensAt_succ_iff last, seekOpening]
    simp only [last, Option.bind_some]
    generalize program[stop] = c
    cases kind : Bracket.ofChar? c with
    | none =>
      have not_opening : c ≠ '[' := by rintro rfl; contradiction
      simp [not_opening, nest_of_none kind, ih (Nat.le_of_succ_le le)]
    | some bracket =>
      obtain rfl := Bracket.ofChar?_eq_some_iff.mp kind
      cases bracket with
      | opening =>
        cases depth with
        | zero => simp [Bracket.char, eq_comm]
        | succ depth => simp [Bracket.char, ih (Nat.le_of_succ_le le)]
      | closing => simp [Bracket.char, ih (Nat.le_of_succ_le le)]

theorem partner?_eq_some_iff :
    program.partner? position bracket = some partner ↔
      program.Partners position bracket partner := by
  cases bracket with
  | opening =>
    rw [partner?, seekClosing_eq_some_iff (Nat.sub_le ..)]
    simp only [ClosesAt, Partners, balanced_iff_depthAfter]
    rcases Nat.lt_or_ge position program.size with inside | outside
    · rw [Nat.sub_sub_self inside, Nat.succ_le_iff]
    · constructor
      all_goals
        rintro ⟨le, closes, -⟩
        have := lt_size closes
        omega
  | closing =>
    rw [partner?, seekOpening_eq_some_iff (Nat.min_le_right ..)]
    simp only [OpensAt, Partners, balanced_iff_depthAfter, Nat.lt_min]
    constructor
    · rintro ⟨⟨lt, -⟩, opens, balanced⟩
      exact ⟨lt, opens, balanced⟩
    · rintro ⟨lt, opens, balanced⟩
      exact ⟨⟨lt, lt_size opens⟩, opens, balanced⟩

theorem partner?_eq_none_iff :
    program.partner? position bracket = none ↔
      ¬ ∃ partner, program.Partners position bracket partner := by
  simp only [← partner?_eq_some_iff, Option.eq_none_iff_forall_ne_some, not_exists]

theorem Partners.at_partner (partners : program.Partners position bracket partner) :
    program[partner]? = some bracket.partner.char := by
  cases bracket with
  | opening => exact partners.2.1
  | closing => exact partners.2.1

/-- There is at most one partner, as the search finds each. -/
theorem Partners.unique {other : Nat} (partners : program.Partners position bracket partner)
    (partners' : program.Partners position bracket other) : partner = other := by
  rw [← partner?_eq_some_iff] at partners partners'
  exact Option.some.inj (partners.symm.trans partners')

theorem partners_opening_iff (opens : program[opening]? = some '[') :
    program.Partners opening .opening closing ↔ program.Loop opening closing :=
  ⟨fun ⟨lt, closes, body⟩ => ⟨lt, opens, closes, body⟩,
    fun loop => ⟨loop.lt, loop.closes, loop.body⟩⟩

theorem partners_closing_iff (closes : program[closing]? = some ']') :
    program.Partners closing .closing opening ↔ program.Loop opening closing := by
  rw [Partners, Nat.min_eq_left (Nat.le_of_lt (lt_size closes))]
  exact ⟨fun ⟨lt, opens, body⟩ => ⟨lt, opens, closes, body⟩,
    fun loop => ⟨loop.lt, loop.opens, loop.body⟩⟩

theorem paired_iff_partners (at_bracket : program[position]? = some bracket.char) :
    program.Paired position partner ↔ program.Partners position bracket partner := by
  cases bracket with
  | opening =>
    rw [partners_opening_iff at_bracket]
    refine or_iff_left fun loop => ?_
    have := Option.some.inj (at_bracket.symm.trans loop.closes)
    contradiction
  | closing =>
    rw [partners_closing_iff at_bracket]
    refine or_iff_right fun loop => ?_
    have := Option.some.inj (at_bracket.symm.trans loop.opens)
    contradiction

theorem Loop.closing_unique {other : Nat} (loop : program.Loop opening closing)
    (loop' : program.Loop opening other) : closing = other :=
  Partners.unique ((partners_opening_iff loop.opens).mpr loop)
    ((partners_opening_iff loop.opens).mpr loop')

theorem Loop.opening_unique {other : Nat} (loop : program.Loop opening closing)
    (loop' : program.Loop other closing) : opening = other :=
  Partners.unique ((partners_closing_iff loop.closes).mpr loop)
    ((partners_closing_iff loop.closes).mpr loop')

theorem loop_iff_opensAt (closes : program[closing]? = some ']') :
    program.Loop opening closing ↔ program.OpensAt 0 closing opening := by
  rw [OpensAt, ← balanced_iff_depthAfter]
  exact ⟨fun loop => ⟨loop.lt, loop.opens, loop.body⟩,
    fun ⟨lt, opens, body⟩ => ⟨lt, opens, closes, body⟩⟩

/-- Two loops lie side by side or one inside the other. -/
theorem Loop.nested {opening' closing' : Nat} (loop : program.Loop opening closing)
    (loop' : program.Loop opening' closing') (lt : opening < opening') (lt' : opening' < closing) :
    closing' < closing := by
  rcases Nat.lt_trichotomy closing' closing with lt'' | rfl | gt
  · exact lt''
  · exact absurd (loop.opening_unique loop') (Nat.ne_of_lt lt)
  · obtain ⟨inner, inside⟩ :=
      ((loop_iff_opensAt loop'.closes).mp loop').before lt' (Nat.le_of_lt gt)
    have outside := (loop_iff_opensAt loop.closes).mp loop
    have inner_lt := outside.depth_lt inside lt (Nat.le_of_lt (lt_size loop.closes))
    exact absurd inner_lt (Nat.not_lt_zero inner)

/-- A machine word holds every position but the last one as a number does. -/
theorem partnerAt?_eq_partner? {position : UInt64} (fits : position.toNat + 1 < UInt64.size)
    (bracket : Bracket) :
    program.partnerAt? position bracket = program.partner? position.toNat bracket := by
  cases bracket with
  | opening =>
    have next : (position + 1).toNat = position.toNat + 1 := by
      rw [UInt64.toNat_add]
      exact Nat.mod_eq_of_lt fits
    rw [partnerAt?, partner?, next]
  | closing => rfl

theorem targetAt_eq_target {position : UInt64} (fits : position.toNat + 1 < UInt64.size)
    (bracket : Bracket) :
    program.targetAt position bracket = program.target position.toNat bracket := by
  rw [targetAt, target, partnerAt?_eq_partner? fits]

theorem target_eq_ok_iff :
    program.target position bracket = .ok partner ↔
      program.Partners position bracket partner := by
  rw [target, found_eq_ok_iff, partner?_eq_some_iff]

/-- A jump stays in the program. -/
theorem target_lt_size (found : program.target position bracket = .ok partner) :
    partner < program.size :=
  lt_size (target_eq_ok_iff.mp found).at_partner

/-- The only fault of a search is that the bracket for which it is made has no partner. -/
theorem target_eq_error_iff {fault : Fault} :
    program.target position bracket = .error fault ↔
      (¬ ∃ partner, program.Partners position bracket partner) ∧ fault = .unmatched bracket := by
  rw [target, found_eq_error_iff, partner?_eq_none_iff]

/-- The search for a partner finds the bracket of the other kind with a balanced text between, of
which there is at most one, and fails with the fault of the bracket if and only if there is none. -/
theorem targetAt_iff_partners (program : Program) (position : UInt64)
    (fits : position.toNat + 1 < UInt64.size) (bracket : Bracket) :
    (∀ partner, program.targetAt position bracket = .ok partner ↔
      program.Partners position.toNat bracket partner) ∧
    (∀ partner other, program.Partners position.toNat bracket partner →
      program.Partners position.toNat bracket other → partner = other) ∧
    (program.targetAt position bracket = .error (.unmatched bracket) ↔
      ¬ ∃ partner, program.Partners position.toNat bracket partner) := by
  rw [targetAt_eq_target fits]
  refine ⟨fun partner => target_eq_ok_iff, fun partner other => Partners.unique, ?_⟩
  rw [target_eq_error_iff]
  exact and_iff_left rfl

theorem targetAt_iff_partners_of_nested :
    (1 : UInt64).toNat + 1 < UInt64.size ∧
      (ofString "a[[x]]]").targetAt 1 .opening = .ok 5 ∧
      (ofString "a[[x]]]").Partners 1 .opening 5 ∧
      ∀ other, (ofString "a[[x]]]").Partners 1 .opening other → other = 5 := by
  obtain ⟨found, unique, -⟩ :=
    targetAt_iff_partners (ofString "a[[x]]]") 1 (by decide) .opening
  have ok : (ofString "a[[x]]]").targetAt 1 .opening = .ok 5 := rfl
  have partners := (found 5).mp ok
  exact ⟨by decide, ok, partners, fun other partners' => unique other 5 partners' partners⟩

end Brainfuck.Program
