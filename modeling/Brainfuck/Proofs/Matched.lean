import Brainfuck.Proofs.Failure

/-! Programs in which every bracket has a partner.  These are the balanced ones, so that a machine
that executes one of them never looks for a partner in vain; in any other program the search fails
at a bracket without a partner, when the cell at hand sends the machine to it. -/

namespace Brainfuck

/-- By how much the `[` of a text outnumber its `]`. -/
def surplus (text : List Char) : Int := text.count '[' - text.count ']'

section Surplus

variable {depth after : Nat} {c : Char} {text : List Char}

@[simp] theorem surplus_nil : surplus [] = 0 := rfl

theorem surplus_cons : surplus (c :: text) = surplus [c] + surplus text := by
  simp only [surplus, List.count_cons, List.count_nil]
  omega

theorem depthAfter_singleton : depthAfter depth [c] = nest depth c := by
  rw [depthAfter_cons]
  exact Option.bind_fun_some _

theorem surplus_of_none (other : Bracket.ofChar? c = none) : surplus [c] = 0 := by
  have not_opening : c ≠ '[' := by
    rintro rfl
    contradiction
  have not_closing : c ≠ ']' := by
    rintro rfl
    contradiction
  rw [surplus, List.count_cons_of_ne not_opening, List.count_cons_of_ne not_closing]
  rfl

theorem surplus_opening : surplus ['['] = 1 := rfl

theorem surplus_closing : surplus [']'] = -1 := rfl

theorem nest_eq_some_iff :
    nest depth c = some after ↔ (after : Int) = depth + surplus [c] := by
  cases kind : Bracket.ofChar? c with
  | none =>
    rw [nest_of_none kind, surplus_of_none kind, Option.some.injEq]
    omega
  | some bracket =>
    obtain rfl := Bracket.ofChar?_eq_some_iff.mp kind
    cases bracket with
    | opening =>
      rw [Bracket.char, nest_opening, surplus_opening, Option.some.injEq]
      omega
    | closing =>
      rw [Bracket.char, nest_closing_eq_some_iff, surplus_closing]
      omega

/-- The loops open behind a text are those open before it and its surplus, unless the count falls
below zero on the way. -/
theorem depthAfter_eq_some_iff : depthAfter depth text = some after ↔
    (∀ count, 0 ≤ depth + surplus (text.take count)) ∧ (after : Int) = depth + surplus text := by
  induction text generalizing depth with
  | nil =>
    rw [depthAfter_nil, Option.some.injEq]
    simp only [List.take_nil, surplus_nil, Int.add_zero, Int.natCast_nonneg, implies_true, true_and]
    omega
  | cons c text ih =>
    rw [depthAfter_cons, Option.bind_eq_some_iff, surplus_cons]
    constructor
    · rintro ⟨inner, nested, rest⟩
      rw [nest_eq_some_iff] at nested
      obtain ⟨above, same⟩ := ih.mp rest
      refine ⟨fun count => ?_, by omega⟩
      cases count with
      | zero => simp
      | succ count =>
        have := above count
        rw [List.take_succ_cons, surplus_cons]
        omega
    · rintro ⟨above, same⟩
      have first := above 1
      rw [List.take_succ_cons, List.take_zero] at first
      obtain ⟨inner, nested⟩ := Int.eq_ofNat_of_zero_le first
      refine ⟨inner, nest_eq_some_iff.mpr nested.symm, ih.mpr ⟨fun count => ?_, by omega⟩⟩
      have := above (count + 1)
      rw [List.take_succ_cons, surplus_cons] at this
      omega

end Surplus

namespace Program

/-- The number of loops open before a position, where a `]` too many counts below zero. -/
def nesting (program : Program) (position : Nat) : Int := surplus (program.toList.take position)

/-- Read from left to right, no loop is closed that is not open, and none is open at the end. -/
def WellNested (program : Program) : Prop :=
  (∀ position, 0 ≤ program.nesting position) ∧ program.nesting program.size = 0

variable {program : Program} {depth total left first stop position : Nat} {bracket : Bracket}

theorem wellNested_iff_balanced : program.WellNested ↔ Balanced program.toList := by
  rw [balanced_iff_depthAfter, depthAfter_eq_some_iff, WellNested, nesting,
    List.take_of_length_le (by simp)]
  simp [nesting, eq_comm]

/-- Where more than `depth` loops are open, one of them has `depth` others open inside. -/
theorem exists_opensAt (le : stop ≤ program.size)
    (reached : depthAfter 0 (program.between 0 stop) = some total) (lt : depth < total) :
    ∃ opening, program.OpensAt depth stop opening := by
  induction stop generalizing depth total with
  | zero =>
    rw [between_self, depthAfter_nil] at reached
    cases reached
    contradiction
  | succ stop ih =>
    have last := Array.getElem?_eq_getElem (show stop < program.size from le)
    rw [between_succ (Nat.zero_le _) last, depthAfter_append, Option.bind_eq_some_iff] at reached
    obtain ⟨before, reached, nested⟩ := reached
    rw [depthAfter_singleton] at nested
    have le := Nat.le_of_succ_le le
    obtain ⟨other, rfl⟩ | ⟨opens, rfl⟩ | ⟨closes, rfl⟩ := nest_cases nested
    · obtain ⟨opening, opens⟩ := ih le reached lt
      exact ⟨opening, (opensAt_succ_iff last).mpr (.inr ⟨depth, opens, nest_of_none other⟩)⟩
    · rw [opens] at last
      cases depth with
      | zero => exact ⟨stop, (opensAt_succ_iff last).mpr (.inl ⟨rfl, rfl, rfl⟩)⟩
      | succ depth =>
        obtain ⟨opening, opens⟩ := ih le reached (Nat.lt_of_succ_lt_succ lt)
        exact ⟨opening, (opensAt_succ_iff last).mpr (.inr ⟨depth, opens, rfl⟩)⟩
    · -- the loop closed here is inside the one sought, which is a level deeper before it
      rw [closes] at last
      obtain ⟨opening, opens⟩ := ih le reached (Nat.succ_lt_succ lt)
      exact ⟨opening, (opensAt_succ_iff last).mpr (.inr ⟨depth + 1, opens, rfl⟩)⟩

/-- Where more than `depth` loops are closed, one of them has `depth` others opened inside. -/
theorem exists_closesAt (le : first ≤ program.size)
    (reached : depthAfter total (program.between first program.size) = some left)
    (lt : left + depth < total) : ∃ closing, program.ClosesAt depth first closing := by
  induction length : program.size - first generalizing first depth total with
  | zero =>
    obtain rfl : first = program.size := by omega
    rw [between_self, depthAfter_nil] at reached
    cases reached
    omega
  | succ rest ih =>
    have inside : first < program.size := by omega
    have head := Array.getElem?_eq_getElem inside
    rw [between_eq_cons inside head, depthAfter_cons, Option.bind_eq_some_iff] at reached
    obtain ⟨inner, nested, reached⟩ := reached
    have shorter : program.size - (first + 1) = rest := by omega
    obtain ⟨other, rfl⟩ | ⟨opens, rfl⟩ | ⟨closes, rfl⟩ := nest_cases nested
    · obtain ⟨closing, closes⟩ := ih inside reached lt shorter
      exact ⟨closing, (closesAt_iff_of_head head).mpr (.inr ⟨depth, nest_of_none other, closes⟩)⟩
    · rw [opens] at head
      have lt : left + (depth + 1) < total + 1 := Nat.succ_lt_succ lt
      obtain ⟨closing, closes⟩ := ih inside reached lt shorter
      exact ⟨closing, (closesAt_iff_of_head head).mpr (.inr ⟨depth + 1, rfl, closes⟩)⟩
    · rw [closes] at head
      cases depth with
      | zero => exact ⟨first, (closesAt_iff_of_head head).mpr (.inl ⟨rfl, rfl, rfl⟩)⟩
      | succ depth =>
        obtain ⟨closing, closes⟩ := ih inside reached (Nat.lt_of_succ_lt_succ lt) shorter
        exact ⟨closing, (closesAt_iff_of_head head).mpr (.inr ⟨depth, rfl, closes⟩)⟩

theorem between_all : program.between 0 program.size = program.toList := by
  simp [between]

/-- The count of open loops, cut at a bracket of a balanced program. -/
theorem exists_depth_of_balanced (balanced : Balanced program.toList)
    (at_bracket : program[position]? = some bracket.char) :
    ∃ outside inside, depthAfter 0 (program.between 0 position) = some outside ∧
      nest outside bracket.char = some inside ∧
      depthAfter inside (program.between (position + 1) program.size) = some 0 := by
  have lt := lt_size at_bracket
  rw [balanced_iff_depthAfter, ← between_all, between_append (Nat.zero_le _) (Nat.le_of_lt lt),
    depthAfter_append, Option.bind_eq_some_iff] at balanced
  obtain ⟨outside, before, behind⟩ := balanced
  rw [between_eq_cons lt at_bracket, depthAfter_cons, Option.bind_eq_some_iff] at behind
  obtain ⟨inside, nested, behind⟩ := behind
  exact ⟨outside, inside, before, nested, behind⟩

theorem exists_partners_of_balanced (balanced : Balanced program.toList)
    (at_bracket : program[position]? = some bracket.char) :
    ∃ partner, program.Partners position bracket partner := by
  have lt := lt_size at_bracket
  obtain ⟨outside, inside, before, nested, behind⟩ := exists_depth_of_balanced balanced at_bracket
  cases bracket with
  | opening =>
    rw [Bracket.char, nest_opening, Option.some.injEq] at nested
    obtain ⟨closing, le, closes, body⟩ :=
      exists_closesAt lt behind (show 0 + 0 < inside by omega)
    exact ⟨closing, le, closes, balanced_iff_depthAfter.mpr body⟩
  | closing =>
    rw [Bracket.char, nest_closing_eq_some_iff] at nested
    obtain ⟨opening, opens⟩ :=
      exists_opensAt (Nat.le_of_lt lt) before (show 0 < outside by omega)
    exact ⟨opening, (partners_closing_iff at_bracket).mpr ((loop_iff_opensAt at_bracket).mpr opens)⟩

/-- Where each `]` has a partner, none is one too many. -/
theorem exists_depth_of_partners (le : stop ≤ program.size)
    (matched : ∀ closing, program[closing]? = some ']' →
      ∃ opening, program.Loop opening closing) :
    ∃ depth, depthAfter 0 (program.between 0 stop) = some depth := by
  induction stop with
  | zero => exact ⟨0, by rw [between_self, depthAfter_nil]⟩
  | succ stop ih =>
    have last := Array.getElem?_eq_getElem (show stop < program.size from le)
    obtain ⟨depth, before⟩ := ih (Nat.le_of_succ_le le)
    rw [between_succ (Nat.zero_le _) last, depthAfter_append, before, Option.bind_some]
    cases kind : Bracket.ofChar? program[stop] with
    | none => exact ⟨depth, by simp [nest_of_none kind]⟩
    | some bracket =>
      rw [Bracket.ofChar?_eq_some_iff] at kind
      rw [kind] at last ⊢
      cases bracket with
      | opening => exact ⟨depth + 1, by simp [Bracket.char]⟩
      | closing =>
        obtain ⟨opening, loop⟩ := matched stop last
        -- the loop that ends here is open before its end
        rw [between_append (Nat.zero_le _) (Nat.le_of_lt loop.lt), depthAfter_append,
          Option.bind_eq_some_iff] at before
        obtain ⟨outside, -, inside⟩ := before
        rw [between_eq_cons loop.lt loop.opens, depthAfter_cons, nest_opening, Option.bind_some,
          loop.body.depthAfter] at inside
        cases inside
        exact ⟨outside, by simp [Bracket.char]⟩

/-- A program is balanced if and only if each of its brackets has a partner. -/
theorem balanced_iff_exists_partners : Balanced program.toList ↔
    ∀ position bracket, program[position]? = some bracket.char →
      ∃ partner, program.Partners position bracket partner := by
  constructor
  · exact fun balanced position bracket => exists_partners_of_balanced balanced
  · intro matched
    have loops : ∀ closing, program[closing]? = some ']' →
        ∃ opening, program.Loop opening closing := by
      intro closing closes
      obtain ⟨opening, partners⟩ := matched closing .closing closes
      exact ⟨opening, (partners_closing_iff closes).mp partners⟩
    obtain ⟨depth, reached⟩ := exists_depth_of_partners (Nat.le_refl _) loops
    rw [balanced_iff_depthAfter, ← between_all, reached, Option.some.injEq]
    by_contra open_left
    -- the last `[` left open is closed by its partner
    obtain ⟨opening, lt, opens, behind⟩ :=
      exists_opensAt (Nat.le_refl _) reached (Nat.pos_of_ne_zero open_left)
    obtain ⟨closing, gt, closes, body⟩ := matched opening .opening opens
    have inside := lt_size closes
    rw [between_append gt (Nat.le_of_lt inside), depthAfter_append, body.depthAfter,
      Option.bind_some, between_eq_cons inside closes, depthAfter_cons] at behind
    simp at behind

end Program

namespace Machine

variable {σ : Type} {feed : Feed σ} {state final : Machine × σ} {count : Nat} {bracket : Bracket}

/-- A run stops for want of a partner only at a bracket that has none, and that the cell takes. -/
theorem Ends.at_unmatched (ends : Ends feed state final) (fitted : Fitted state.1)
    (sound : state.1.fault = none) (failed : final.1.fault = some (.unmatched bracket)) :
    state.1.program[final.1.position]? = some bracket.char ∧
      (¬ ∃ partner, state.1.program.Partners final.1.position bracket partner) ∧
      bracket.taken final.1.tape.current := by
  obtain ⟨_, before, _, reached, -, -, executes, stops, unchanged⟩ :=
    ends.exists_stops fitted sound failed
  have same_program : before.1.program = state.1.program := reached ▸ program_after
  rw [unchanged, ← same_program]
  cases stops with
  | unmatched taken alone => exact ⟨getElem?_of_loop executes, alone, taken⟩

theorem fault_after_ne_unmatched (balanced : Balanced state.1.program.toList)
    (fitted : Fitted state.1) (sound : state.1.fault = none) :
    (after feed count state).1.fault ≠ some (.unmatched bracket) := by
  intro failed
  have ends := ends_iff.mpr ⟨halted_of_fault failed, count, rfl⟩
  obtain ⟨at_bracket, alone, -⟩ := ends.at_unmatched fitted sound failed
  exact alone (Program.exists_partners_of_balanced balanced at_bracket)

end Machine

/-- The search for a partner succeeds at every bracket if and only if the program is well nested.
Hence no run of a well nested program, however long, comes to an unmatched bracket; and where a run
of another does, a bracket of that kind stands that has no partner, and the current cell is one on
which the bracket jumps. -/
theorem wellNested_iff_matched (program : Program) :
    (program.WellNested ↔ ∀ position bracket, program[position]? = some bracket.char →
      ∃ partner, program.target position bracket = .ok partner) ∧
    ∀ (allocator : Allocator) (settings : Settings) (machine : Machine),
      Machine.create allocator program settings = .ok machine →
      ∀ (σ : Type) (feed : Feed σ) (source : σ) (bracket : Bracket),
        (program.WellNested → ∀ count,
          (Machine.after feed count (machine, source)).1.fault ≠ some (.unmatched bracket)) ∧
        ∀ final diagnostic, Machine.Ends feed (machine, source) final →
          final.1.result = .error diagnostic → diagnostic.fault = .unmatched bracket →
          program[diagnostic.position]? = some bracket.char ∧
            (¬ ∃ partner, program.Partners diagnostic.position bracket partner) ∧
            match bracket with
            | .opening => final.1.tape.current = 0
            | .closing => final.1.tape.current ≠ 0 := by
  refine ⟨?_, fun allocator settings machine created σ feed source bracket => ?_⟩
  · simp only [Program.wellNested_iff_balanced, Program.target_eq_ok_iff,
      Program.balanced_iff_exists_partners]
  · have fitted := Machine.fitted_of_create created
    obtain ⟨tape, -, rfl⟩ := Machine.create_eq_ok_iff.mp created
    refine ⟨fun nested count => ?_, fun final diagnostic ends failed unmatched => ?_⟩
    · exact Machine.fault_after_ne_unmatched (Program.wellNested_iff_balanced.mp nested) fitted rfl
    · obtain ⟨fault, faulty, rfl⟩ := Machine.result_eq_error_iff.mp failed
      obtain rfl : fault = .unmatched bracket := unmatched
      obtain ⟨at_bracket, alone, taken⟩ := ends.at_unmatched fitted rfl faulty
      refine ⟨at_bracket, alone, ?_⟩
      cases bracket <;> simpa [Bracket.taken] using taken

/-- A well nested program on a run that jumps, and one with a `]` too many at its end. -/
theorem wellNested_iff_matched_of_stray :
    let nested := Program.ofString "+[[-]]"
    let stray := Program.ofString "+[-]+]"
    let feed := Feed.ofList (.ok "")
    nested.WellNested ∧ (∃ partner, nested.target 1 .opening = .ok partner) ∧
      (∃ machine, Machine.create .ample nested {} = .ok machine ∧ ∀ count,
        (Machine.after feed count (machine, [])).1.fault ≠ some (.unmatched .closing)) ∧
      ∃ machine final diagnostic, Machine.create .ample stray {} = .ok machine ∧
        Machine.Ends feed (machine, []) final ∧ final.1.result = .error diagnostic ∧
        diagnostic.fault = .unmatched .closing ∧ diagnostic.position = 5 ∧
        final.1.tape.current ≠ 0 ∧
        ¬ ∃ partner, stray.Partners diagnostic.position .closing partner := by
  intro nested stray feed
  have wellNested : nested.WellNested := by
    rw [Program.wellNested_iff_balanced]
    decide
  obtain ⟨matched, runs⟩ := wellNested_iff_matched nested
  obtain ⟨-, runs'⟩ := wellNested_iff_matched stray
  refine ⟨wellNested, matched.mp wellNested 1 .opening rfl, ?_, ?_⟩
  · obtain ⟨machine, created⟩ : ∃ machine, Machine.create .ample nested {} = .ok machine := ⟨_, rfl⟩
    exact ⟨machine, created, (runs .ample {} machine created _ feed [] .closing).1 wellNested⟩
  · obtain ⟨machine, created⟩ : ∃ machine, Machine.create .ample stray {} = .ok machine := ⟨_, rfl⟩
    have ran : (Machine.runFor feed 9 (machine, [])).map
        (fun final => (final.1.position, final.1.fault)) =
        some (5, some (.unmatched .closing)) := by
      cases created
      decide +kernel
    obtain ⟨final, ends, shown⟩ := Machine.exists_ends_of_map ran
    obtain ⟨same_position, faulty⟩ := Prod.mk.inj shown
    have failed := Machine.result_eq_error_iff.mpr ⟨_, faulty, rfl⟩
    obtain ⟨-, alone, jumps⟩ :=
      (runs' .ample {} machine created _ feed [] .closing).2 final _ ends failed rfl
    exact ⟨machine, final, _, created, ends, failed, rfl, same_position, jumps, alone⟩

end Brainfuck
