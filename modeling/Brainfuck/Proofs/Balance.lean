import Brainfuck.Instruction

/-! Balanced texts.  `Balanced` is their grammar, and `depthAfter` counts the loops that are open
while a text is read from left to right.  The two say the same: a text is balanced if it leaves no
loop open and closes none that it has not opened. -/

namespace Brainfuck

def Bracket.char : Bracket → Char
  | opening => '['
  | closing => ']'

theorem Bracket.ofChar?_eq_some_iff {c : Char} {bracket : Bracket} :
    Bracket.ofChar? c = some bracket ↔ c = bracket.char := by
  unfold Bracket.ofChar?
  split <;> cases bracket <;> simp_all [char]

@[simp] theorem Bracket.ofChar?_char (bracket : Bracket) :
    Bracket.ofChar? bracket.char = some bracket := by
  cases bracket <;> rfl

/-- Each `[` is closed by a `]` behind a balanced text.  What is no bracket may stand anywhere. -/
inductive Balanced : List Char → Prop
  | nil : Balanced []
  | skip {c : Char} {text : List Char} (other : Bracket.ofChar? c = none)
      (rest : Balanced text) : Balanced (c :: text)
  | loop {inner text : List Char} (body : Balanced inner) (rest : Balanced text) :
      Balanced ('[' :: (inner ++ ']' :: text))

/-- The number of loops open after a character, where `depth` are open before it.  A `]` that closes
no loop has none. -/
def nest (depth : Nat) (c : Char) : Option Nat :=
  match Bracket.ofChar? c, depth with
  | none, depth => some depth
  | some .opening, depth => some (depth + 1)
  | some .closing, 0 => none
  | some .closing, depth + 1 => some depth

/-- The number of loops open after a text, where `depth` are open before it. -/
def depthAfter (depth : Nat) (text : List Char) : Option Nat := text.foldlM nest depth

section Depth

variable {depth after : Nat} {c : Char} {text : List Char}

theorem nest_of_none (other : Bracket.ofChar? c = none) : nest depth c = some depth := by
  simp [nest, other]

@[simp] theorem nest_opening : nest depth '[' = some (depth + 1) := rfl

@[simp] theorem nest_closing_zero : nest 0 ']' = none := rfl

@[simp] theorem nest_closing_succ : nest (depth + 1) ']' = some depth := rfl

@[simp] theorem nest_closing_eq_some_iff : nest depth ']' = some after ↔ depth = after + 1 := by
  cases depth <;> simp

/-- All that one character can do to the count of open loops. -/
theorem nest_cases (nested : nest depth c = some after) :
    (Bracket.ofChar? c = none ∧ after = depth) ∨ (c = '[' ∧ after = depth + 1) ∨
      (c = ']' ∧ depth = after + 1) := by
  cases kind : Bracket.ofChar? c with
  | none =>
    rw [nest_of_none kind, Option.some.injEq] at nested
    exact .inl ⟨rfl, nested.symm⟩
  | some bracket =>
    obtain rfl := Bracket.ofChar?_eq_some_iff.mp kind
    cases bracket with
    | opening =>
      rw [Bracket.char, nest_opening, Option.some.injEq] at nested
      exact .inr (.inl ⟨rfl, nested.symm⟩)
    | closing => exact .inr (.inr ⟨rfl, nest_closing_eq_some_iff.mp nested⟩)

theorem nest_strictMono {outer after' : Nat} (inside : nest depth c = some after)
    (outside : nest outer c = some after') (lt : depth < outer) : after < after' := by
  cases kind : Bracket.ofChar? c with
  | none =>
    rw [nest_of_none kind] at inside outside
    cases inside
    cases outside
    exact lt
  | some side =>
    obtain rfl := Bracket.ofChar?_eq_some_iff.mp kind
    cases side with
    | opening =>
      cases inside
      cases outside
      exact Nat.succ_lt_succ lt
    | closing =>
      have depth_eq := nest_closing_eq_some_iff.mp inside
      have outer_eq := nest_closing_eq_some_iff.mp outside
      omega

@[simp] theorem depthAfter_nil : depthAfter depth [] = some depth := rfl

@[simp] theorem depthAfter_cons :
    depthAfter depth (c :: text) = (nest depth c).bind (depthAfter · text) := by
  simp [depthAfter, Option.bind_eq_bind]

@[simp] theorem depthAfter_append {first second : List Char} :
    depthAfter depth (first ++ second) = (depthAfter depth first).bind (depthAfter · second) := by
  simp [depthAfter, Option.bind_eq_bind]

end Depth

theorem Balanced.depthAfter {text : List Char} (balanced : Balanced text) (depth : Nat) :
    depthAfter depth text = some depth := by
  induction balanced generalizing depth with
  | nil => rfl
  | skip other _ ih => simp [nest_of_none other, ih]
  | loop _ _ body rest => simp [body, rest]

/-- A text that closes `depth` loops opened before it, and is balanced between. -/
def Closes : Nat → List Char → Prop
  | 0, text => Balanced text
  | depth + 1, text => ∃ inner rest, text = inner ++ ']' :: rest ∧ Balanced inner ∧ Closes depth rest

theorem Closes.skip {depth : Nat} {c : Char} {text : List Char}
    (other : Bracket.ofChar? c = none) (closes : Closes depth text) : Closes depth (c :: text) := by
  cases depth with
  | zero => exact Balanced.skip other closes
  | succ depth =>
    obtain ⟨inner, rest, rfl, balanced, closes⟩ := closes
    exact ⟨c :: inner, rest, rfl, balanced.skip other, closes⟩

/-- A `[` in front is closed by the first of the loops that the text closes. -/
theorem Closes.enter {depth : Nat} {text : List Char} (closes : Closes (depth + 1) text) :
    Closes depth ('[' :: text) := by
  obtain ⟨inner, rest, rfl, balanced, closes⟩ := closes
  cases depth with
  | zero => exact balanced.loop closes
  | succ depth =>
    obtain ⟨inner', rest, rfl, balanced', closes⟩ := closes
    exact ⟨'[' :: (inner ++ ']' :: inner'), rest, by simp, balanced.loop balanced', closes⟩

theorem closes_of_depthAfter {depth : Nat} {text : List Char}
    (none_left : depthAfter depth text = some 0) : Closes depth text := by
  induction text generalizing depth with
  | nil =>
    obtain rfl : depth = 0 := Option.some.inj none_left
    exact Balanced.nil
  | cons c text ih =>
    rw [depthAfter_cons] at none_left
    cases kind : Bracket.ofChar? c with
    | none =>
      rw [nest_of_none kind] at none_left
      exact Closes.skip kind (ih none_left)
    | some bracket =>
      obtain rfl := Bracket.ofChar?_eq_some_iff.mp kind
      cases bracket with
      | opening => exact Closes.enter (ih none_left)
      | closing =>
        cases depth with
        | zero => simp [Bracket.char] at none_left
        | succ depth => exact ⟨[], text, rfl, Balanced.nil, ih none_left⟩

/-- A text is balanced if and only if the count of open loops, read from left to right, never falls
below zero and ends at zero. -/
theorem balanced_iff_depthAfter {text : List Char} : Balanced text ↔ depthAfter 0 text = some 0 :=
  ⟨fun balanced => balanced.depthAfter 0, closes_of_depthAfter⟩

instance (text : List Char) : Decidable (Balanced text) :=
  decidable_of_iff _ balanced_iff_depthAfter.symm

end Brainfuck
