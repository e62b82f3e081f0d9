import Mathlib.Data.List.Induction
import Mathlib.Data.List.SplitBy
import Mathlib.Data.List.TakeWhile
import Brainfuck.Highlight

/-! Highlighted lines.  A line of code is cut where the style of its characters changes and nowhere
else, so there is one way to cut it, and every other way to cut it into spans of one style has more
of them.  The highlighter keeps the last span back until the style changes or the line ends.  The
spans that it ends with are those of the line read so far, of which each character joins the last
one or begins a new one. -/

namespace Brainfuck

/-- The first character of a line that is not white space. -/
def Text.firstMark? (line : String) : Option Char := line.toList.find? fun c => !isBlank c

namespace Span

def ofChar (c : Char) : Span := ⟨Style.ofChar c, String.singleton c⟩

/-- The spans of a line with one more character at its end. -/
def extend (spans : List Span) (c : Char) : List Span :=
  match spans.getLast? with
  | none => [ofChar c]
  | some last =>
    if last.style = Style.ofChar c then spans.dropLast ++ [{ last with text := last.text.push c }]
    else spans ++ [ofChar c]

/-- The spans are the characters of the line in order, none is empty, and each has the style of its
characters. -/
structure Cuts (spans : List Span) (line : List Char) : Prop where
  join : (String.join (spans.map text)).toList = line
  nonempty : ∀ span ∈ spans, span.text ≠ ""
  uniform : ∀ span ∈ spans, ∀ c ∈ span.text.toList, Style.ofChar c = span.style

/-- The longest runs of characters of one style. -/
def runs (line : List Char) : List Span :=
  (line.splitBy fun c d => Style.ofChar c == Style.ofChar d).filterMap fun group =>
    group.head?.map fun c => ⟨Style.ofChar c, String.ofList group⟩

/-- The line is cut only where the style changes: no two neighbours have the same. -/
structure CutsAtChanges (spans : List Span) (line : List Char) : Prop extends Cuts spans line where
  apart : (spans.map style).IsChain (· ≠ ·)

variable {spans front : List Span} {last : Span} {line chars : List Char} {c : Char} {kind : Style}

theorem extend_concat : extend (front ++ [last]) c =
    if last.style = Style.ofChar c then front ++ [{ last with text := last.text.push c }]
    else front ++ [last] ++ [ofChar c] := by
  simp [extend]

namespace CutsAtChanges

theorem nil : CutsAtChanges [] [] := ⟨⟨rfl, nofun, nofun⟩, .nil⟩

/-- A character of another style than the last one begins a span. -/
theorem concat (cuts : CutsAtChanges spans line)
    (changes : ∀ last ∈ spans.getLast?, last.style ≠ Style.ofChar c) :
    CutsAtChanges (spans ++ [ofChar c]) (line ++ [c]) where
  join := by simp [← cuts.join, ofChar]
  nonempty := by
    rw [List.forall_mem_append, List.forall_mem_singleton]
    exact ⟨cuts.nonempty, by simp [ofChar]⟩
  uniform := by
    rw [List.forall_mem_append, List.forall_mem_singleton]
    exact ⟨cuts.uniform, by simp [ofChar]⟩
  apart := by
    rw [List.map_append, List.isChain_append]
    refine ⟨cuts.apart, .singleton _, ?_⟩
    simpa [ofChar] using changes

/-- A character of the style of the last one joins its span. -/
theorem join_last (cuts : CutsAtChanges (front ++ [last]) line)
    (same : last.style = Style.ofChar c) :
    CutsAtChanges (front ++ [{ last with text := last.text.push c }]) (line ++ [c]) := by
  obtain ⟨⟨rfl, nonempty, uniform⟩, apart⟩ := cuts
  rw [List.forall_mem_append, List.forall_mem_singleton] at nonempty uniform
  refine ⟨⟨by simp, ?_, ?_⟩, by simpa using apart⟩
  · rw [List.forall_mem_append, List.forall_mem_singleton]
    exact ⟨nonempty.1, by simp⟩
  · rw [List.forall_mem_append, List.forall_mem_singleton, String.toList_push,
      List.forall_mem_append, List.forall_mem_singleton]
    exact ⟨uniform.1, uniform.2, same.symm⟩

theorem extend (cuts : CutsAtChanges spans line) (c : Char) :
    CutsAtChanges (Span.extend spans c) (line ++ [c]) := by
  obtain rfl | ⟨front, last, rfl⟩ := List.eq_nil_or_concat' spans
  · exact cuts.concat nofun
  · rw [extend_concat]
    split
    next same => exact cuts.join_last same
    next changes => exact cuts.concat (by simpa using changes)

theorem of_foldl (line : List Char) : CutsAtChanges (line.foldl Span.extend []) line := by
  induction line using List.reverseRecOn with
  | nil => exact .nil
  | append_singleton line c ih =>
    rw [List.foldl_append, List.foldl_cons, List.foldl_nil]
    exact ih.extend c

/-- The texts of the spans are the longest runs of characters of one style. -/
theorem splitBy_eq (cuts : CutsAtChanges spans line) :
    (line.splitBy fun c d => Style.ofChar c == Style.ofChar d) = spans.map (·.text.toList) := by
  obtain ⟨⟨rfl, nonempty, uniform⟩, apart⟩ := cuts
  rw [List.splitBy_eq_iff]
  refine ⟨?_, ?_, ?_, ?_⟩
  · rw [String.toList_join, List.flatMap_map]
    rfl
  · simpa using nonempty
  · rw [List.forall_mem_map]
    intro span among
    refine (List.pairwise_of_forall_mem_list fun c here d here' => ?_).isChain
    rw [beq_iff_eq, uniform span among c here, uniform span among d here']
  · rw [List.isChain_map] at apart ⊢
    refine apart.imp_of_mem_imp fun before behind among among' differ => ?_
    refine ⟨by simpa using nonempty before among, by simpa using nonempty behind among', ?_⟩
    rw [beq_eq_false_iff_ne, uniform before among _ (List.getLast_mem _),
      uniform behind among' _ (List.head_mem _)]
    exact differ

/-- There is one way to cut a line where its style changes. -/
theorem eq_runs (cuts : CutsAtChanges spans line) : spans = runs line := by
  have named : ∀ span ∈ spans, (span.text.toList.head?.map fun c =>
      (⟨Style.ofChar c, String.ofList span.text.toList⟩ : Span)) = some span := by
    intro span among
    obtain ⟨c, first⟩ : ∃ c, span.text.toList.head? = some c := by
      rw [← Option.isSome_iff_exists, List.isSome_head?]
      simpa using cuts.nonempty span among
    rw [first, Option.map_some, cuts.uniform span among c (List.mem_of_head? first),
      String.ofList_toList]
  rw [runs, cuts.splitBy_eq, List.filterMap_map]
  exact List.filterMap_some.symm.trans
    (List.filterMap_congr fun span among => (named span among).symm)

end CutsAtChanges

end Span

namespace Highlighter

/-- A highlighter is in no span before the first character, and behind it in one that is not
empty. -/
def InSpan (highlighter : Highlighter) : Prop :=
  match highlighter.style with
  | none => highlighter.spans = #[] ∧ highlighter.buffer = ""
  | some _ => highlighter.buffer ≠ ""

variable {highlighter : Highlighter} {spans : Array Span} {style : Style} {buffer : String}

theorem finish_of_nonempty (nonempty : buffer ≠ "") :
    finish ⟨spans, some style, buffer⟩ = spans.toList ++ [⟨style, buffer⟩] := by
  simp [finish, nonempty]

theorem inSpan_take (inSpan : highlighter.InSpan) (c : Char) : (highlighter.take c).InSpan := by
  obtain ⟨spans, style, buffer⟩ := highlighter
  cases style with
  | none => simp [InSpan, take]
  | some style =>
    by_cases same : style = Style.ofChar c <;> simp [InSpan, take, same]

/-- A character changes the spans that there would be if the line ended with it. -/
theorem finish_take (inSpan : highlighter.InSpan) (c : Char) :
    (highlighter.take c).finish = Span.extend highlighter.finish c := by
  obtain ⟨spans, style, buffer⟩ := highlighter
  cases style with
  | none =>
    obtain ⟨rfl, rfl⟩ := inSpan
    have begins : take ⟨#[], none, ""⟩ c = ⟨#[], some (Style.ofChar c), "".push c⟩ := rfl
    rw [begins, finish_of_nonempty (by simp)]
    rfl
  | some style =>
    rw [finish_of_nonempty inSpan, Span.extend_concat]
    by_cases same : style = Style.ofChar c
    · have joins : take ⟨spans, some style, buffer⟩ c = ⟨spans, some style, buffer.push c⟩ := by
        simp [take, same]
      rw [joins, finish_of_nonempty (by simp), if_pos same]
    · have flushes : take ⟨spans, some style, buffer⟩ c =
          ⟨spans.push ⟨style, buffer⟩, some (Style.ofChar c), "".push c⟩ := by
        simp [take, same]
      rw [flushes, finish_of_nonempty (by simp), if_neg same, Array.toList_push]
      rfl

theorem finish_foldl_take (inSpan : highlighter.InSpan) (line : List Char) :
    (line.foldl take highlighter).finish = line.foldl Span.extend highlighter.finish := by
  induction line generalizing highlighter with
  | nil => rfl
  | cons c line ih =>
    rw [List.foldl_cons, List.foldl_cons, ih (inSpan_take inSpan c), finish_take inSpan]

end Highlighter

namespace Span

variable {spans front : List Span} {last : Span} {line chars : List Char} {c : Char} {kind : Style}

theorem ofCode_eq_foldl (line : List Char) : ofCode line = line.foldl extend [] :=
  @Highlighter.finish_foldl_take {} ⟨rfl, rfl⟩ line

theorem ofCode_eq_runs (line : List Char) : ofCode line = runs line :=
  ofCode_eq_foldl line ▸ (CutsAtChanges.of_foldl line).eq_runs

theorem cutsAtChanges_iff : CutsAtChanges spans line ↔ spans = ofCode line := by
  constructor
  · intro cuts
    rw [ofCode_eq_runs, ← cuts.eq_runs]
  · rintro rfl
    rw [ofCode_eq_foldl]
    exact .of_foldl line

section Length

/-- A character of the style of the last one does not begin a span. -/
theorem length_extend_of_same (same : spans.getLast?.map style = some (Style.ofChar c)) :
    (extend spans c).length = spans.length := by
  obtain rfl | ⟨front, last, rfl⟩ := List.eq_nil_or_concat' spans
  · contradiction
  · rw [List.getLast?_concat, Option.map_some, Option.some.injEq] at same
    rw [extend_concat, if_pos same, List.length_append, List.length_append]
    rfl

theorem length_extend_le : (extend spans c).length ≤ spans.length + 1 := by
  obtain rfl | ⟨front, last, rfl⟩ := List.eq_nil_or_concat' spans
  · exact Nat.le_refl _
  · rw [extend_concat]
    split <;> simp

theorem style_getLast?_extend : (extend spans c).getLast?.map style = some (Style.ofChar c) := by
  obtain rfl | ⟨front, last, rfl⟩ := List.eq_nil_or_concat' spans
  · rfl
  · rw [extend_concat]
    split
    next same => simp [same]
    next => simp [ofChar]

theorem length_foldl_extend_of_same (uniform : ∀ c ∈ chars, Style.ofChar c = kind)
    (same : spans.getLast?.map style = some kind) :
    (chars.foldl extend spans).length = spans.length := by
  induction chars generalizing spans with
  | nil => rfl
  | cons c chars ih =>
    rw [List.forall_mem_cons] at uniform
    obtain ⟨rfl, uniform⟩ := uniform
    rw [List.foldl_cons, ih uniform style_getLast?_extend, length_extend_of_same same]

/-- Characters of one style begin one span at most. -/
theorem length_foldl_extend_le (uniform : ∀ c ∈ chars, Style.ofChar c = kind) :
    (chars.foldl extend spans).length ≤ spans.length + 1 := by
  cases chars with
  | nil => exact Nat.le_succ _
  | cons c chars =>
    rw [List.forall_mem_cons] at uniform
    obtain ⟨rfl, uniform⟩ := uniform
    rw [List.foldl_cons, length_foldl_extend_of_same uniform style_getLast?_extend]
    exact length_extend_le

theorem Cuts.length_le (cuts : Cuts spans line) : (ofCode line).length ≤ spans.length := by
  obtain ⟨rfl, -, uniform⟩ := cuts
  rw [ofCode_eq_foldl]
  induction spans using List.reverseRecOn with
  | nil => exact Nat.le_refl _
  | append_singleton front last ih =>
    rw [List.forall_mem_append, List.forall_mem_singleton] at uniform
    rw [List.map_append, String.join_append, String.toList_append, List.foldl_append,
      List.length_append]
    have same : ∀ c ∈ (String.join ([last].map text)).toList, Style.ofChar c = last.style := by
      simpa using uniform.2
    exact Nat.le_trans (length_foldl_extend_le same) (Nat.add_le_add_right (ih uniform.1) 1)

end Length

theorem ofLine_eq_ite (line : String) : ofLine line =
    if Text.firstMark? line = some ':' then [⟨{}, line⟩] else ofCode line.toList := by
  rw [ofLine, Text.firstMark?, List.find?_not_eq_head?_dropWhile]

end Span

/-- The spans of a line are all of its text.  Those of a line that is no directive are cut where the
style changes; no other spans are, and none of one style each are fewer.  They are what comes of the
line when it is read character by character. -/
theorem ofLine_cutsAtChanges (line : String) :
    String.join ((Span.ofLine line).map Span.text) = line ∧
    (Text.firstMark? line ≠ some ':' →
      (∀ spans, Span.CutsAtChanges spans line.toList ↔ spans = Span.ofLine line) ∧
      (∀ spans, Span.Cuts spans line.toList → (Span.ofLine line).length ≤ spans.length) ∧
      Span.ofLine line = line.toList.foldl Span.extend []) := by
  rw [Span.ofLine_eq_ite]
  split
  next directive => exact ⟨by simp, fun code => absurd directive code⟩
  next =>
    have cuts := Span.cutsAtChanges_iff.mpr (rfl : Span.ofCode line.toList = _)
    exact ⟨String.toList_inj.mp cuts.join, fun _ => ⟨fun _ => Span.cutsAtChanges_iff,
      fun _ => Span.Cuts.length_le, Span.ofCode_eq_foldl _⟩⟩

/-- A colon behind an instruction is a comment like the blank behind it, and two kinds of bracket
are of one style. -/
theorem ofLine_cutsAtChanges_of_colon :
    let line := "+: []β"
    let spans := [⟨Style.ofChar '+', "+"⟩, ⟨Style.comment, ": "⟩, ⟨Style.ofChar '[', "[]"⟩,
      ⟨Style.comment, "β"⟩]
    Text.firstMark? line ≠ some ':' ∧ Span.CutsAtChanges spans line.toList ∧
      Span.ofLine line = spans ∧
      ∀ others, Span.Cuts others line.toList → 4 ≤ others.length := by
  intro line spans
  have code : Text.firstMark? line ≠ some ':' := by decide
  have uniform : (spans.all fun span =>
      span.text.toList.all fun c => Style.ofChar c = span.style) = true := by
    decide +kernel
  simp only [List.all_eq_true, decide_eq_true_eq] at uniform
  have cuts : Span.CutsAtChanges spans line.toList :=
    ⟨⟨by decide +kernel, by decide +kernel, uniform⟩, by decide⟩
  obtain ⟨-, as_code⟩ := ofLine_cutsAtChanges line
  obtain ⟨cuts_iff, fewest, -⟩ := as_code code
  have same : spans = Span.ofLine line := (cuts_iff spans).mp cuts
  rw [← same] at fewest
  exact ⟨code, cuts, same.symm, fewest⟩

end Brainfuck
