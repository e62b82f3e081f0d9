import Brainfuck.Style
import Brainfuck.Text.Blank

/-! Highlighting of a line as it is typed. -/

namespace Brainfuck

structure Span where
  style : Style
  text : String
  deriving DecidableEq, Repr

namespace Span

def paint (span : Span) : String := span.style.paint span.text

end Span

/-- A highlighter on its way through a line: the spans behind it, and the style and the text of the
span that it is in. -/
structure Highlighter where
  spans : Array Span := #[]
  style : Option Style := none
  buffer : String := ""

namespace Highlighter

/-- Takes a character, which begins a span if its style is another one. -/
def take (highlighter : Highlighter) (c : Char) : Highlighter :=
  let style := Style.ofChar c
  match highlighter.style with
  | some current =>
    if current = style then { highlighter with buffer := highlighter.buffer.push c }
    else {
      spans := highlighter.spans.push ⟨current, highlighter.buffer⟩
      style := some style
      buffer := "".push c }
  | none => { highlighter with style := some style, buffer := highlighter.buffer.push c }

/-- The spans at the end of the line, with the one that the highlighter is in unless it is empty. -/
def finish (highlighter : Highlighter) : List Span :=
  match highlighter.style with
  | some style =>
    if highlighter.buffer.isEmpty then highlighter.spans.toList
    else (highlighter.spans.push ⟨style, highlighter.buffer⟩).toList
  | none => highlighter.spans.toList

end Highlighter

namespace Span

/-- A line of code, cut where the style changes. -/
def ofCode (line : List Char) : List Span := (line.foldl Highlighter.take {}).finish

/-- A line as it is shown: code in colours, but a directive as one plain span. -/
def ofLine (line : String) : List Span :=
  if (line.toList.dropWhile Text.isBlank).head? = some ':' then [⟨{}, line⟩]
  else ofCode line.toList

end Span

def highlight (line : String) : String := String.join ((Span.ofLine line).map Span.paint)

end Brainfuck
