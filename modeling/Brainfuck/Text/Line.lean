import Brainfuck.Text.Blank

/-! Lines of a byte stream.  A line keeps the line feed that ends it; only the last of a stream can
lack one.  A line of no bytes is what a reader gets at the end of its input. -/

namespace Brainfuck.Text

/-- The bytes of one line, its line feed included. -/
abbrev Line := List UInt8

namespace Line

/-- The reason for which bytes that are not UTF-8 cannot be read. -/
def notText : String := "stream did not contain valid UTF-8"

def ofString (text : String) : Line := text.toUTF8.data.toList

/-- The text of a line that is UTF-8. -/
def text? (line : Line) : Option String := String.fromUTF8? ⟨line.toArray⟩

/-- The lines of a stream, in order. -/
def split (bytes : List UInt8) : List Line := bytes.splitBy fun before _ => before != 10

@[simp] theorem text?_ofString (text : String) : (ofString text).text? = some text := by
  simpa [ofString, text?, String.fromUTF8?] using ⟨text.isValidUTF8, rfl⟩

end Line
end Brainfuck.Text
