import ProgramCheck.Position
import ProgramCheck.Source.Lines
import ProgramCheck.Text.WhiteSpace

/-!
# Labels

The label of a position in a text is the range of bytes that a diagnostic at that position points
at: the character at the position, where there is one. A position behind the last character of its
line has an empty label at the end of the line, in front of the characters that end it, and a
position behind the last line has an empty label at the end of the text. In place of line 0 and of
column 0 the first ones count.
-/

namespace ProgramCheck

/-- The bytes from `start` up to `stop` of a text. -/
structure ByteRange where
  start : Nat
  stop : Nat
  deriving DecidableEq

/-- Whether a character ends a line or is part of such an end. -/
def isLineEnd (c : Char) : Bool := c == '\n' || c == '\r'

/-- The label of a column in a line that starts at the given offset. -/
def columnRange (start : Nat) (line : List Char) (column : Nat) : ByteRange :=
  let atEnd := start + byteLength (dropEndWhile isLineEnd line)
  match line.drop (column - 1) with
  | [] => ⟨atEnd, atEnd⟩
  | c :: _ =>
    if isLineEnd c then ⟨atEnd, atEnd⟩
    else
      let offset := start + byteLength (line.take (column - 1))
      ⟨offset, offset + c.utf8Size⟩

/-- The label of a position in a text. -/
def labelRange (text : List Char) (p : Position) : ByteRange :=
  match (lines text)[p.line - 1]? with
  | none => ⟨byteLength text, byteLength text⟩
  | some line => columnRange (lineStart (lines text) (p.line - 1)) line p.column

theorem labelRange_of_some {text line : List Char} {p : Position}
    (h : (lines text)[p.line - 1]? = some line) :
    labelRange text p = columnRange (lineStart (lines text) (p.line - 1)) line p.column := by
  simp only [labelRange, h]

theorem labelRange_of_none {text : List Char} {p : Position} (h : (lines text)[p.line - 1]? = none) :
    labelRange text p = ⟨byteLength text, byteLength text⟩ := by
  simp only [labelRange, h]

end ProgramCheck
