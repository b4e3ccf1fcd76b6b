import ProgramCheck.Diagnostic
import ProgramCheck.Source.Label
import ProgramCheck.Text.Width

/-!
# Snippets

A snippet shows a diagnostic with the line of the source that it is about and carets under the
characters of its label. The carets line up with the text on a terminal: a character takes as many
columns as it is wide, and a tab reaches to the next multiple of four columns.
-/

namespace ProgramCheck

/-- A character of a line, with its byte offset in the line and its width in columns. -/
structure Cell where
  char : Char
  offset : Nat
  width : Nat
  deriving DecidableEq

/-- The distance between two tab stops. -/
def tabStop : Nat := 4

/-- The cells of a line from an offset and a column on. -/
def cellsFrom (offset column : Nat) : List Char → List Cell
  | [] => []
  | c :: cs =>
    let width := if c = '\t' then tabStop - column % tabStop else displayWidth c
    ⟨c, offset, width⟩ :: cellsFrom (offset + c.utf8Size) (column + width) cs

/-- The text of a cell: blanks for a tab, and the character itself for any other. -/
def Cell.text (cell : Cell) : List Char :=
  if cell.char = '\t' then List.replicate cell.width ' ' else [cell.char]

/-- The mark under a cell of a line, given the label as a range in the line: carets if the cell is
part of the label, blanks if it stands before the end of the label, and otherwise nothing. -/
def Cell.mark (label : ByteRange) (cell : Cell) : List Char :=
  if max label.start cell.offset < min label.stop (cell.offset + cell.char.utf8Size) then
    List.replicate cell.width '^'
  else if cell.offset < label.stop then List.replicate cell.width ' '
  else []

/-- The part of a line that is shown. -/
def shownPart (line : List Char) : List Char :=
  dropEndWhile (fun c => isLineEnd c || c == '\x00') line

/-- The marks under a shown line. An empty label is given the width of one byte, and behind the line
there is room for the mark of one more character. -/
def marks (shown : List Char) (label : ByteRange) : List Char :=
  let label := { label with stop := max label.stop (label.start + 1) }
  (cellsFrom 0 0 shown ++ [Cell.mk '\x00' (byteLength shown) 1]).flatMap (Cell.mark label)

/-- The snippet of a diagnostic on a source text of the given name, with its label in the text. -/
def snippet (name : String) (source : String) (label : ByteRange) (d : Diagnostic) : String :=
  let text := source.toList
  let place := positionAt text label.start
  let line := (lines text)[place.line - 1]?.getD []
  let start := lineStart (lines text) (place.line - 1)
  let number := toString place.line
  let margin := String.ofList (List.replicate number.length ' ')
  let shown := shownPart line
  d.severity.display ++ ": " ++ d.message ++ "\n" ++
  margin ++ " ┌─ " ++ name ++ ":" ++ place.display ++ "\n" ++
  margin ++ " │\n" ++
  number ++ " │ " ++ String.ofList ((cellsFrom 0 0 shown).flatMap Cell.text) ++ "\n" ++
  margin ++ " │ " ++
    String.ofList (marks shown ⟨label.start - start, label.stop - start⟩) ++ "\n" ++
  "\n"

/-! ### Files -/

/-- A source text with its name. -/
structure SourceFile where
  name : String
  source : String
  deriving DecidableEq

/-- The files that diagnostics are shown against, each under the number of files before it. -/
structure SourceFiles where
  files : List SourceFile := []
  deriving DecidableEq

/-- Why a diagnostic cannot be shown. -/
inductive SnippetError
  | missingFile
  deriving DecidableEq

/-- The wording of a snippet error. -/
def SnippetError.message : SnippetError → String
  | .missingFile => "file missing"

namespace SourceFiles

/-- The number that the next file will have, and the files with that one added. -/
def add (fs : SourceFiles) (file : SourceFile) : Nat × SourceFiles :=
  (fs.files.length, ⟨fs.files ++ [file]⟩)

/-- The file of the given number. -/
def file (fs : SourceFiles) (number : Nat) : Except SnippetError SourceFile :=
  match fs.files[number]? with
  | none => .error .missingFile
  | some file => .ok file

/-- The label of a position in the file of the given number. -/
def label (fs : SourceFiles) (number : Nat) (p : Position) : Except SnippetError ByteRange :=
  match fs.file number with
  | .error e => .error e
  | .ok file => .ok (labelRange file.source.toList p)

/-- The snippet of a diagnostic on the file of the given number. -/
def snippet (fs : SourceFiles) (number : Nat) (d : Diagnostic) : Except SnippetError String :=
  match fs.file number, fs.label number d.position with
  | .ok file, .ok label => .ok (ProgramCheck.snippet file.name file.source label d)
  | .error e, _ => .error e
  | _, .error e => .error e

@[simp] theorem file_add (fs : SourceFiles) (file : SourceFile) :
    (fs.add file).2.file (fs.add file).1 = .ok file := by
  simp [SourceFiles.file, add]

end SourceFiles

end ProgramCheck
