/-!
# Positions

A position names a place in a source text by its line and its column. Positions are compared line
first.
-/

namespace ProgramCheck

/-- A line and a column of a source text, both counted from 1. -/
structure Position where
  line : Nat := 0
  column : Nat := 0
  deriving DecidableEq, Inhabited

namespace Position

instance : Ord Position where
  compare p q := (compare p.line q.line).then (compare p.column q.column)

/-- The position as text, `line:column`. -/
def display (p : Position) : String := toString p.line ++ ":" ++ toString p.column

end Position

end ProgramCheck
