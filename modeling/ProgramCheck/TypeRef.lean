import ProgramCheck.Text.Alphanumeric
import ProgramCheck.Text.WhiteSpace

/-!
# Type references

A type reference is a base name with a number of pointer indirections, written as the name followed
by that many stars. `parse` reads such a text and allows white space around it and between the name
and the stars.
-/

namespace ProgramCheck

/-- A named type behind a number of pointer indirections. -/
structure TypeRef where
  base : String
  level : Fin 256 := 0
  deriving DecidableEq

namespace TypeRef

/-- The type of no value. -/
def void : TypeRef := ⟨"void", 0⟩

/-- The type of the integer literals. -/
def i32 : TypeRef := ⟨"i32", 0⟩

/-- The type of the truth values. -/
def bool : TypeRef := ⟨"bool", 0⟩

/-- The type of the character literals. -/
def char : TypeRef := ⟨"char", 0⟩

/-- The type with one more indirection, if the number of indirections has room for it. -/
def pointerTo? (t : TypeRef) : Option TypeRef :=
  if h : t.level.val + 1 < 256 then some { t with level := ⟨t.level.val + 1, h⟩ } else none

/-- The type of the string literals, a pointer to a character. -/
def charPointer : TypeRef := ⟨"char", 1⟩

theorem pointerTo?_char : char.pointerTo? = some charPointer := rfl

/-- The type as text: its base name followed by one star for every indirection. -/
def display (t : TypeRef) : String :=
  t.base ++ String.ofList (List.replicate t.level.val '*')

/-! ### Reading a type -/

/-- Why a text is not a type. -/
inductive ParseError where
  /-- The text has no name in front of its stars. -/
  | noName (text : String)
  /-- The name holds a character that is no letter, digit or underscore. -/
  | badName (name : String)
  /-- The text has more stars than there can be indirections. -/
  | tooManyIndirections (text : String)
  deriving DecidableEq

/-- The wording of a parse error. -/
def ParseError.message : ParseError → String
  | .noName text => "invalid type reference '" ++ text ++ "'"
  | .badName name => "invalid type name '" ++ name ++ "'"
  | .tooManyIndirections text => "too many indirections in '" ++ text ++ "'"

/-- The part of a trimmed text in front of its last stars and the white space before them. -/
def namePart (text : List Char) : List Char := trimEnd (dropEndWhile (· == '*') text)

/-- The type that a text denotes. -/
def parse (text : String) : Except ParseError TypeRef :=
  let trimmed := trim text.toList
  let name := namePart trimmed
  let stars := (trimmed.drop name.length).count '*'
  if name = [] then .error (.noName (String.ofList trimmed))
  else if !name.all isNameChar then .error (.badName (String.ofList name))
  else if h : stars < 256 then .ok ⟨String.ofList name, ⟨stars, h⟩⟩
  else .error (.tooManyIndirections (String.ofList trimmed))

end TypeRef

end ProgramCheck
