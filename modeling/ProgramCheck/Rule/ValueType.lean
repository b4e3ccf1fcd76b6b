import ProgramCheck.Rule.Basic
import ProgramCheck.Scope

/-!
# Types of values

The literal that a variable is declared with or that is assigned to it has the declared type of the
variable. The rule knows the types of literals only: an identifier is taken to have whatever type is
expected, and of operations and calls nothing is said. A variable or parameter has to be in scope
where it is assigned to.
-/

namespace ProgramCheck

/-- The type of an expression where the type `expected` is called for, if it is known. -/
def Expression.inferredType? (expected : TypeRef) : Expression → Option TypeRef
  | .text _ => some .charPointer
  | .character _ => some .char
  | .integer _ => some .i32
  | .boolean _ => some .bool
  | .identifier _ => some expected
  | .binary .. => none
  | .call .. => none

namespace Tree

/-- The type that a node, taken as a value, is known to have other than the expected one. -/
def mismatch? (t : Tree) (id : NodeId) (expected : TypeRef) : Option TypeRef :=
  ((t.expression? id).bind (·.inferredType? expected)).filter (· ≠ expected)

/-- The errors on the declaration of a variable. -/
def declarationErrors (t : Tree) (id : NodeId) (name : String) (initializer : NodeId) :
    List Diagnostic :=
  match t.symbol? id with
  | some ⟨_, .localVariable type, _⟩ =>
    match t.mismatch? initializer type with
    | none => []
    | some actual =>
      [t.error id ("Type mismatch: Expression type '" ++ actual.display ++
        "' does not match declared type '" ++ type.display ++ "'.")]
  | _ => [t.error id ("No symbol found for variable '" ++ name ++ "'.")]

/-- The errors on an assignment. -/
def assignmentErrors (t : Tree) (id : NodeId) (name : String) (value : NodeId) :
    List Diagnostic :=
  match t.visibleType? id name with
  | none => [t.error id ("Undeclared variable '" ++ name ++ "' cannot be assigned.")]
  | some type =>
    match t.mismatch? value type with
    | none => []
    | some actual =>
      [t.error id ("Type mismatch: Cannot assign expression of type '" ++ actual.display ++
        "' to variable '" ++ name ++ "' of type '" ++ type.display ++ "'.")]

end Tree

/-- Variables are declared with and assigned literals of their declared type, and are in scope where
they are assigned. -/
def Rule.valueType : Rule where
  name := "type-declaration-assignment"
  State := Unit
  start := ()
  respond cx v _ :=
    match v.subject with
    | .statement (.declaration name _ initializer) =>
      .ok {
        state := ()
        reports := cx.tree.declarationErrors v.id name initializer
        consulted := [(cx.place, v.id)] }
    | .statement (.assignment name value) =>
      .ok {
        state := ()
        reports := cx.tree.assignmentErrors v.id name value
        consulted := (cx.tree.searched v.id name).map fun id => (cx.place, id) }
    | _ => .ok { state := () }

end ProgramCheck
