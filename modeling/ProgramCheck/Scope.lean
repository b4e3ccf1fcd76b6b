import ProgramCheck.Symbol.Basic

/-!
# Scope

The declarations that a statement can see: the statements in front of it in its own block and in the
blocks around it, the innermost block first and each block backwards, and last the parameters of the
function, backwards too. What stands in one block of a branch is out of sight in the other block
and behind the branch.
-/

namespace ProgramCheck

/-- The members of a list in front of the first occurrence of `a`, none if there is no such. -/
def preceding {α : Type} [DecidableEq α] (as : List α) (a : α) : List α :=
  if a ∈ as then as.takeWhile (· ≠ a) else []

namespace Forest

/-- The nodes in scope at `child`, given the nodes above it, the nearest first. -/
def scopeWithin (f : Forest) : NodeId → List NodeId → List NodeId
  | _, [] => []
  | child, parent :: above =>
    match f.kind? parent with
    | some (.functionDecl g) => (preceding (g.body.getD []) child).reverse ++ g.parameters.reverse
    | some (.statement (.branch _ thenBlock elseBlock)) =>
      let block := if child ∈ thenBlock then thenBlock else elseBlock.getD []
      (preceding block child).reverse ++ f.scopeWithin parent above
    | _ => f.scopeWithin parent above

/-- The nodes in scope at a statement, the nearest first. -/
def scope (f : Forest) (id : NodeId) : List NodeId := f.scopeWithin id (f.ancestors id)

/-- The type of the variable or parameter `name` that a node declares. -/
def valueType? (f : Forest) (name : String) (id : NodeId) : Option TypeRef :=
  match f.symbol? id with
  | some ⟨declared, .localVariable type, _⟩ => if declared = name then some type else none
  | some ⟨declared, .parameter type, _⟩ => if declared = name then some type else none
  | _ => none

/-- The type of the nearest variable or parameter of a name in scope at a statement. -/
def visibleType? (f : Forest) (id : NodeId) (name : String) : Option TypeRef :=
  (f.scope id).findSome? (f.valueType? name)

/-- The nodes that a search for a name in scope looks at: all up to the first that declares it. -/
def searched (f : Forest) (id : NodeId) (name : String) : List NodeId :=
  let missed := (f.scope id).takeWhile fun c => (f.valueType? name c).isNone
  missed ++ ((f.scope id).drop missed.length).take 1

end Forest

end ProgramCheck
