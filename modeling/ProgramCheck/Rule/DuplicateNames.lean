import ProgramCheck.Rule.Basic

/-!
# Duplicate names

Three rules on names that have to be unique: the parameters of a function and the functions of a
module by their exact names, and the modules of all trees by their names in lower case. The first
two report each repeated name once, where it occurs for the second time. The third reports every
module after the first of its name.
-/

namespace ProgramCheck

/-- The members of a list whose key occurs exactly once among the keys before them, of which
`before` are given. -/
def secondOccurrencesFrom {α : Type} (key : α → String) (before : List String) : List α → List α
  | [] => []
  | a :: as =>
    if before.count (key a) = 1 then a :: secondOccurrencesFrom key (key a :: before) as
    else secondOccurrencesFrom key (key a :: before) as

/-- The members of a list that have the key of exactly one member before them. -/
def secondOccurrences {α : Type} (key : α → String) (as : List α) : List α :=
  secondOccurrencesFrom key [] as

namespace Tree

/-- The errors about parameters of one name. -/
def duplicateParameters (t : Tree) (id : NodeId) (f : Function) : List Diagnostic :=
  (secondOccurrences Parameter.name (f.parameters.filterMap t.parameter?)).map fun p =>
    t.error id ("Duplicate parameter '" ++ p.name ++ "' in function '" ++ f.name ++ "'.")

/-- The functions of a module with their numbers. -/
def functionsOf (t : Tree) (m : Module) : List (NodeId × Function) :=
  m.functions.filterMap fun id => (t.function? id).map fun f => (id, f)

/-- The errors about functions of one name. -/
def duplicateFunctions (t : Tree) (m : Module) : List Diagnostic :=
  (secondOccurrences (·.2.name) (t.functionsOf m)).map fun f =>
    t.error f.1 ("Duplicate function '" ++ f.2.name ++ "' in module '" ++ m.name ++ "'.")

end Tree

namespace Rule

/-- The names of the parameters of a function are distinct. -/
def duplicateParameter : Rule :=
  ofReports "duplicate-parameter" fun cx v =>
    match v.subject with
    | .functionDecl f => cx.tree.duplicateParameters v.id f
    | _ => []

/-- The names of the functions of a module are distinct. -/
def duplicateFunction : Rule :=
  ofReports "duplicate-function" fun cx v =>
    match v.subject with
    | .moduleDecl m => cx.tree.duplicateFunctions m
    | _ => []

/-- The names of the modules of all trees are distinct in lower case. The state is the list of the
lower case names that have been visited. -/
def duplicateModule : Rule where
  name := "duplicate-module"
  State := List String
  start := []
  respond cx v seen :=
    match v.subject with
    | .moduleDecl m =>
      let key := lowercase m.name
      .ok {
        state := key :: seen
        reports :=
          if key ∈ seen then [cx.tree.error v.id ("Duplicate module '" ++ m.name ++ "'.")] else [] }
    | _ => .ok { state := seen }

end Rule

end ProgramCheck
