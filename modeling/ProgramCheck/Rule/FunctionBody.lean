import ProgramCheck.Rule.Basic

/-!
# Function bodies

A function has a body, unless it is external; then it has none.
-/

namespace ProgramCheck

/-- The errors about the body of a function. -/
def Tree.bodyErrors (t : Tree) (id : NodeId) (f : Function) : List Diagnostic :=
  match f.modifiers.external, f.body with
  | false, none => [t.error id ("Non-externed function '" ++ f.name ++ "' has no body.")]
  | true, some _ => [t.error id ("Externed function '" ++ f.name ++ "' has a body.")]
  | _, _ => []

/-- Exactly the functions that are not external have a body. -/
def Rule.functionBody : Rule :=
  .ofReports "function-body" fun cx v =>
    match v.subject with
    | .functionDecl f => cx.tree.bodyErrors v.id f
    | _ => []

end ProgramCheck
