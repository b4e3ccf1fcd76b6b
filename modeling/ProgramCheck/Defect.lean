import ProgramCheck.Tree.Node

/-!
# Defects

A defect is a fault in what a check was given, and not a finding about a program: a number that is
no node's, a node of the wrong sort, a function that stands in no module. A defect ends the work in
which it comes up.
-/

namespace ProgramCheck

/-- A fault that ends the work in which it comes up. -/
inductive Defect
  /-- The tree has no node with this number. -/
  | foreignNode (id : NodeId) (tree : String)
  /-- The node is not of the sort that its place calls for. -/
  | wrongSort (expected : NodeSort) (id : NodeId) (tree : String) (found : NodeSort)
  /-- The function with this name stands in no module. -/
  | outsideModule (function : String)
  deriving DecidableEq

/-- The wording of a defect. -/
def Defect.message : Defect → String
  | .foreignNode id tree =>
    "node " ++ id.display ++ " does not belong to tree '" ++ tree ++ "'"
  | .wrongSort expected id tree found =>
    "internal error: expected " ++ expected.withArticle ++ " node at " ++ id.display ++
      " in tree '" ++ tree ++ "', found " ++ found.name
  | .outsideModule function => "function '" ++ function ++ "' is not contained in a module"

end ProgramCheck
