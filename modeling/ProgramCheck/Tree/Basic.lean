import ProgramCheck.Tree.Forest

/-!
# Program trees

A program tree is a named forest whose only node without a parent is its root, a program. `ofNodes`
builds one from a list of nodes, each behind its parts, and says which step fails and why if the
nodes do not make up a tree.
-/

namespace ProgramCheck

/-- Why a list of nodes is not a tree. -/
inductive BuildError
  /-- A node cannot be appended to the nodes before it. -/
  | link (cause : LinkError)
  /-- The root is not one of the nodes. -/
  | missingRoot (root : NodeId) (tree : String)
  /-- The root is not a program, or it is part of another node. -/
  | unsuitableRoot (root : NodeId) (tree : String)
  /-- A node other than the root is part of no other node. -/
  | unattached (id : NodeId) (tree : String)
  deriving DecidableEq

/-- The wording of a build error. -/
def BuildError.message : BuildError → String
  | .link cause => cause.message
  | .missingRoot root tree =>
    "root " ++ root.display ++ " does not exist in tree '" ++ tree ++ "'"
  | .unsuitableRoot root tree =>
    "root " ++ root.display ++ " of tree '" ++ tree ++ "' must be an unattached program node"
  | .unattached id tree =>
    "node " ++ id.display ++ " of tree '" ++ tree ++ "' was never attached"

/-- A failed construction: the number of nodes that were in place, and the cause. -/
structure BuildFailure where
  step : Nat
  cause : BuildError
  deriving DecidableEq

/-- A program tree: a forest whose only node without a parent is a program. -/
structure Tree extends Forest where
  name : String
  root : NodeId
  program : Program
  kind_root : nodes[root]?.map Node.kind = some (.program program)
  parents_eq_none_iff : ∀ id : NodeId, parents[id]? = some none ↔ id = root

namespace Forest

/-- The first node besides `root` that has no parent. -/
def firstUnattached? (f : Forest) (root : NodeId) : Option NodeId :=
  (List.range f.size).find? fun id => id != root && f.parents[id]? == some none

theorem firstUnattached?_eq_none {f : Forest} {root : NodeId}
    (h : f.firstUnattached? root = none) {id : NodeId} (hid : f.parents[id]? = some none) :
    id = root := by
  have hlt : id < f.size := by
    obtain ⟨hlt, -⟩ := Array.getElem?_eq_some_iff.1 hid
    rwa [f.size_parents] at hlt
  have := List.find?_eq_none.1 h id (List.mem_range.2 hlt)
  simpa [hid] using this

/-- The tree with the given name and root, if the root is a program and all other nodes have a
parent. -/
def toTree (f : Forest) (name : String) (root : NodeId) : Except BuildError Tree :=
  match hroot : f.nodes[root]?.map Node.kind with
  | none => .error (.missingRoot root name)
  | some (.program program) =>
    if hparent : f.parents[root]? = some none then
      match h : f.firstUnattached? root with
      | some id => .error (.unattached id name)
      | none =>
        .ok { f with
          name, root, program
          kind_root := hroot
          parents_eq_none_iff := fun _ => ⟨firstUnattached?_eq_none h, fun heq => heq ▸ hparent⟩ }
    else .error (.unsuitableRoot root name)
  | some _ => .error (.unsuitableRoot root name)

end Forest

namespace Tree

/-- The tree of a list of nodes, of which each stands behind its parts. -/
def ofNodes (name : String) (nodes : List Node) (root : NodeId) : Except BuildFailure Tree :=
  match Forest.empty.pushAll nodes with
  | .error (step, cause) => .error ⟨step, .link cause⟩
  | .ok f =>
    match f.toTree name root with
    | .error cause => .error ⟨f.size, cause⟩
    | .ok t => .ok t

end Tree

end ProgramCheck
