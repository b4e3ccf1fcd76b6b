import ProgramCheck.Defect
import ProgramCheck.Tree.Basic

/-!
# Moving about in a tree

Down a forest leads `children`, and `preorder` lists a node with everything below it, each node in
front of its parts. `drain` gives the same list from a stack of nodes that are still to be listed.
Up leads `parent?`, and `ancestors` lists the way from a node to the end of its parents. On a number
that is no node all of these answer emptily; `Tree.checked` tells such numbers apart.
-/

namespace ProgramCheck

/-- Going over the members of a list with the proof that they are members changes nothing for a
function that does not use the proof. -/
theorem flatMap_attach_val {α β : Type} (l : List α) (g : α → List β) :
    (l.attach.flatMap fun a => g a.1) = l.flatMap g := by
  conv => rhs; rw [← List.attach_map_subtype_val l, List.flatMap_map]

namespace Forest

/-- The kind of a node. -/
def kind? (f : Forest) (id : NodeId) : Option NodeKind := f.nodes[id]?.map Node.kind

/-- The position of a node. -/
def position (f : Forest) (id : NodeId) : Position := (f.nodes[id]?.map Node.position).getD {}

/-- The parts of a node, in order. -/
def children (f : Forest) (id : NodeId) : List NodeId := childrenIn f.nodes id

/-- The node that a node is part of. -/
def parent? (f : Forest) (id : NodeId) : Option NodeId := f.parents[id]?.join

theorem children_eq_of_kind? {f : Forest} {id : NodeId} {k : NodeKind} (h : f.kind? id = some k) :
    f.children id = k.children := by
  obtain ⟨node, hnode, rfl⟩ := Option.map_eq_some_iff.1 h
  simp [children, childrenIn, hnode]

theorem parent?_eq_some_iff {f : Forest} {child parent : NodeId} :
    f.parent? child = some parent ↔ child ∈ f.children parent := by
  rw [parent?, Option.join_eq_some_iff, f.parents_eq_some_iff, children]

theorem lt_of_mem_children {f : Forest} {parent child : NodeId} (h : child ∈ f.children parent) :
    child < parent := f.lt_of_mem_childrenIn h

theorem lt_size_of_mem_children {f : Forest} {parent child : NodeId}
    (h : child ∈ f.children parent) : parent < f.size := by
  refine Nat.lt_of_not_le fun hle => ?_
  have : f.nodes[parent]? = none := Array.getElem?_eq_none hle
  simp [children, childrenIn, this] at h

/-! ### The accessors by kind -/

/-- The import under a number. -/
def import? (f : Forest) (id : NodeId) : Option Import :=
  match f.kind? id with
  | some (.importDecl i) => some i
  | _ => none

/-- The module under a number. -/
def module? (f : Forest) (id : NodeId) : Option Module :=
  match f.kind? id with
  | some (.moduleDecl m) => some m
  | _ => none

/-- The struct under a number. -/
def struct? (f : Forest) (id : NodeId) : Option Struct :=
  match f.kind? id with
  | some (.structDecl s) => some s
  | _ => none

/-- The function under a number. -/
def function? (f : Forest) (id : NodeId) : Option Function :=
  match f.kind? id with
  | some (.functionDecl g) => some g
  | _ => none

/-- The parameter under a number. -/
def parameter? (f : Forest) (id : NodeId) : Option Parameter :=
  match f.kind? id with
  | some (.parameterDecl p) => some p
  | _ => none

/-- The statement under a number. -/
def statement? (f : Forest) (id : NodeId) : Option Statement :=
  match f.kind? id with
  | some (.statement s) => some s
  | _ => none

/-- The expression under a number. -/
def expression? (f : Forest) (id : NodeId) : Option Expression :=
  match f.kind? id with
  | some (.expression e) => some e
  | _ => none

/-! ### Down the forest -/

/-- A node and everything below it, each node in front of its parts. -/
def preorder (f : Forest) (id : NodeId) : List NodeId :=
  id :: (f.children id).attach.flatMap fun child => f.preorder child.1
termination_by id
decreasing_by exact lt_of_mem_children child.2

theorem preorder_eq (f : Forest) (id : NodeId) :
    f.preorder id = id :: (f.children id).flatMap f.preorder := by
  rw [preorder, flatMap_attach_val]

/-- The nodes of a stack with everything below them. The node on top is listed and gives way to its
parts. -/
def drain (f : Forest) : List NodeId → List NodeId
  | [] => []
  | id :: stack => id :: f.drain (f.children id ++ stack)
termination_by stack => (stack.flatMap f.preorder).length
decreasing_by simp [preorder_eq f id]

/-- A stack is drained one tree after the other, each in preorder. -/
theorem drain_eq_flatMap (f : Forest) (stack : List NodeId) :
    f.drain stack = stack.flatMap f.preorder := by
  fun_induction f.drain stack with
  | case1 => rfl
  | case2 id stack ih => rw [ih, List.flatMap_append, List.flatMap_cons, preorder_eq f id]; rfl

/-- Everything below a node. -/
def descendants (f : Forest) (id : NodeId) : List NodeId := f.drain (f.children id)

/-- A node and everything below it. -/
def descendantsAndSelf (f : Forest) (id : NodeId) : List NodeId := f.drain [id]

/-! ### Up the forest -/

/-- The nodes above a node, the nearest first. -/
def ancestors (f : Forest) (id : NodeId) : List NodeId :=
  match _h : f.parent? id with
  | none => []
  | some parent => parent :: f.ancestors parent
termination_by f.size - id
decreasing_by
  have hmem := parent?_eq_some_iff.1 _h
  have := lt_of_mem_children hmem
  have := lt_size_of_mem_children hmem
  simp only [NodeId] at *
  omega

theorem ancestors_eq (f : Forest) (id : NodeId) :
    f.ancestors id =
      match f.parent? id with
      | none => []
      | some parent => parent :: f.ancestors parent := by
  rw [ancestors]
  split
  · next h => rw [h]
  · next h => rw [h]

/-- The nearest module above a node. -/
def enclosingModule? (f : Forest) (id : NodeId) : Option NodeId :=
  (f.ancestors id).find? fun a => (f.module? a).isSome

/-- The nearest function above a node. -/
def enclosingFunction? (f : Forest) (id : NodeId) : Option NodeId :=
  (f.ancestors id).find? fun a => (f.function? a).isSome

end Forest

namespace Tree

/-- The node under a number, or the complaint that the tree has no such node. -/
def node (t : Tree) (id : NodeId) : Except Defect Node :=
  match t.nodes[id]? with
  | some node => .ok node
  | none => .error (.foreignNode id t.name)

/-- An answer about the node under a number, or the complaint that the tree has no such node. -/
def checked {α : Type} (t : Tree) (id : NodeId) (answer : α) : Except Defect α :=
  if id < t.size then .ok answer else .error (.foreignNode id t.name)

end Tree

end ProgramCheck
