import ProgramCheck.Tree.Navigation

/-!
# The walk through a tree

A check looks at the program, at each of its modules, at each function of a module, at each
statement of a body with the statements nested in it, and at each expression of a statement with its
operands, everything in front of what it contains. Imports, parameters and structs are not visited.
`Tree.steps` is the list of these visits. Where the walk meets a node of a sort that does not belong
there, the list has a defect in place of the visit.
-/

namespace ProgramCheck

/-- What a visit looks at. -/
inductive Subject
  | program (p : Program)
  | moduleDecl (m : Module)
  | functionDecl (f : Function)
  | statement (s : Statement)
  | expression (e : Expression)
  deriving DecidableEq

/-- The visit of a node. -/
structure Visit where
  id : NodeId
  subject : Subject
  deriving DecidableEq

/-- One step of a walk: a visit, or a node that is out of place. -/
inductive Step
  | visit (v : Visit)
  | defect (d : Defect)
  deriving DecidableEq

/-- The subject that a node of a kind is for a visit, if nodes of its sort are visited at all. -/
def NodeKind.subject? : NodeKind → Option Subject
  | .program p => some (.program p)
  | .moduleDecl m => some (.moduleDecl m)
  | .functionDecl f => some (.functionDecl f)
  | .statement s => some (.statement s)
  | .expression e => some (.expression e)
  | _ => none

namespace Forest

theorem kind?_of_expression? {f : Forest} {id : NodeId} {e : Expression}
    (h : f.expression? id = some e) : f.kind? id = some (.expression e) := by
  unfold expression? at h
  split at h <;> simp_all

theorem kind?_of_statement? {f : Forest} {id : NodeId} {s : Statement}
    (h : f.statement? id = some s) : f.kind? id = some (.statement s) := by
  unfold statement? at h
  split at h <;> simp_all

theorem lt_of_mem_expression {f : Forest} {id child : NodeId} {e : Expression}
    (h : f.expression? id = some e) (hchild : child ∈ e.children) : child < id := by
  refine lt_of_mem_children (f := f) ?_
  rw [children_eq_of_kind? (kind?_of_expression? h)]
  exact hchild

theorem lt_of_mem_nested {f : Forest} {id child : NodeId} {s : Statement}
    (h : f.statement? id = some s) (hchild : child ∈ s.nested) : child < id := by
  refine lt_of_mem_children (f := f) ?_
  rw [children_eq_of_kind? (kind?_of_statement? h)]
  exact List.mem_append_right _ hchild

end Forest

namespace Tree

/-- The visit of a node of its tree, if nodes of its sort are visited. -/
def visit? (t : Tree) (id : NodeId) : Option Visit :=
  ((t.kind? id).bind NodeKind.subject?).map fun subject => ⟨id, subject⟩

/-- The defect of a node that should have been of another sort. -/
def misplaced (t : Tree) (expected : NodeSort) (id : NodeId) : Defect :=
  match t.kind? id with
  | some kind => .wrongSort expected id t.name kind.sort
  | none => .foreignNode id t.name

/-- The steps through an expression. -/
def expressionSteps (t : Tree) (id : NodeId) : List Step :=
  match _h : t.expression? id with
  | none => [.defect (t.misplaced .expression id)]
  | some e =>
    .visit ⟨id, .expression e⟩ :: e.children.attach.flatMap fun child => t.expressionSteps child.1
termination_by id
decreasing_by exact Forest.lt_of_mem_expression _h child.2

/-- The steps through a statement. -/
def statementSteps (t : Tree) (id : NodeId) : List Step :=
  match _h : t.statement? id with
  | none => [.defect (t.misplaced .statement id)]
  | some s =>
    .visit ⟨id, .statement s⟩ :: (s.operands.flatMap t.expressionSteps ++
      s.nested.attach.flatMap fun child => t.statementSteps child.1)
termination_by id
decreasing_by exact Forest.lt_of_mem_nested _h child.2

/-- The steps through a function. -/
def functionSteps (t : Tree) (id : NodeId) : List Step :=
  match t.function? id with
  | none => [.defect (t.misplaced .functionDecl id)]
  | some f => .visit ⟨id, .functionDecl f⟩ :: (f.body.getD []).flatMap t.statementSteps

/-- The steps through a module. -/
def moduleSteps (t : Tree) (id : NodeId) : List Step :=
  match t.module? id with
  | none => [.defect (t.misplaced .moduleDecl id)]
  | some m => .visit ⟨id, .moduleDecl m⟩ :: m.functions.flatMap t.functionSteps

/-- The steps through a tree. -/
def steps (t : Tree) : List Step :=
  .visit ⟨t.root, .program t.program⟩ :: t.program.modules.flatMap t.moduleSteps

theorem expressionSteps_eq (t : Tree) (id : NodeId) :
    t.expressionSteps id =
      match t.expression? id with
      | none => [.defect (t.misplaced .expression id)]
      | some e => .visit ⟨id, .expression e⟩ :: e.children.flatMap t.expressionSteps := by
  rw [expressionSteps]
  split
  · next h => rw [h]
  · next h => rw [h, flatMap_attach_val]

theorem statementSteps_eq (t : Tree) (id : NodeId) :
    t.statementSteps id =
      match t.statement? id with
      | none => [.defect (t.misplaced .statement id)]
      | some s =>
        .visit ⟨id, .statement s⟩ ::
          (s.operands.flatMap t.expressionSteps ++ s.nested.flatMap t.statementSteps) := by
  rw [statementSteps]
  split
  · next h => rw [h]
  · next h => rw [h, flatMap_attach_val]

end Tree

end ProgramCheck
