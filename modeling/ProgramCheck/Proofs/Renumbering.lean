import ProgramCheck.Proofs.Matching

/-!
# Trees under other numbers

A tree that is the same under other numbers matches the tree, at the same positions. Under the other
numbers the walk takes the same steps through it, those behind a defect as well.
-/

namespace ProgramCheck

/-! ### What is said about nodes -/

section Renumber

variable (σ : NodeId → NodeId)

/-- What a visit looks at, under other numbers. -/
def Subject.renumber : Subject → Subject
  | .program p => .program (p.renumber σ)
  | .moduleDecl m => .moduleDecl (m.renumber σ)
  | .functionDecl f => .functionDecl (f.renumber σ)
  | .statement s => .statement (s.renumber σ)
  | .expression e => .expression (e.renumber σ)

/-- A visit under other numbers. -/
def Visit.renumber (v : Visit) : Visit := ⟨σ v.id, v.subject.renumber σ⟩

/-- A defect under other numbers in the tree of another name. -/
def Defect.renumber (name : String) : Defect → Defect
  | .foreignNode id _ => .foreignNode (σ id) name
  | .wrongSort expected id _ found => .wrongSort expected (σ id) name found
  | .outsideModule function => .outsideModule function

/-- A step under other numbers in the tree of another name. -/
def Step.renumber (name : String) : Step → Step
  | .visit v => .visit (v.renumber σ)
  | .defect d => .defect (d.renumber σ name)

end Renumber

/-! ### Bodies -/

/-- What is visited from some nodes on is known under other numbers from what is visited from each of
them on. -/
theorem flatMap_steps {σ : NodeId → NodeId} {g g' : NodeId → List Step} {f : Step → Step}
    {ids : List NodeId} (h : ∀ id ∈ ids, g' (σ id) = (g id).map f) :
    (ids.map σ).flatMap g' = (ids.flatMap g).map f := by
  rw [List.flatMap_map, List.map_flatMap]
  exact List.flatMap_congr h

/-- Whether a tree has the statements and the expressions of another one under other numbers, and
nodes of the same sorts in the place of its other nodes. -/
structure SameBodies (t t' : Tree) (σ : NodeId → NodeId) : Prop where
  sort : ∀ id, (t'.kind? (σ id)).map NodeKind.sort = (t.kind? id).map NodeKind.sort
  statement? : ∀ id, t'.statement? (σ id) = (t.statement? id).map (Statement.renumber σ)
  expression? : ∀ id, t'.expression? (σ id) = (t.expression? id).map (Expression.renumber σ)

namespace SameBodies

variable {t t' : Tree} {σ : NodeId → NodeId} (b : SameBodies t t' σ)
include b

theorem misplaced (expected : NodeSort) (id : NodeId) :
    t'.misplaced expected (σ id) = (t.misplaced expected id).renumber σ t'.name := by
  have hsort := b.sort id
  rw [Tree.misplaced, Tree.misplaced]
  cases hk : t.kind? id with
  | none =>
    rw [hk, Option.map_none, Option.map_eq_none_iff] at hsort
    rw [hsort]
    rfl
  | some k =>
    rw [hk, Option.map_some, Option.map_eq_some_iff] at hsort
    obtain ⟨k', hk', hsort⟩ := hsort
    rw [hk']
    exact congrArg (Defect.wrongSort expected (σ id) t'.name) hsort

theorem expressionSteps (id : NodeId) :
    t'.expressionSteps (σ id) = (t.expressionSteps id).map (Step.renumber σ t'.name) := by
  induction id using Nat.strongRecOn with
  | ind id ih =>
    rw [Tree.expressionSteps_eq, Tree.expressionSteps_eq t, b.expression?]
    cases he : t.expression? id with
    | none => simp only [Option.map_none, b.misplaced, List.map_singleton, Step.renumber]
    | some e =>
      simp only [Option.map_some, Expression.children_renumber]
      rw [flatMap_steps fun child hchild => ih child (Forest.lt_of_mem_expression he hchild)]
      rfl

theorem statementSteps (id : NodeId) :
    t'.statementSteps (σ id) = (t.statementSteps id).map (Step.renumber σ t'.name) := by
  induction id using Nat.strongRecOn with
  | ind id ih =>
    rw [Tree.statementSteps_eq, Tree.statementSteps_eq t, b.statement?]
    cases hs : t.statement? id with
    | none => simp only [Option.map_none, b.misplaced, List.map_singleton, Step.renumber]
    | some s =>
      simp only [Option.map_some, Statement.operands_renumber, Statement.nested_renumber]
      rw [flatMap_steps fun child _ => b.expressionSteps child,
        flatMap_steps fun child hchild => ih child (Forest.lt_of_mem_nested hs hchild),
        ← List.map_append]
      rfl

end SameBodies

namespace Renumbering

variable {t t' : Tree} {σ : NodeId → NodeId} (r : Renumbering t t' σ)
include r

theorem kind? (id : NodeId) : t'.kind? (σ id) = (t.kind? id).map (NodeKind.renumber σ) := by
  rw [Forest.kind?, Forest.kind?, r.nodes, Option.map_map, Option.map_map]
  rfl

/-- A tree matches the tree that is the same under other numbers. -/
theorem matching : Matching Eq t t' σ where
  root := r.root
  withoutStructs id _ := by
    rw [r.kind?, Option.map_map]
    exact Option.map_congr fun k _ => k.withoutStructs_renumber σ
  position id _ := by
    rw [Forest.position, Forest.position, r.nodes, Option.map_map]
    rfl

/-! ### Accessors -/

theorem module? (id : NodeId) : t'.module? (σ id) = (t.module? id).map (Module.renumber σ) := by
  rw [Forest.module?, Forest.module?, r.kind?]
  cases t.kind? id with
  | none => rfl
  | some k => cases k <;> rfl

theorem function? (id : NodeId) :
    t'.function? (σ id) = (t.function? id).map (Function.renumber σ) := by
  rw [Forest.function?, Forest.function?, r.kind?]
  cases t.kind? id with
  | none => rfl
  | some k => cases k <;> rfl

theorem statement? (id : NodeId) :
    t'.statement? (σ id) = (t.statement? id).map (Statement.renumber σ) := by
  rw [Forest.statement?, Forest.statement?, r.kind?]
  cases t.kind? id with
  | none => rfl
  | some k => cases k <;> rfl

theorem expression? (id : NodeId) :
    t'.expression? (σ id) = (t.expression? id).map (Expression.renumber σ) := by
  rw [Forest.expression?, Forest.expression?, r.kind?]
  cases t.kind? id with
  | none => rfl
  | some k => cases k <;> rfl

/-! ### The walk -/

theorem sameBodies : SameBodies t t' σ where
  sort id := by
    rw [r.kind?, Option.map_map]
    exact congrArg (Option.map · _) (funext fun k => k.sort_renumber σ)
  statement? := r.statement?
  expression? := r.expression?

theorem functionSteps (id : NodeId) :
    t'.functionSteps (σ id) = (t.functionSteps id).map (Step.renumber σ t'.name) := by
  rw [Tree.functionSteps, Tree.functionSteps, r.function?]
  cases t.function? id with
  | none => simp only [Option.map_none, r.sameBodies.misplaced, List.map_singleton, Step.renumber]
  | some g =>
    simp only [Option.map_some, Function.body_renumber]
    rw [flatMap_steps fun child _ => r.sameBodies.statementSteps child]
    rfl

theorem moduleSteps (id : NodeId) :
    t'.moduleSteps (σ id) = (t.moduleSteps id).map (Step.renumber σ t'.name) := by
  rw [Tree.moduleSteps, Tree.moduleSteps, r.module?]
  cases t.module? id with
  | none => simp only [Option.map_none, r.sameBodies.misplaced, List.map_singleton, Step.renumber]
  | some m =>
    simp only [Option.map_some, Module.renumber]
    rw [flatMap_steps fun child _ => r.functionSteps child]
    rfl

/-- **The walk is the same under other numbers.** -/
theorem steps : t'.steps = t.steps.map (Step.renumber σ t'.name) := by
  rw [Tree.steps, Tree.steps, r.matching.program, r.root]
  simp only [Program.renumber]
  rw [flatMap_steps fun child _ => r.moduleSteps child]
  rfl

end Renumbering

end ProgramCheck
