import ProgramCheck.Proofs.CallSites
import ProgramCheck.Proofs.Renumbering

/-!
# Trees with more imports and more exports

A tree is edited by an import that is added to its program, or by `export` that is added to the
modifiers of a function. The nodes get other numbers by it, and nothing else changes: the walk takes
the same steps under other numbers, and the modules above the visited nodes have the same names.
Every tree can be edited in both ways, whatever it imports and exports already.
-/

namespace ProgramCheck

/-! ### Edits -/

/-- A function with `export` among its modifiers, if that is granted. -/
def Function.grant (granted : Bool) (f : Function) : Function :=
  { f with modifiers := { f.modifiers with exported := f.modifiers.exported || granted } }

/-- What a node is, with `export` among its modifiers if it is a function and that is granted. -/
def NodeKind.grant (granted : Bool) : NodeKind → NodeKind
  | .functionDecl f => .functionDecl (f.grant granted)
  | k => k

/-- A node with `export` among its modifiers, if it is a function and that is granted. -/
def Node.grant (granted : Bool) (n : Node) : Node := ⟨n.kind.grant granted, n.position⟩

@[simp] theorem Node.grant_false (n : Node) : n.grant false = n := by
  obtain ⟨k, position⟩ := n
  cases k <;> simp [grant, NodeKind.grant, Function.grant]

@[simp] theorem NodeKind.children_grant (granted : Bool) (k : NodeKind) :
    (k.grant granted).children = k.children := by
  cases k <;> rfl

/-- An edit: the tree that it leads to, the numbers that the nodes have there, and which of them are
granted `export`. -/
structure Edit where
  tree : Tree
  number : NodeId → NodeId
  granted : NodeId → Bool

namespace Edit

variable (E : Edit)

/-- Whether an edit is one of a tree: all nodes but the program are as they were, under their new
numbers and with `export` where it is granted, and the program lists the same modules. Its imports
are left open. -/
structure Of (t : Tree) : Prop where
  root : E.tree.root = E.number t.root
  modules : E.tree.program.modules = t.program.modules.map E.number
  nodes : ∀ id, id ≠ t.root →
    E.tree.nodes[E.number id]? =
      t.nodes[id]?.map fun n => (n.grant (E.granted id)).renumber E.number

/-- A function under its new number. -/
def function (id : NodeId) (f : Function) : Function :=
  (f.grant (E.granted id)).renumber E.number

/-- The visit of the edited tree that is in the place of a visit. -/
def visit (v : Visit) : Visit :=
  match v.subject with
  | .program _ => ⟨E.tree.root, .program E.tree.program⟩
  | .functionDecl f => ⟨E.number v.id, .functionDecl (E.function v.id f)⟩
  | s => ⟨E.number v.id, s.renumber E.number⟩

/-- The step through the edited tree that is in the place of a step. -/
def step : Step → Step
  | .visit v => .visit (E.visit v)
  | .defect d => .defect (d.renumber E.number E.tree.name)

end Edit

namespace Tree

/-- Whether a tree is another one with one more import of a name, anywhere among the imports. -/
structure AddsImport (t t' : Tree) (name : String) (σ : NodeId → NodeId) : Prop
    extends Edit.Of ⟨t', σ, fun _ => false⟩ t where
  imports : ∃ front back added position, t.program.imports = front ++ back ∧
    t'.program.imports = front.map σ ++ added :: back.map σ ∧
    t'.nodes[added]? = some ⟨.importDecl ⟨name⟩, position⟩

/-- Whether a tree is another one with `export` among the modifiers of a function. -/
structure AddsExport (t t' : Tree) (fid : NodeId) (σ : NodeId → NodeId) : Prop
    extends Edit.Of ⟨t', σ, fun id => id == fid⟩ t where
  imports : t'.program.imports = t.program.imports.map σ

/-- A visited expression stands below a function of a module, so it is not the program. -/
theorem ne_root_of_expression {t : Tree} {id : NodeId} {e : Expression}
    (he : .visit ⟨id, .expression e⟩ ∈ t.steps) : id ≠ t.root := by
  rcases of_mem_steps he with
    hv | ⟨mid, hmid, m, hm, hv | ⟨fid, hfid, g, hg, hv | ⟨s, hs, hv⟩⟩⟩
  · cases hv
  · cases hv
  · cases hv
  · have hid : id ≤ fid := Forest.le_of_mem_preorder (mem_preorder_of_mem_body hg hs hv)
    have hlt : fid < mid := Forest.lt_of_mem_children (mem_children_of_function hm hfid)
    have hroot : mid < t.root := Forest.lt_of_mem_children (mem_children_of_module hmid)
    exact Nat.ne_of_lt (Nat.lt_of_le_of_lt hid (Nat.lt_trans hlt hroot))

end Tree

namespace Edit.Of

variable {E : Edit} {t : Tree} (h : E.Of t)
include h

/-! ### Accessors -/

/-- What a node is in the edited tree: the program if it was the program, and else what it was. -/
theorem kind? (id : NodeId) :
    (t.kind? id = some (.program t.program) ∧
      E.tree.kind? (E.number id) = some (.program E.tree.program)) ∨
    E.tree.kind? (E.number id) =
      (t.kind? id).map fun k => (k.grant (E.granted id)).renumber E.number := by
  by_cases hid : id = t.root
  · rw [hid, ← h.root]
    exact Or.inl ⟨t.kind?_root, E.tree.kind?_root⟩
  · right
    rw [Forest.kind?, Forest.kind?, h.nodes id hid, Option.map_map, Option.map_map]
    rfl

theorem import? (id : NodeId) : E.tree.import? (E.number id) = t.import? id := by
  rw [Forest.import?, Forest.import?]
  rcases h.kind? id with ⟨hk, hk'⟩ | hk
  · rw [hk, hk']
  · rw [hk]
    cases t.kind? id with
    | none => rfl
    | some k => cases k <;> rfl

theorem module? (id : NodeId) :
    E.tree.module? (E.number id) = (t.module? id).map (Module.renumber E.number) := by
  rw [Forest.module?, Forest.module?]
  rcases h.kind? id with ⟨hk, hk'⟩ | hk
  · rw [hk, hk']
    rfl
  · rw [hk]
    cases t.kind? id with
    | none => rfl
    | some k => cases k <;> rfl

theorem function? (id : NodeId) :
    E.tree.function? (E.number id) = (t.function? id).map (E.function id) := by
  rw [Forest.function?, Forest.function?]
  rcases h.kind? id with ⟨hk, hk'⟩ | hk
  · rw [hk, hk']
    rfl
  · rw [hk]
    cases t.kind? id with
    | none => rfl
    | some k => cases k <;> rfl

theorem sameBodies : SameBodies t E.tree E.number where
  sort id := by
    rcases h.kind? id with ⟨hk, hk'⟩ | hk
    · rw [hk, hk']
      rfl
    · rw [hk]
      cases t.kind? id with
      | none => rfl
      | some k => cases k <;> rfl
  statement? id := by
    rw [Forest.statement?, Forest.statement?]
    rcases h.kind? id with ⟨hk, hk'⟩ | hk
    · rw [hk, hk']
      rfl
    · rw [hk]
      cases t.kind? id with
      | none => rfl
      | some k => cases k <;> rfl
  expression? id := by
    rw [Forest.expression?, Forest.expression?]
    rcases h.kind? id with ⟨hk, hk'⟩ | hk
    · rw [hk, hk']
      rfl
    · rw [hk]
      cases t.kind? id with
      | none => rfl
      | some k => cases k <;> rfl

/-! ### The walk -/

/-- In a body nothing is edited but the numbers. -/
theorem statementSteps (id : NodeId) :
    E.tree.statementSteps (E.number id) = (t.statementSteps id).map E.step := by
  rw [h.sameBodies.statementSteps]
  refine List.map_congr_left fun step hstep => ?_
  cases step with
  | defect d => rfl
  | visit v =>
    obtain ⟨id, subject⟩ := v
    obtain ⟨⟨s, rfl⟩ | ⟨e, rfl⟩, -⟩ := Tree.of_mem_statementSteps hstep <;> rfl

theorem functionSteps (id : NodeId) :
    E.tree.functionSteps (E.number id) = (t.functionSteps id).map E.step := by
  rw [Tree.functionSteps, Tree.functionSteps, h.function?]
  cases t.function? id with
  | none => simp only [Option.map_none, h.sameBodies.misplaced, List.map_singleton, step]
  | some g =>
    have hbody : (E.function id g).body.getD [] = (g.body.getD []).map E.number :=
      Function.body_renumber E.number (g.grant (E.granted id))
    simp only [Option.map_some, hbody]
    rw [flatMap_steps fun child _ => h.statementSteps child]
    rfl

theorem moduleSteps (id : NodeId) :
    E.tree.moduleSteps (E.number id) = (t.moduleSteps id).map E.step := by
  rw [Tree.moduleSteps, Tree.moduleSteps, h.module?]
  cases t.module? id with
  | none => simp only [Option.map_none, h.sameBodies.misplaced, List.map_singleton, step]
  | some m =>
    simp only [Option.map_some, Module.renumber]
    rw [flatMap_steps fun child _ => h.functionSteps child]
    rfl

/-- **The walk through an edited tree** takes the steps of the walk through the tree. -/
theorem steps : E.tree.steps = t.steps.map E.step := by
  rw [Tree.steps, Tree.steps, h.modules, flatMap_steps fun child _ => h.moduleSteps child]
  rfl

/-! ### Above the visited nodes -/

/-- Above a visited function is a module of the same name. -/
theorem moduleNameAbove?_function {id : NodeId} {f : Function}
    (hf : .visit ⟨id, .functionDecl f⟩ ∈ t.steps) :
    E.tree.moduleNameAbove? (E.number id) = t.moduleNameAbove? id := by
  rcases Tree.of_mem_steps hf with
    hv | ⟨mid, -, m, hm, hv | ⟨fid, hfid, g, hg, hv | ⟨s, -, hv⟩⟩⟩
  · cases hv
  · cases hv
  · cases hv
    have hm' := h.module? mid
    rw [hm, Option.map_some] at hm'
    rw [Tree.moduleNameAbove?_function hm hfid,
      Tree.moduleNameAbove?_function hm' (List.mem_map_of_mem hfid)]
    rfl
  · obtain ⟨⟨s, hs⟩ | ⟨e, he⟩, -⟩ := Tree.of_mem_statementSteps hv
    · cases hs
    · cases he

/-- Above a visited expression is a module of the same name. -/
theorem moduleNameAbove?_expression {id : NodeId} {e : Expression}
    (he : .visit ⟨id, .expression e⟩ ∈ t.steps) :
    E.tree.moduleNameAbove? (E.number id) = t.moduleNameAbove? id := by
  rcases Tree.of_mem_steps he with
    hv | ⟨mid, -, m, hm, hv | ⟨fid, hfid, g, hg, hv | ⟨s, hs, hv⟩⟩⟩
  · cases hv
  · cases hv
  · cases hv
  · have hm' := h.module? mid
    have hg' := h.function? fid
    rw [hm, Option.map_some] at hm'
    rw [hg, Option.map_some] at hg'
    have hs' : E.number s ∈ (E.function fid g).body.getD [] := by
      rw [Edit.function, Function.body_renumber]
      exact List.mem_map_of_mem hs
    have hv' : .visit ⟨E.number id, .expression (e.renumber E.number)⟩ ∈
        E.tree.statementSteps (E.number s) := by
      rw [h.statementSteps]
      exact List.mem_map_of_mem hv
    rw [Tree.moduleNameAbove?_body hm hfid hg hs hv,
      Tree.moduleNameAbove?_body hm' (List.mem_map_of_mem hfid) hg' hs' hv']
    rfl

/-- An expression is at the same position, as it is not the program. -/
theorem position {id : NodeId} {e : Expression} (he : .visit ⟨id, .expression e⟩ ∈ t.steps) :
    E.tree.position (E.number id) = t.position id := by
  rw [Forest.position, Forest.position, h.nodes id (Tree.ne_root_of_expression he), Option.map_map]
  rfl

end Edit.Of

namespace Tree

variable (t : Tree)

/-! ### Every tree can be edited -/

/-- The node that is in the place of one, if an import is added in front of all nodes. -/
def behindImport (id : NodeId) (n : Node) : Node :=
  if id = t.root then
    ⟨.program ⟨0 :: t.program.imports.map (· + 1), t.program.modules.map (· + 1)⟩, n.position⟩
  else n.renumber (· + 1)

/-- The nodes of a tree behind an import. -/
def nodesBehindImport (name : String) : Array Node :=
  (⟨.importDecl ⟨name⟩, {}⟩ :: (t.nodes.mapIdx t.behindImport).toList).toArray

theorem getElem?_nodesBehindImport (name : String) (id : NodeId) :
    (t.nodesBehindImport name)[id + 1]? = t.nodes[id]?.map (t.behindImport id) := by
  simp [nodesBehindImport]

theorem childrenIn_nodesBehindImport (name : String) (id : NodeId) :
    childrenIn (t.nodesBehindImport name) (id + 1) =
      (if id = t.root then [0] else []) ++ (childrenIn t.nodes id).map (· + 1) := by
  rw [childrenIn, childrenIn, getElem?_nodesBehindImport]
  have hroot := t.kind_root
  cases hn : t.nodes[id]? with
  | none =>
    have hne : id ≠ t.root := by
      rintro rfl
      simp [hn] at hroot
    simp [hne]
  | some n =>
    by_cases hid : id = t.root
    · subst hid
      rw [hn, Option.map_some, Option.some.injEq] at hroot
      simp [behindImport, hroot, NodeKind.children]
    · simp [behindImport, hid, Node.renumber]

/-- The parents of the nodes of a tree behind an import. -/
def parentsBehindImport : Array (Option NodeId) :=
  (some (t.root + 1) :: (t.parents.map (Option.map (· + 1))).toList).toArray

theorem getElem?_parentsBehindImport (id : NodeId) :
    t.parentsBehindImport[id + 1]? = t.parents[id]?.map (Option.map (· + 1)) := by
  simp [parentsBehindImport]

@[simp] theorem childrenIn_nodesBehindImport_zero (name : String) :
    childrenIn (t.nodesBehindImport name) 0 = [] := rfl

theorem zero_mem_nodesBehindImport (name : String) (id : NodeId) :
    0 ∈ childrenIn (t.nodesBehindImport name) (id + 1) ↔ id = t.root := by
  rw [childrenIn_nodesBehindImport]
  by_cases hid : id = t.root <;> simp [hid]

theorem succ_mem_nodesBehindImport (name : String) (child id : NodeId) :
    child + 1 ∈ childrenIn (t.nodesBehindImport name) (id + 1) ↔ child ∈ childrenIn t.nodes id := by
  rw [childrenIn_nodesBehindImport]
  by_cases hid : id = t.root <;> simp [hid]

/-- The tree with an import in front of all nodes and in front of all imports. -/
def withImport (name : String) : Tree where
  nodes := t.nodesBehindImport name
  parents := t.parentsBehindImport
  size_parents := by simp [nodesBehindImport, parentsBehindImport, t.size_parents]
  lt_of_mem_childrenIn := by
    rintro (_ | parent) (_ | child) hchild
    · simp at hchild
    · simp at hchild
    · exact Nat.succ_pos parent
    · rw [succ_mem_nodesBehindImport] at hchild
      exact Nat.succ_lt_succ (t.lt_of_mem_childrenIn hchild)
  nodup_childrenIn := by
    rintro (_ | parent)
    · simp
    · have hold : ((childrenIn t.nodes parent).map (· + 1)).Nodup :=
        (t.nodup_childrenIn parent).map (Nat.succ_injective)
      rw [childrenIn_nodesBehindImport]
      split
      · exact List.nodup_cons.2 ⟨by simp, hold⟩
      · exact hold
  parents_eq_some_iff := by
    rintro (_ | child) (_ | parent)
    · simp [parentsBehindImport]
    · rw [zero_mem_nodesBehindImport]
      simp [parentsBehindImport, eq_comm]
    · simp [getElem?_parentsBehindImport]
    · rw [succ_mem_nodesBehindImport, getElem?_parentsBehindImport, ← t.parents_eq_some_iff]
      simp
  name := t.name
  root := t.root + 1
  program := ⟨0 :: t.program.imports.map (· + 1), t.program.modules.map (· + 1)⟩
  kind_root := by
    have hroot := t.kind_root
    rw [getElem?_nodesBehindImport, Option.map_map]
    cases hn : t.nodes[t.root]? with
    | none => simp [hn] at hroot
    | some n => simp [behindImport]
  parents_eq_none_iff := by
    rintro (_ | id)
    · simp [parentsBehindImport]
    · rw [getElem?_parentsBehindImport, Nat.succ_inj, ← t.parents_eq_none_iff]
      simp

theorem addsImport_withImport (name : String) : t.AddsImport (t.withImport name) name (· + 1) where
  root := rfl
  modules := rfl
  nodes id hid := by
    refine (t.getElem?_nodesBehindImport name id).trans (Option.map_congr fun n _ => ?_)
    rw [behindImport, if_neg hid, Node.grant_false]
  imports := ⟨[], t.program.imports, 0, {}, rfl, rfl, rfl⟩

theorem childrenIn_modify (fid id : NodeId) :
    childrenIn (t.nodes.modify fid (Node.grant true)) id = childrenIn t.nodes id := by
  rw [childrenIn, childrenIn, Array.getElem?_modify]
  by_cases hid : fid = id
  · rw [if_pos hid]
    cases t.nodes[id]? with
    | none => rfl
    | some n => exact n.kind.children_grant true
  · rw [if_neg hid]

/-- The tree with `export` among the modifiers of a function. -/
def withExport (fid : NodeId) : Tree where
  nodes := t.nodes.modify fid (Node.grant true)
  parents := t.parents
  size_parents := by rw [Array.size_modify, t.size_parents]
  lt_of_mem_childrenIn hchild := t.lt_of_mem_childrenIn (t.childrenIn_modify fid _ ▸ hchild)
  nodup_childrenIn parent := t.childrenIn_modify fid parent ▸ t.nodup_childrenIn parent
  parents_eq_some_iff child parent :=
    t.childrenIn_modify fid parent ▸ t.parents_eq_some_iff child parent
  name := t.name
  root := t.root
  program := t.program
  kind_root := by
    have hroot := congrArg (Option.map (NodeKind.grant true)) t.kind_root
    rw [Option.map_map] at hroot
    rw [Array.getElem?_modify]
    by_cases hid : fid = t.root
    · rw [if_pos hid, Option.map_map]
      exact hroot
    · rw [if_neg hid, t.kind_root]
  parents_eq_none_iff := t.parents_eq_none_iff

theorem addsExport_withExport (fid : NodeId) : t.AddsExport (t.withExport fid) fid id where
  root := rfl
  modules := (List.map_id _).symm
  nodes id hid := by
    refine (Array.getElem?_modify ..).trans ?_
    by_cases hfid : id = fid
    · simp [hfid, Node.renumber_id]
    · simp [Ne.symm hfid, beq_false_of_ne hfid, Node.renumber_id]
  imports := (List.map_id _).symm

end Tree

end ProgramCheck
