import ProgramCheck.Proofs.WalkShape

/-!
# Visited modules and functions

The modules and the functions among the stages of a walk, each with the tree in which it stands. A
whole walk visits the modules that the programs list and the functions that these modules list, in
their order; functions of structs are not among them. Every visited function, statement and
expression has a visited module as the nearest module above it.
-/

namespace ProgramCheck

/-- A node that is visited, with its tree and the place of the tree. -/
structure Visited (α : Type) where
  place : Nat
  tree : Tree
  id : NodeId
  node : α

namespace Stage

/-- The module that is visited at a stage. -/
def module? (s : Stage) : Option (Visited Module) :=
  match s.step with
  | .visit ⟨id, .moduleDecl m⟩ => some ⟨s.place, s.tree, id, m⟩
  | _ => none

/-- The function that is visited at a stage. -/
def function? (s : Stage) : Option (Visited Function) :=
  match s.step with
  | .visit ⟨id, .functionDecl g⟩ => some ⟨s.place, s.tree, id, g⟩
  | _ => none

theorem module?_eq_some_iff {s : Stage} {m : Visited Module} :
    s.module? = some m ↔ s = ⟨m.place, m.tree, .visit ⟨m.id, .moduleDecl m.node⟩⟩ := by
  constructor
  · intro h
    obtain ⟨place, tree, step⟩ := s
    unfold module? at h
    split at h
    · next hstep =>
      cases h
      simp only at hstep
      rw [hstep]
    · cases h
  · rintro rfl
    rfl

theorem function?_eq_some_iff {s : Stage} {g : Visited Function} :
    s.function? = some g ↔ s = ⟨g.place, g.tree, .visit ⟨g.id, .functionDecl g.node⟩⟩ := by
  constructor
  · intro h
    obtain ⟨place, tree, step⟩ := s
    unfold function? at h
    split at h
    · next hstep =>
      cases h
      simp only at hstep
      rw [hstep]
    · cases h
  · rintro rfl
    rfl

end Stage

/-- The modules that are visited at some stages. -/
def visitedModules (history : List Stage) : List (Visited Module) := history.filterMap Stage.module?

theorem visitedModules_append (xs ys : List Stage) :
    visitedModules (xs ++ ys) = visitedModules xs ++ visitedModules ys :=
  List.filterMap_append

theorem visitedModules_singleton (s : Stage) : visitedModules [s] = s.module?.toList := by
  rw [visitedModules, List.filterMap_cons]
  cases s.module? <;> rfl

/-- The functions that are visited at some stages. -/
def visitedFunctions (history : List Stage) : List (Visited Function) :=
  history.filterMap Stage.function?

/-- The function of a name that comes last among some functions. -/
def latest? (functions : List (Visited Function)) (name : String) : Option (Visited Function) :=
  functions.reverse.find? fun g => g.node.name = name

theorem mem_of_latest? {functions : List (Visited Function)} {name : String} {g : Visited Function}
    (h : latest? functions name = some g) : g ∈ functions :=
  List.mem_reverse.1 (List.mem_of_find?_eq_some h)

theorem latest?_append (fs gs : List (Visited Function)) (name : String) :
    latest? (fs ++ gs) name = (latest? gs name).or (latest? fs name) := by
  rw [latest?, List.reverse_append, List.find?_append]
  rfl

/-- The last function of a name is found behind a map that keeps the names. -/
theorem latest?_map {f : Visited Function → Visited Function}
    (hf : ∀ g, (f g).node.name = g.node.name) (gs : List (Visited Function)) (name : String) :
    latest? (gs.map f) name = (latest? gs name).map f := by
  rw [latest?, ← List.map_reverse, List.find?_map, latest?]
  simp only [Function.comp_def, hf]

/-- The functions that a module lists. -/
def Visited.functions (m : Visited Module) : List (Visited Function) :=
  m.node.functions.filterMap fun id =>
    (m.tree.function? id).map fun g => ⟨m.place, m.tree, id, g⟩

/-- The name of the nearest module above a function. -/
def Visited.moduleName? (g : Visited Function) : Option String := g.tree.moduleNameAbove? g.id

/-- The modules that the program of a tree at a place lists. -/
def Tree.declaredModules (place : Nat) (t : Tree) : List (Visited Module) :=
  t.program.modules.filterMap fun id => (t.module? id).map fun m => ⟨place, t, id, m⟩

/-- The modules that the programs of some trees list. -/
def declaredModules (trees : List Tree) : List (Visited Module) :=
  (trees.mapIdx fun place t => t.declaredModules place).flatten

/-- The functions that the modules of some trees list. -/
def declaredFunctions (trees : List Tree) : List (Visited Function) :=
  (declaredModules trees).flatMap Visited.functions

/-! ### The stages of a walk -/

theorem Tree.mem_stages_iff {place : Nat} {t : Tree} {s : Stage} :
    s ∈ t.stages place ↔ s.place = place ∧ s.tree = t ∧ s.step ∈ t.steps := by
  rw [Tree.stages, List.mem_map]
  constructor
  · rintro ⟨step, hstep, rfl⟩
    exact ⟨rfl, rfl, hstep⟩
  · rintro ⟨rfl, rfl, hstep⟩
    exact ⟨s.step, hstep, rfl⟩

theorem mem_flatten_mapIdx {α β : Type} {f : Nat → α → List β} {as : List α} {b : β} :
    b ∈ (as.mapIdx f).flatten ↔ ∃ i a, as[i]? = some a ∧ b ∈ f i a := by
  simp only [List.mem_flatten, List.mem_mapIdx]
  constructor
  · rintro ⟨_, ⟨i, hi, rfl⟩, hb⟩
    exact ⟨i, as[i], List.getElem?_eq_getElem hi, hb⟩
  · rintro ⟨i, a, ha, hb⟩
    obtain ⟨hi, rfl⟩ := List.getElem?_eq_some_iff.1 ha
    exact ⟨_, ⟨i, hi, rfl⟩, hb⟩

theorem flatten_mapIdx {α β : Type} (f : Nat → α → List β) (as : List α) :
    (as.mapIdx f).flatten = as.zipIdx.flatMap fun x => f x.2 x.1 := by
  rw [List.mapIdx_eq_zipIdx_map, List.flatMap_def]

theorem Compilation.mem_stages_iff {c : Compilation} {s : Stage} :
    s ∈ c.stages ↔ c.trees[s.place]? = some s.tree ∧ s.step ∈ s.tree.steps := by
  rw [stages, mem_flatten_mapIdx]
  constructor
  · rintro ⟨i, t, ht, hs⟩
    obtain ⟨rfl, rfl, hstep⟩ := Tree.mem_stages_iff.1 hs
    exact ⟨ht, hstep⟩
  · rintro ⟨ht, hstep⟩
    exact ⟨s.place, s.tree, ht, Tree.mem_stages_iff.2 ⟨rfl, rfl, hstep⟩⟩

theorem mem_declaredModules_iff {trees : List Tree} {m : Visited Module} :
    m ∈ declaredModules trees ↔
      trees[m.place]? = some m.tree ∧ m.id ∈ m.tree.program.modules ∧
        m.tree.module? m.id = some m.node := by
  rw [declaredModules, mem_flatten_mapIdx]
  simp only [Tree.declaredModules, List.mem_filterMap, Option.map_eq_some_iff]
  constructor
  · rintro ⟨i, t, ht, id, hid, node, hnode, rfl⟩
    exact ⟨ht, hid, hnode⟩
  · rintro ⟨ht, hid, hnode⟩
    exact ⟨m.place, m.tree, ht, m.id, hid, m.node, hnode, rfl⟩

theorem Visited.mem_functions_iff {m : Visited Module} {g : Visited Function} :
    g ∈ m.functions ↔
      g.place = m.place ∧ g.tree = m.tree ∧ g.id ∈ m.node.functions ∧
        m.tree.function? g.id = some g.node := by
  simp only [functions, List.mem_filterMap, Option.map_eq_some_iff]
  constructor
  · rintro ⟨id, hid, node, hnode, rfl⟩
    exact ⟨rfl, rfl, hid, hnode⟩
  · obtain ⟨place, tree, id, node⟩ := g
    rintro ⟨rfl, rfl, hid, hnode⟩
    exact ⟨id, hid, node, hnode, rfl⟩

theorem mem_declaredFunctions_iff {trees : List Tree} {g : Visited Function} :
    g ∈ declaredFunctions trees ↔ ∃ m ∈ declaredModules trees, g ∈ m.functions :=
  List.mem_flatMap

/-! ### A whole walk -/

namespace Tree

variable {t : Tree} {place : Nat}

/-- The stages of some steps through a tree. -/
def stagesOf (t : Tree) (place : Nat) (steps : List Step) : List Stage :=
  steps.map fun step => ⟨place, t, step⟩

theorem stagesOf_flatMap (t : Tree) (place : Nat) (ids : List NodeId) (g : NodeId → List Step) :
    t.stagesOf place (ids.flatMap g) = ids.flatMap fun id => t.stagesOf place (g id) :=
  List.map_flatMap

/-- In a body the walk visits neither modules nor functions. -/
theorem visited_of_mem_body {ids : List NodeId} {s : Stage}
    (h : s ∈ t.stagesOf place (ids.flatMap t.statementSteps)) :
    s.module? = none ∧ s.function? = none := by
  obtain ⟨step, hstep, rfl⟩ := List.mem_map.1 h
  obtain ⟨id, -, hstep⟩ := List.mem_flatMap.1 hstep
  cases step with
  | defect d => exact ⟨rfl, rfl⟩
  | visit v =>
    obtain ⟨id, subject⟩ := v
    obtain ⟨⟨s, hs⟩ | ⟨e, he⟩, -⟩ := of_mem_statementSteps hstep
    · cases hs
      exact ⟨rfl, rfl⟩
    · cases he
      exact ⟨rfl, rfl⟩

theorem visitedModules_body (ids : List NodeId) :
    visitedModules (t.stagesOf place (ids.flatMap t.statementSteps)) = [] :=
  List.filterMap_eq_nil_iff.2 fun _ hs => (visited_of_mem_body hs).1

theorem visitedFunctions_body (ids : List NodeId) :
    visitedFunctions (t.stagesOf place (ids.flatMap t.statementSteps)) = [] :=
  List.filterMap_eq_nil_iff.2 fun _ hs => (visited_of_mem_body hs).2

theorem visitedModules_functionSteps (id : NodeId) :
    visitedModules (t.stagesOf place (t.functionSteps id)) = [] := by
  rw [functionSteps]
  cases t.function? id with
  | none => rfl
  | some g => exact visitedModules_body _

theorem visitedFunctions_functionSteps (id : NodeId) :
    visitedFunctions (t.stagesOf place (t.functionSteps id)) =
      ((t.function? id).map fun g => ⟨place, t, id, g⟩).toList := by
  rw [functionSteps]
  cases t.function? id with
  | none => rfl
  | some g => exact congrArg (_ :: ·) (visitedFunctions_body _)

/-- The functions among some nodes of the tree at a place. -/
def functionsAmong (t : Tree) (place : Nat) (ids : List NodeId) : List (Visited Function) :=
  ids.filterMap fun id => (t.function? id).map fun g => ⟨place, t, id, g⟩

theorem visitedFunctions_flatMap_functionSteps (ids : List NodeId) :
    visitedFunctions (t.stagesOf place (ids.flatMap t.functionSteps)) =
      t.functionsAmong place ids := by
  rw [stagesOf_flatMap, visitedFunctions, List.filterMap_flatMap, functionsAmong,
    List.filterMap_eq_flatMap_toList]
  exact List.flatMap_congr fun id _ => visitedFunctions_functionSteps id

theorem visitedModules_moduleSteps (id : NodeId) :
    visitedModules (t.stagesOf place (t.moduleSteps id)) =
      ((t.module? id).map fun m => ⟨place, t, id, m⟩).toList := by
  rw [moduleSteps]
  cases t.module? id with
  | none => rfl
  | some m =>
    refine congrArg (_ :: ·) ?_
    change visitedModules (t.stagesOf place (m.functions.flatMap t.functionSteps)) = []
    rw [stagesOf_flatMap, visitedModules, List.filterMap_flatMap, List.flatMap_eq_nil_iff]
    exact fun id _ => visitedModules_functionSteps id

theorem visitedFunctions_moduleSteps {id : NodeId} {m : Module} (hm : t.module? id = some m) :
    visitedFunctions (t.stagesOf place (t.moduleSteps id)) =
      Visited.functions ⟨place, t, id, m⟩ := by
  rw [moduleSteps_of_some hm]
  exact visitedFunctions_flatMap_functionSteps m.functions

theorem visitedModules_stages (place : Nat) (t : Tree) :
    visitedModules (t.stages place) = t.declaredModules place := by
  change visitedModules (t.stagesOf place (t.program.modules.flatMap t.moduleSteps)) = _
  rw [stagesOf_flatMap, visitedModules, List.filterMap_flatMap, declaredModules,
    List.filterMap_eq_flatMap_toList]
  exact List.flatMap_congr fun id _ => visitedModules_moduleSteps id

theorem visitedFunctions_stages (place : Nat) (t : Tree) :
    visitedFunctions (t.stages place) = (t.declaredModules place).flatMap Visited.functions := by
  change visitedFunctions (t.stagesOf place (t.program.modules.flatMap t.moduleSteps)) = _
  rw [stagesOf_flatMap, visitedFunctions, List.filterMap_flatMap, declaredModules,
    List.filterMap_eq_flatMap_toList, List.flatMap_assoc]
  refine List.flatMap_congr fun id _ => ?_
  cases hm : t.module? id with
  | none =>
    rw [moduleSteps, hm]
    rfl
  | some m =>
    rw [Option.map_some, Option.toList_some, List.flatMap_singleton]
    exact visitedFunctions_moduleSteps hm

end Tree

namespace Compilation

/-- A walk visits the modules that the programs list. -/
theorem visitedModules_stages (c : Compilation) :
    visitedModules c.stages = declaredModules c.trees := by
  rw [stages, declaredModules, flatten_mapIdx, flatten_mapIdx, visitedModules,
    List.filterMap_flatMap]
  exact List.flatMap_congr fun x _ => Tree.visitedModules_stages x.2 x.1

/-- A walk visits the functions that the modules of the programs list. -/
theorem visitedFunctions_stages (c : Compilation) :
    visitedFunctions c.stages = declaredFunctions c.trees := by
  rw [stages, declaredFunctions, declaredModules, flatten_mapIdx, flatten_mapIdx, visitedFunctions,
    List.filterMap_flatMap, List.flatMap_assoc]
  exact List.flatMap_congr fun x _ => Tree.visitedFunctions_stages x.2 x.1

end Compilation

/-! ### The bodies of declared functions -/

/-- The node of a declared function. -/
theorem function?_of_declared {trees : List Tree} {g : Visited Function}
    (hg : g ∈ declaredFunctions trees) : g.tree.function? g.id = some g.node := by
  obtain ⟨m, -, hg⟩ := mem_declaredFunctions_iff.1 hg
  obtain ⟨-, htree, -, hnode⟩ := Visited.mem_functions_iff.1 hg
  rw [htree, hnode]

theorem tree_of_declared {trees : List Tree} {g : Visited Function}
    (hg : g ∈ declaredFunctions trees) : trees[g.place]? = some g.tree := by
  obtain ⟨m, hm, hg⟩ := mem_declaredFunctions_iff.1 hg
  obtain ⟨hplace, htree, -, -⟩ := Visited.mem_functions_iff.1 hg
  rw [hplace, htree, (mem_declaredModules_iff.1 hm).1]

/-- A walk goes through every declared function. -/
theorem Compilation.mem_stages_of_functionSteps {c : Compilation} {g : Visited Function}
    (hg : g ∈ declaredFunctions c.trees) {step : Step} (hstep : step ∈ g.tree.functionSteps g.id) :
    ⟨g.place, g.tree, step⟩ ∈ c.stages := by
  refine mem_stages_iff.2 ⟨tree_of_declared hg, ?_⟩
  obtain ⟨m, hm, hg⟩ := mem_declaredFunctions_iff.1 hg
  obtain ⟨-, htree, hid, -⟩ := Visited.mem_functions_iff.1 hg
  obtain ⟨-, hmid, hnode⟩ := mem_declaredModules_iff.1 hm
  change step ∈ g.tree.steps
  rw [htree] at hstep ⊢
  refine List.mem_cons_of_mem _ (List.mem_flatMap.2 ⟨m.id, hmid, ?_⟩)
  rw [Tree.moduleSteps_of_some hnode]
  exact List.mem_cons_of_mem _ (List.mem_flatMap.2 ⟨g.id, hid, hstep⟩)

/-- A visit is that of a program, a module or a function, or it is in the body of a declared
function. -/
theorem Compilation.of_mem_stages {c : Compilation} {place : Nat} {t : Tree} {v : Visit}
    (h : ⟨place, t, .visit v⟩ ∈ c.stages) :
    (∃ p, v.subject = .program p) ∨ (∃ m, v.subject = .moduleDecl m) ∨
      (∃ g, v.subject = .functionDecl g) ∨
      ∃ g ∈ declaredFunctions c.trees, g.place = place ∧ g.tree = t ∧
        ∃ s ∈ g.node.body.getD [], .visit v ∈ t.statementSteps s := by
  obtain ⟨hplace, hv⟩ : c.trees[place]? = some t ∧ .visit v ∈ t.steps := mem_stages_iff.1 h
  rcases Tree.of_mem_steps hv with rfl | ⟨mid, hmid, m, hm, rfl | ⟨fid, hfid, g, hg, rfl | hv⟩⟩
  · exact Or.inl ⟨_, rfl⟩
  · exact Or.inr (Or.inl ⟨m, rfl⟩)
  · exact Or.inr (Or.inr (Or.inl ⟨g, rfl⟩))
  · refine Or.inr (Or.inr (Or.inr ⟨⟨place, t, fid, g⟩, ?_, rfl, rfl, hv⟩))
    exact mem_declaredFunctions_iff.2 ⟨⟨place, t, mid, m⟩,
      mem_declaredModules_iff.2 ⟨hplace, hmid, hm⟩,
      Visited.mem_functions_iff.2 ⟨rfl, rfl, hfid, hg⟩⟩

/-! ### The module above a visited node -/

namespace Tree

variable {t : Tree} {mid id : NodeId} {m : Module}

theorem moduleNameAbove?_of_enclosing (habove : t.enclosingModule? id = some mid)
    (hm : t.module? mid = some m) : t.moduleNameAbove? id = some m.name := by
  rw [moduleNameAbove?, habove, Option.bind_some, hm, Option.map_some]

theorem moduleNameAbove?_function (hm : t.module? mid = some m) (hid : id ∈ m.functions) :
    t.moduleNameAbove? id = some m.name :=
  moduleNameAbove?_of_enclosing (enclosingModule?_function hm hid) hm

theorem moduleNameAbove?_body (hm : t.module? mid = some m) (hid : id ∈ m.functions) {g : Function}
    (hg : t.function? id = some g) {s : NodeId} (hs : s ∈ g.body.getD []) {v : Visit}
    (hv : .visit v ∈ t.statementSteps s) : t.moduleNameAbove? v.id = some m.name :=
  moduleNameAbove?_of_enclosing
    ((enclosingModule?_body hg hs hv).trans (enclosingModule?_function hm hid)) hm

end Tree

/-- The name above a declared function is that of the module that lists it. -/
theorem Visited.moduleName?_of_mem {trees : List Tree} {m : Visited Module}
    (hm : m ∈ declaredModules trees) {g : Visited Function} (hg : g ∈ m.functions) :
    g.moduleName? = some m.node.name := by
  obtain ⟨-, -, hnode⟩ := mem_declaredModules_iff.1 hm
  obtain ⟨-, htree, hid, -⟩ := mem_functions_iff.1 hg
  rw [moduleName?, htree]
  exact Tree.moduleNameAbove?_function hnode hid

/-- The nearest module above a visited function, statement or expression is a module that its
program lists. -/
theorem exists_module_above {c : Compilation} {place : Nat} {t : Tree} {v : Visit}
    (h : ⟨place, t, .visit v⟩ ∈ c.stages) (hprogram : ∀ p, v.subject ≠ .program p)
    (hmodule : ∀ m, v.subject ≠ .moduleDecl m) :
    ∃ m ∈ declaredModules c.trees,
      m.place = place ∧ m.tree = t ∧ t.enclosingModule? v.id = some m.id := by
  obtain ⟨hplace, hv⟩ : c.trees[place]? = some t ∧ .visit v ∈ t.steps :=
    Compilation.mem_stages_iff.1 h
  rcases Tree.of_mem_steps hv with rfl | ⟨mid, hmid, m, hm, hv⟩
  · exact absurd rfl (hprogram _)
  have habove : t.enclosingModule? v.id = some mid := by
    rcases hv with rfl | ⟨fid, hfid, g, hg, hv⟩
    · exact absurd rfl (hmodule _)
    rcases hv with rfl | ⟨s, hs, hv⟩
    · exact Tree.enclosingModule?_function hm hfid
    · rw [Tree.enclosingModule?_body hg hs hv]
      exact Tree.enclosingModule?_function hm hfid
  exact ⟨⟨place, t, mid, m⟩, mem_declaredModules_iff.2 ⟨hplace, hmid, hm⟩, rfl, rfl, habove⟩

/-! ### The modules of well-kinded trees -/

namespace Tree

variable {t : Tree}

/-- In a well-kinded tree the root is the only program. -/
theorem eq_root_of_program (h : t.WellKinded) {id : NodeId} (hid : id ∈ t.preorder t.root)
    {p : Program} (hp : t.kind? id = some (.program p)) : id = t.root := by
  rcases Forest.eq_or_mem_children_of_mem_preorder hid with rfl | ⟨parent, -, hchild⟩
  · rfl
  obtain ⟨k, s, -, hslot, hsort⟩ := (h.slotsFit parent).of_mem_children hchild
  rw [Forest.sort?, hp] at hsort
  cases hsort
  exact absurd hslot (k.program_not_mem_slots id)

/-- The modules of a well-kinded tree are those that its program lists. -/
theorem mem_modules_of_module? (h : t.WellKinded) {id : NodeId} (hid : id ∈ t.preorder t.root)
    {m : Module} (hm : t.module? id = some m) : id ∈ t.program.modules := by
  have hkind := Forest.module?_eq_some_iff.1 hm
  rcases Forest.eq_or_mem_children_of_mem_preorder hid with rfl | ⟨parent, hparent, hchild⟩
  · rw [kind?_root] at hkind
    cases hkind
  obtain ⟨k, s, hk, hslot, hsort⟩ := (h.slotsFit parent).of_mem_children hchild
  rw [Forest.sort?, hkind] at hsort
  cases hsort
  -- only a program has places for modules, and only the root is a program
  obtain ⟨p, rfl, hmem⟩ := NodeKind.of_module_mem_slots hslot
  obtain rfl := eq_root_of_program h hparent hk
  rw [kind?_root] at hk
  cases hk
  exact hmem

theorem mem_preorder_root_of_module {id : NodeId} (hid : id ∈ t.program.modules) :
    id ∈ t.preorder t.root :=
  Forest.mem_preorder_of_mem_children (mem_children_of_module hid) (t.mem_preorder_self id)

/-- The symbol of a node, if it is a module's. -/
theorem moduleSymbol?_eq (t : Tree) (id : NodeId) :
    ((t.symbol? id).filter (·.matchesKind (some .moduleSymbol))) =
      (t.module? id).map fun m => ⟨m.name, .moduleSymbol, id⟩ := by
  rw [Forest.symbol?, Forest.module?]
  cases t.kind? id with
  | none => rfl
  | some k =>
    cases k with
    | statement s => cases s <;> rfl
    | _ => rfl

end Tree

/-- The module names of a compilation are those of all modules in the trees. -/
theorem mem_moduleNames_iff {trees : List Tree} {name : String} :
    name ∈ (Compilation.ofTrees trees).moduleNames ↔
      ∃ t ∈ trees, ∃ id ∈ t.preorder t.root, ∃ m, t.module? id = some m ∧ m.name = name := by
  simp only [Compilation.moduleNames, Compilation.trees_ofTrees, Forest.symbolsBelow,
    Tree.moduleSymbol?_eq, List.mem_flatMap, List.mem_map, List.mem_filterMap,
    Option.map_eq_some_iff]
  constructor
  · rintro ⟨t, ht, _, ⟨id, hid, m, hm, rfl⟩, rfl⟩
    exact ⟨t, ht, id, hid, m, hm, rfl⟩
  · rintro ⟨t, ht, id, hid, m, hm, rfl⟩
    exact ⟨t, ht, _, ⟨id, hid, m, hm, rfl⟩, rfl⟩

/-- The module names of a compilation of well-kinded trees are those of the modules that the
programs list. -/
theorem mem_moduleNames_iff_declared {trees : List Tree} (h : ∀ t ∈ trees, t.WellKinded)
    {name : String} :
    name ∈ (Compilation.ofTrees trees).moduleNames ↔
      ∃ m ∈ declaredModules trees, m.node.name = name := by
  rw [mem_moduleNames_iff]
  constructor
  · rintro ⟨t, ht, id, hid, m, hm, rfl⟩
    obtain ⟨place, hplace⟩ := List.getElem?_of_mem ht
    exact ⟨⟨place, t, id, m⟩,
      mem_declaredModules_iff.2 ⟨hplace, Tree.mem_modules_of_module? (h t ht) hid hm, hm⟩, rfl⟩
  · rintro ⟨m, hm, rfl⟩
    obtain ⟨hplace, hid, hnode⟩ := mem_declaredModules_iff.1 hm
    exact ⟨m.tree, List.mem_of_getElem? hplace, m.id, Tree.mem_preorder_root_of_module hid, m.node,
      hnode, rfl⟩

end ProgramCheck
