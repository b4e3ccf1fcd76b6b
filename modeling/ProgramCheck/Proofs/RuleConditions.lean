import ProgramCheck.Proofs.CallReports
import ProgramCheck.Proofs.WellTyped

/-!
# What the built-in rules ask for

For each of the built-in rules, what it takes that the rule finds no error in a whole walk, said of
the modules and functions that are declared and not of the walk. The walk does not matter for the
rules without a state; for the rule on duplicate modules it comes down to the list of the declared
modules, and for the rule on calls to the list of the declared functions, in their orders.
-/

namespace ProgramCheck

theorem noErrors_map_error_iff {α : Type} {as : List α} {g : α → Diagnostic}
    (h : ∀ a ∈ as, (g a).isError = true) : NoErrors (as.map g) ↔ as = [] := by
  cases as with
  | nil => simp [NoErrors]
  | cons a as =>
    refine iff_of_false (fun hall => ?_) (by simp)
    have := hall (g a) List.mem_cons_self
    rw [h a List.mem_cons_self] at this
    cases this

/-! ### Names that occur twice -/

theorem secondOccurrencesFrom_eq_nil_iff {α : Type} {key : α → String} {before : List String}
    (h : before.Nodup) (as : List α) :
    secondOccurrencesFrom key before as = [] ↔ (before.reverse ++ as.map key).Nodup := by
  induction as generalizing before with
  | nil => simp [secondOccurrencesFrom, h]
  | cons a as ih =>
    rw [secondOccurrencesFrom]
    by_cases ha : key a ∈ before
    · rw [if_pos (List.count_eq_one_of_mem h ha)]
      refine iff_of_false (by simp) (fun hall => ?_)
      exact (List.nodup_append.1 hall).2.2 (key a) (List.mem_reverse.2 ha) (key a)
        (by simp) rfl
    · have hcount : ¬ before.count (key a) = 1 := by simp [List.count_eq_zero_of_not_mem ha]
      rw [if_neg hcount, ih (List.nodup_cons.2 ⟨ha, h⟩), List.reverse_cons, List.append_assoc,
        List.singleton_append, List.map_cons]

/-- No member of a list is a second occurrence exactly if the keys are distinct. -/
theorem secondOccurrences_eq_nil_iff {α : Type} {key : α → String} {as : List α} :
    secondOccurrences key as = [] ↔ (as.map key).Nodup :=
  secondOccurrencesFrom_eq_nil_iff List.nodup_nil as

namespace Tree

variable {t : Tree}

theorem noErrors_duplicateParameters_iff {id : NodeId} {g : Function} :
    NoErrors (t.duplicateParameters id g) ↔
      ((g.parameters.filterMap t.parameter?).map Parameter.name).Nodup := by
  rw [duplicateParameters, noErrors_map_error_iff fun _ _ => rfl, secondOccurrences_eq_nil_iff]

theorem noErrors_duplicateFunctions_iff {m : Module} :
    NoErrors (t.duplicateFunctions m) ↔ ((t.functionsOf m).map (·.2.name)).Nodup := by
  rw [duplicateFunctions, noErrors_map_error_iff fun _ _ => rfl, secondOccurrences_eq_nil_iff]

theorem noErrors_bodyErrors_iff {id : NodeId} {g : Function} :
    NoErrors (t.bodyErrors id g) ↔ (g.body.isSome = true ↔ g.modifiers.external = false) := by
  rw [bodyErrors]
  cases g.modifiers.external <;> cases g.body <;> simp [NoErrors, error, Diagnostic.isError]

theorem noErrors_importsReports_iff {known before : List String} {ids : List NodeId} :
    NoErrors (t.importsReports known before ids) ↔
      ∀ i ∈ ids.filterMap t.import?, lowercase i.moduleName ∈ known := by
  induction ids generalizing before with
  | nil => simp [importsReports, NoErrors]
  | cons id ids ih =>
    rw [importsReports]
    cases hi : t.import? id with
    | none => rw [List.filterMap_cons_none hi, ih]
    | some i =>
      have hhead : NoErrors (t.importReports known before id i) ↔
          lowercase i.moduleName ∈ known := by
        rw [importReports]
        split <;> split <;> simp_all [NoErrors, error, warning, Diagnostic.isError]
      rw [List.filterMap_cons_some hi, List.forall_mem_cons, ← ih, ← hhead]
      exact List.forall_mem_append

end Tree

/-! ### Rules without a state -/

namespace Builtin

/-- A rule that looks at some of the stages, at each on its own. -/
theorem along_accepts_iff {α : Type} {b : Builtin} {trees : List Tree} {stages : List Stage}
    (pick : Stage → Option α) (r : α → List Diagnostic)
    (hdefect : ∀ place t d, pick ⟨place, t, .defect d⟩ = none)
    (hvisit : ∀ history place t v,
      b.reports trees history t v = ((pick ⟨place, t, .visit v⟩).map r).getD []) :
    Along (b.Accepts trees) [] stages ↔ ∀ a ∈ stages.filterMap pick, NoErrors (r a) := by
  have haccepts : ∀ history s,
      b.Accepts trees history s ↔ ∀ a, pick s = some a → NoErrors (r a) := by
    rintro history ⟨place, t, step⟩
    cases step with
    | defect d =>
      constructor
      · intro _ a ha
        simp [hdefect] at ha
      · intro _ v hv
        cases hv
    | visit v =>
      have hv : b.Accepts trees history ⟨place, t, .visit v⟩ ↔
          NoErrors (b.reports trees history t v) := by
        simp [Accepts]
      rw [hv, hvisit history place]
      cases pick ⟨place, t, .visit v⟩ <;> simp [NoErrors]
  rw [along_congr fun history s _ => haccepts history s, along_const]
  simp only [List.mem_filterMap]
  constructor
  · rintro hall a ⟨s, hs, ha⟩
    exact hall s hs a ha
  · exact fun hall s hs a ha => hall a ⟨s, hs, ha⟩

variable (c : Compilation)

theorem along_duplicateParameter_iff :
    Along (duplicateParameter.Accepts c.trees) [] c.stages ↔ ∀ g ∈ declaredFunctions c.trees,
      ((g.node.parameters.filterMap g.tree.parameter?).map Parameter.name).Nodup := by
  rw [along_accepts_iff Stage.function? _ (fun _ _ _ => rfl) (reports_duplicateParameter c.trees),
    ← visitedFunctions, c.visitedFunctions_stages]
  simp only [Tree.noErrors_duplicateParameters_iff]

theorem along_functionBody_iff :
    Along (functionBody.Accepts c.trees) [] c.stages ↔ ∀ g ∈ declaredFunctions c.trees,
      (g.node.body.isSome = true ↔ g.node.modifiers.external = false) := by
  rw [along_accepts_iff Stage.function? _ (fun _ _ _ => rfl) (reports_functionBody c.trees),
    ← visitedFunctions, c.visitedFunctions_stages]
  simp only [Tree.noErrors_bodyErrors_iff]

theorem along_duplicateFunction_iff :
    Along (duplicateFunction.Accepts c.trees) [] c.stages ↔ ∀ m ∈ declaredModules c.trees,
      ((m.tree.functionsOf m.node).map (·.2.name)).Nodup := by
  rw [along_accepts_iff Stage.module? _ (fun _ _ _ => rfl) (reports_duplicateFunction c.trees),
    ← visitedModules, c.visitedModules_stages]
  simp only [Tree.noErrors_duplicateFunctions_iff]

/-- The program that is visited at a stage, with its tree. -/
def programAt? (s : Stage) : Option (Tree × Program) :=
  match s.step with
  | .visit ⟨_, .program p⟩ => some (s.tree, p)
  | _ => none

theorem reports_importResolution (trees : List Tree) (history : List Stage) (place : Nat) (t : Tree)
    (v : Visit) :
    importResolution.reports trees history t v =
      ((programAt? ⟨place, t, .visit v⟩).map fun x => importReports trees x.1 x.2).getD [] := by
  obtain ⟨id, subject⟩ := v
  cases subject <;> rfl

/-- The programs that a walk visits are those of the trees, in their order. -/
theorem filterMap_programAt?_stages :
    c.stages.filterMap programAt? = c.trees.map fun t => (t, t.program) := by
  have htree : ∀ (place : Nat) (t : Tree),
      (t.stages place).filterMap programAt? = [(t, t.program)] := by
    intro place t
    refine congrArg (_ :: ·) (List.filterMap_eq_nil_iff.2 fun s hs => ?_)
    obtain ⟨step, hstep, rfl⟩ := List.mem_map.1 hs
    obtain ⟨id, -, hstep⟩ := List.mem_flatMap.1 hstep
    unfold programAt?
    split
    · next hvisit =>
      obtain rfl : step = _ := hvisit
      exact absurd rfl (Tree.not_program_of_mem_moduleSteps hstep _)
    · rfl
  rw [Compilation.stages, flatten_mapIdx, List.filterMap_flatMap]
  simp only [htree]
  conv_rhs => rw [← List.zipIdx_map_fst 0 c.trees, List.map_map]
  exact List.map_eq_flatMap.symm

/-- Every import finds a module of its name in lower case. -/
theorem along_importResolution_iff (h : ∀ t ∈ c.trees, t.WellKinded) :
    Along (importResolution.Accepts c.trees) [] c.stages ↔
      ∀ t ∈ c.trees, ∀ i ∈ t.program.imports.filterMap t.import?,
        ∃ m ∈ declaredModules c.trees, lowercase m.node.name = lowercase i.moduleName := by
  have hknown : ∀ key, key ∈ (Compilation.ofTrees c.trees).moduleNames.map lowercase ↔
      ∃ m ∈ declaredModules c.trees, lowercase m.node.name = key := by
    intro key
    simp only [List.mem_map, mem_moduleNames_iff_declared h]
    constructor
    · rintro ⟨_, ⟨m, hm, rfl⟩, rfl⟩
      exact ⟨m, hm, rfl⟩
    · rintro ⟨m, hm, rfl⟩
      exact ⟨_, ⟨m, hm, rfl⟩, rfl⟩
  have hreports : ∀ (t : Tree) (p : Program), NoErrors (importReports c.trees t p) ↔
      ∀ i ∈ p.imports.filterMap t.import?,
        ∃ m ∈ declaredModules c.trees, lowercase m.node.name = lowercase i.moduleName := by
    intro t p
    rw [importReports, Tree.noErrors_importsReports_iff]
    simp only [hknown]
  rw [along_accepts_iff programAt? _ (fun _ _ _ => rfl) (reports_importResolution c.trees)]
  simp only [filterMap_programAt?_stages, List.forall_mem_map, hreports]

/-- Every declared function has a well-typed body. -/
theorem along_valueType_iff (h : ∀ t ∈ c.trees, t.WellKinded) :
    Along (valueType.Accepts c.trees) [] c.stages ↔ ∀ g ∈ declaredFunctions c.trees,
      g.tree.WellTyped (.ofParameters (g.node.parameters.filterMap g.tree.parameter?))
        (g.node.body.getD []) := by
  have hfunction : ∀ g ∈ declaredFunctions c.trees,
      (g.tree.WellTyped (.ofParameters (g.node.parameters.filterMap g.tree.parameter?))
        (g.node.body.getD []) ↔
      ∀ v ∈ g.tree.functionStatements g.id, NoErrors (g.tree.valueReports v)) := by
    intro g hg
    have hnode := function?_of_declared hg
    have hk := (h g.tree (List.mem_of_getElem? (tree_of_declared hg))).from g.id
    rw [← Tree.functionFaults_eq_nil_iff hnode hk, ← noErrors_flatMap_iff,
      Tree.valueReports_functionStatements hnode hk, noErrors_map_error_iff fun _ _ => rfl]
  have hstages : Along (valueType.Accepts c.trees) [] c.stages ↔
      ∀ s ∈ c.stages, ∀ v, s.step = .visit v → NoErrors (s.tree.valueReports v) :=
    along_const (p := fun s : Stage => ∀ v, s.step = .visit v → NoErrors (s.tree.valueReports v))
  rw [hstages]
  -- the statements visited in a walk are those visited in the declared functions
  constructor
  · intro hall g hg
    refine (hfunction g hg).2 fun v hv => ?_
    obtain ⟨step, hstep, hv⟩ := List.mem_filterMap.1 hv
    obtain ⟨rfl, -⟩ := Step.statementVisit?_eq_some_iff.1 hv
    exact hall _ (Compilation.mem_stages_of_functionSteps hg hstep) v rfl
  · rintro hall ⟨place, t, step⟩ hs ⟨id, subject⟩ rfl
    cases subject with
    | statement st =>
      rcases Compilation.of_mem_stages hs with
        ⟨p, hp⟩ | ⟨m, hm⟩ | ⟨g, hg⟩ | ⟨g, hg, hplace, rfl, body, hbody, hv⟩
      · cases hp
      · cases hm
      · cases hg
      · refine (hfunction g hg).1 (hall g hg) _ (List.mem_filterMap.2
          ⟨.visit ⟨id, .statement st⟩, ?_, rfl⟩)
        rw [Tree.functionSteps_of_some (function?_of_declared hg)]
        exact List.mem_cons_of_mem _ (List.mem_flatMap.2 ⟨body, hbody, hv⟩)
    | _ => exact fun d hd => absurd hd List.not_mem_nil

/-! ### Modules of one name -/

/-- The declared modules have distinct names in lower case. -/
theorem along_duplicateModule_iff (c : Compilation) :
    Along (duplicateModule.Accepts c.trees) [] c.stages ↔
      ((declaredModules c.trees).map fun m => lowercase m.node.name).Nodup := by
  -- both sides say of every stage that the name of its module is new
  rw [← c.visitedModules_stages, visitedModules, List.map_filterMap, nodup_filterMap_iff]
  refine along_congr fun before s _ => ?_
  obtain ⟨place, t, step⟩ := s
  constructor
  · intro h key hkey hmem
    obtain ⟨m, hm, rfl⟩ := Option.map_eq_some_iff.1 hkey
    cases Stage.module?_eq_some_iff.1 hm
    have herror : NoErrors (moduleReports before m.tree m.id m.node) := h _ rfl
    rw [moduleReports, visitedModules, List.map_filterMap, if_pos hmem] at herror
    exact absurd (herror _ (List.mem_singleton.2 rfl)) (by simp [Tree.error, Diagnostic.isError])
  · rintro h ⟨id, subject⟩ rfl
    cases subject with
    | moduleDecl m =>
      change NoErrors (moduleReports before t id m)
      rw [moduleReports, visitedModules, List.map_filterMap,
        if_neg (h (lowercase m.name) rfl)]
      exact fun d hd => absurd hd List.not_mem_nil
    | _ => exact fun d hd => absurd hd List.not_mem_nil

end Builtin

/-! ### Calls -/

/-- Every call in a function is of a function before it or of itself, and of those with the called
name the last may be called from there. -/
def CallsResolve (before : List (Visited Function)) (g : Visited Function) : Prop :=
  ∀ s ∈ g.node.body.getD [], ∀ id ∈ g.tree.preorder s, ∀ name arguments,
    g.tree.expression? id = some (.call name arguments) →
      ∃ d caller, latest? (before ++ [g]) name = some d ∧ g.moduleName? = some caller ∧
        g.tree.MayCall caller d

theorem callsResolve_iff {before : List (Visited Function)} {g : Visited Function} {caller : String}
    (h : g.moduleName? = some caller) :
    CallsResolve before g ↔
      ∀ s ∈ g.node.body.getD [], ∀ id ∈ g.tree.preorder s, ∀ name arguments,
        g.tree.expression? id = some (.call name arguments) →
          ∃ d, latest? (before ++ [g]) name = some d ∧ g.tree.MayCall caller d := by
  simp [CallsResolve, h]

namespace Builtin

variable {trees : List Tree} {history : List Stage} {place : Nat} {t : Tree}

theorem accepts_callVisibility_iff {v : Visit} :
    callVisibility.Accepts trees history ⟨place, t, .visit v⟩ ↔
      ∀ name arguments, v.subject = .expression (.call name arguments) →
        NoErrors (callReports history t v.id name) := by
  constructor
  · rintro h name arguments hv
    obtain ⟨id, subject⟩ := v
    obtain rfl : subject = .expression (.call name arguments) := hv
    exact h _ rfl
  · rintro h v' hv'
    obtain rfl := Step.visit.inj hv'
    obtain ⟨id, subject⟩ := v
    cases subject with
    | expression e =>
      cases e with
      | call name arguments => exact h name arguments rfl
      | _ => exact fun d hd => absurd hd List.not_mem_nil
    | _ => exact fun d hd => absurd hd List.not_mem_nil

/-- The rule on calls depends on a history by its functions. -/
theorem accepts_callVisibility_congr {history' : List Stage} {s : Stage}
    (h : visitedFunctions history = visitedFunctions history') :
    callVisibility.Accepts trees history s ↔ callVisibility.Accepts trees history' s := by
  obtain ⟨place, t, step⟩ := s
  cases step with
  | defect d => exact ⟨fun _ _ hv => (nomatch hv), fun _ _ hv => (nomatch hv)⟩
  | visit v => simp only [accepts_callVisibility_iff, callReports, h]

/-- The rule on calls accepts what is no expression. -/
theorem accepts_callVisibility_of_ne {v : Visit} (h : ∀ e, v.subject ≠ .expression e) :
    callVisibility.Accepts trees history ⟨place, t, .visit v⟩ :=
  accepts_callVisibility_iff.2 fun _ _ hv => absurd hv (h _)

/-- In the body of a function the rule on calls accepts the calls of functions that may be called
from the module of the function. -/
theorem forall_accepts_body_iff (hk : t.WellKinded) {mid id : NodeId} {m : Module} {g : Function}
    (hm : t.module? mid = some m) (hid : id ∈ m.functions) (hg : t.function? id = some g) :
    (∀ s ∈ t.stagesOf place ((g.body.getD []).flatMap t.statementSteps),
        callVisibility.Accepts trees history s) ↔
      ∀ b ∈ g.body.getD [], ∀ d ∈ t.preorder b, ∀ name arguments,
        t.expression? d = some (.call name arguments) →
          ∃ f, latest? (visitedFunctions history) name = some f ∧ t.MayCall m.name f := by
  constructor
  · intro h b hb d hd name arguments he
    obtain ⟨s, hs⟩ := (hk.slotsFit id).exists_body hg hb
    have hv := (Tree.visit_mem_statementSteps_iff (hk.from b) hs).2 ⟨hd, he⟩
    have hfine := accepts_callVisibility_iff.1
      (h _ (List.mem_map_of_mem (List.mem_flatMap.2 ⟨b, hb, hv⟩))) name arguments rfl
    exact (noErrors_callReports_iff (Tree.moduleNameAbove?_body hm hid hg hb hv)).1 hfine
  · rintro h s hs
    obtain ⟨step, hstep, rfl⟩ := List.mem_map.1 hs
    obtain ⟨b, hb, hstep⟩ := List.mem_flatMap.1 hstep
    cases step with
    | defect d => exact fun _ hv => nomatch hv
    | visit v =>
      refine accepts_callVisibility_iff.2 fun name arguments hv => ?_
      obtain ⟨d, subject⟩ := v
      obtain rfl : subject = .expression (.call name arguments) := hv
      obtain ⟨s, hs⟩ := (hk.slotsFit id).exists_body hg hb
      obtain ⟨hd, he⟩ := (Tree.visit_mem_statementSteps_iff (hk.from b) hs).1 hstep
      exact (noErrors_callReports_iff (Tree.moduleNameAbove?_body hm hid hg hb hstep)).2
        (h b hb d hd name arguments he)

/-- Along a function the rule on calls asks that its calls resolve. -/
theorem along_functionSteps_iff (hk : t.WellKinded) {mid id : NodeId} {m : Module}
    (hm : t.module? mid = some m) (hid : id ∈ m.functions) :
    Along (callVisibility.Accepts trees) history (t.stagesOf place (t.functionSteps id)) ↔
      Along CallsResolve (visitedFunctions history)
        (visitedFunctions (t.stagesOf place (t.functionSteps id))) := by
  obtain ⟨g, hg⟩ := (hk.slotsFit mid).exists_function hm hid
  have hname : Visited.moduleName? ⟨place, t, id, g⟩ = some m.name :=
    Tree.moduleNameAbove?_function hm hid
  have hfirst : callVisibility.Accepts trees history
      ⟨place, t, .visit ⟨id, .functionDecl g⟩⟩ :=
    accepts_callVisibility_of_ne (by simp)
  have hvisited : visitedFunctions (history ++ [⟨place, t, .visit ⟨id, .functionDecl g⟩⟩]) =
      visitedFunctions history ++ [⟨place, t, id, g⟩] := List.filterMap_append
  -- in the body no further function is visited, so each of its calls sees the same functions
  have hbody : ∀ s ∈ t.stagesOf place ((g.body.getD []).flatMap t.statementSteps),
      s.function? = none :=
    fun _ hs => (Tree.visited_of_mem_body hs).2
  rw [Tree.visitedFunctions_functionSteps, hg, Option.map_some, Option.toList_some, along_cons,
    and_iff_left along_nil, Tree.functionSteps_of_some hg, callsResolve_iff hname, ← hvisited]
  refine (and_iff_right hfirst).trans ?_
  exact Iff.trans (along_iff_forall (fun _ _ _ h => accepts_callVisibility_congr h) hbody)
    (forall_accepts_body_iff hk hm hid hg)

/-- If the rule on calls asks along each part of a node that the calls resolve, it does so along the
node, which is itself no function. -/
theorem along_visit_parts_iff {v : Visit} (hexpression : ∀ e, v.subject ≠ .expression e)
    (hfunction : Stage.function? ⟨place, t, .visit v⟩ = none) {ids : List NodeId}
    {steps : NodeId → List Step}
    (h : ∀ id ∈ ids, ∀ before,
      Along (callVisibility.Accepts trees) before (t.stagesOf place (steps id)) ↔
        Along CallsResolve (visitedFunctions before)
          (visitedFunctions (t.stagesOf place (steps id)))) :
    Along (callVisibility.Accepts trees) history
        (t.stagesOf place (.visit v :: ids.flatMap steps)) ↔
      Along CallsResolve (visitedFunctions history)
        (visitedFunctions (t.stagesOf place (.visit v :: ids.flatMap steps))) := by
  have hvisited : visitedFunctions (history ++ [⟨place, t, .visit v⟩]) =
      visitedFunctions history := by
    simp [visitedFunctions, hfunction]
  have hparts : visitedFunctions (t.stagesOf place (.visit v :: ids.flatMap steps)) =
      visitedFunctions (ids.flatMap fun id => t.stagesOf place (steps id)) := by
    rw [← Tree.stagesOf_flatMap]
    exact List.filterMap_cons_none hfunction
  rw [hparts, ← hvisited]
  refine (and_iff_right (accepts_callVisibility_of_ne hexpression)).trans ?_
  change Along _ _ (t.stagesOf place (ids.flatMap steps)) ↔ _
  rw [Tree.stagesOf_flatMap]
  exact along_flatMap_iff h

/-- Along a module the rule on calls asks that the calls of its functions resolve. -/
theorem along_moduleSteps_iff (hk : t.WellKinded) {mid : NodeId} {m : Module}
    (hm : t.module? mid = some m) :
    Along (callVisibility.Accepts trees) history (t.stagesOf place (t.moduleSteps mid)) ↔
      Along CallsResolve (visitedFunctions history)
        (visitedFunctions (t.stagesOf place (t.moduleSteps mid))) := by
  rw [Tree.moduleSteps_of_some hm]
  exact along_visit_parts_iff (by simp) rfl fun id hid _ => along_functionSteps_iff hk hm hid

/-- Along a tree the rule on calls asks that the calls of its functions resolve. -/
theorem along_treeStages_iff (hk : t.WellKinded) :
    Along (callVisibility.Accepts trees) history (t.stages place) ↔
      Along CallsResolve (visitedFunctions history) (visitedFunctions (t.stages place)) := by
  refine along_visit_parts_iff (v := ⟨t.root, .program t.program⟩) (by simp) rfl ?_
  intro mid hmid _
  obtain ⟨m, hm⟩ := (hk.slotsFit t.root).exists_module t.kind?_root hmid
  exact along_moduleSteps_iff hk hm

/-- The calls of every declared function resolve behind the functions declared before it. -/
theorem along_callVisibility_iff (c : Compilation) (h : ∀ t ∈ c.trees, t.WellKinded) :
    Along (callVisibility.Accepts c.trees) [] c.stages ↔
      Along CallsResolve [] (declaredFunctions c.trees) := by
  rw [← c.visitedFunctions_stages, Compilation.stages, flatten_mapIdx]
  exact along_flatMap_iff fun x hx before =>
    along_treeStages_iff (h x.1 (List.fst_mem_of_mem_zipIdx hx))

end Builtin

end ProgramCheck
