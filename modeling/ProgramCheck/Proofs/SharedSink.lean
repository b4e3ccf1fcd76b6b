import ProgramCheck.Proofs.Visited

/-!
# Collecting through a shared sink

The reports of an analysis, gathered in place. An `Engine` has one sink that all rules report to,
one diagnostic after the other. After each rule the sink is emptied into the results, and at the end
of a run the results are handed over and forgotten. The engine goes through a tree by recursion, a
node in front of its parts, and asks every rule at every node. As the sink is empty whenever a rule
is asked, its runs end in the reports of the analyses of the same compilations.
-/

namespace ProgramCheck

theorem Report.foldl_push (ds : List Diagnostic) (r : Report) :
    ds.foldl push r = r ++ ofList ds := by
  induction ds generalizing r with
  | nil => rw [List.foldl_nil, ofList_nil, append_empty]
  | cons d ds ih =>
    have hsplit : d :: ds = [d] ++ ds := rfl
    rw [List.foldl_cons, ih, push_eq_append, append_assoc, ← ofList_append, ← hsplit]

/-- Rules at work on a compilation, with the sink that they report to and the results that have been
gathered from it. -/
structure Engine where
  rules : List ActiveRule
  compilation : Compilation
  sink : Report := {}
  results : Report := {}

namespace Engine

/-! ### The work of an engine -/

/-- Asks one rule about a visit. It reports to the sink, and the sink is emptied into the results. -/
def ask (place : Nat) (t : Tree) (v : Visit) (e : Engine) (r : ActiveRule) :
    Except Defect Engine :=
  match r.rule.respond ⟨e.compilation, place, t⟩ v r.state with
  | .error d => .error d
  | .ok response =>
    .ok {
      rules := e.rules ++ [⟨r.rule, response.state⟩]
      compilation := e.compilation.consult response.consulted
      sink := {}
      results := e.results ++ response.reports.foldl Report.push e.sink }

/-- Asks all rules about a visit, in their order. -/
def visit (place : Nat) (t : Tree) (e : Engine) (v : Visit) : Except Defect Engine :=
  e.rules.foldlM (ask place t v) { e with rules := [] }

/-- Goes through an expression. -/
def walkExpression (place : Nat) (t : Tree) (e : Engine) (id : NodeId) : Except Defect Engine :=
  match _h : t.expression? id with
  | none => .error (t.misplaced .expression id)
  | some x =>
    match e.visit place t ⟨id, .expression x⟩ with
    | .error d => .error d
    | .ok e' => x.children.attach.foldlM (fun e child => walkExpression place t e child.1) e'
termination_by id
decreasing_by exact Forest.lt_of_mem_expression _h child.2

/-- Goes through a statement. -/
def walkStatement (place : Nat) (t : Tree) (e : Engine) (id : NodeId) : Except Defect Engine :=
  match _h : t.statement? id with
  | none => .error (t.misplaced .statement id)
  | some s =>
    match e.visit place t ⟨id, .statement s⟩ with
    | .error d => .error d
    | .ok e' =>
      match s.operands.foldlM (walkExpression place t) e' with
      | .error d => .error d
      | .ok e'' => s.nested.attach.foldlM (fun e child => walkStatement place t e child.1) e''
termination_by id
decreasing_by exact Forest.lt_of_mem_nested _h child.2

/-- Goes through a function. -/
def walkFunction (place : Nat) (t : Tree) (e : Engine) (id : NodeId) : Except Defect Engine :=
  match t.function? id with
  | none => .error (t.misplaced .functionDecl id)
  | some f =>
    match e.visit place t ⟨id, .functionDecl f⟩ with
    | .error d => .error d
    | .ok e' => (f.body.getD []).foldlM (walkStatement place t) e'

/-- Goes through a module. -/
def walkModule (place : Nat) (t : Tree) (e : Engine) (id : NodeId) : Except Defect Engine :=
  match t.module? id with
  | none => .error (t.misplaced .moduleDecl id)
  | some m =>
    match e.visit place t ⟨id, .moduleDecl m⟩ with
    | .error d => .error d
    | .ok e' => m.functions.foldlM (walkFunction place t) e'

/-- Goes through a tree. -/
def walkTree (place : Nat) (t : Tree) (e : Engine) : Except Defect Engine :=
  match e.visit place t ⟨t.root, .program t.program⟩ with
  | .error d => .error d
  | .ok e' => t.program.modules.foldlM (walkModule place t) e'

/-- One run: goes through the trees of a compilation, hands over the results and forgets them. -/
def analyze (e : Engine) (c : Compilation) : Except Defect (Report × Engine) :=
  match c.trees.zipIdx.foldlM (fun e x => walkTree x.2 x.1 e) { e with compilation := c } with
  | .error d => .error d
  | .ok e' => .ok (e'.results, { e' with results := {} })

/-- The reports of the runs on some compilations, one after the other. -/
def analyzeEach (e : Engine) : List Compilation → Except Defect (List Report)
  | [] => .ok []
  | c :: cs =>
    match e.analyze c with
    | .error d => .error d
    | .ok (report, e') =>
      match e'.analyzeEach cs with
      | .error d => .error d
      | .ok reports => .ok (report :: reports)

/-! ### The walk in steps -/

/-- The engine after one more stage. -/
def advance (e : Engine) (stage : Stage) : Except Defect Engine :=
  match stage.step with
  | .defect d => .error d
  | .visit v => e.visit stage.place stage.tree v

/-- The engine after some more stages. -/
def follow (e : Engine) (stages : List Stage) : Except Defect Engine := stages.foldlM advance e

@[simp] theorem follow_nil (e : Engine) : e.follow [] = .ok e := rfl

theorem follow_cons (e : Engine) (stage : Stage) (stages : List Stage) :
    e.follow (stage :: stages) =
      match e.advance stage with
      | .error d => .error d
      | .ok e' => e'.follow stages := by
  rw [follow, List.foldlM_cons]
  cases e.advance stage <;> rfl

theorem follow_append (e : Engine) (xs ys : List Stage) :
    e.follow (xs ++ ys) =
      match e.follow xs with
      | .error d => .error d
      | .ok e' => e'.follow ys := by
  rw [follow, List.foldlM_append, ← follow]
  cases e.follow xs <;> rfl

theorem follow_flatMap {α : Type} (e : Engine) (as : List α) (stages : α → List Stage) :
    e.follow (as.flatMap stages) = as.foldlM (fun e a => e.follow (stages a)) e := by
  induction as generalizing e with
  | nil => rfl
  | cons a as ih =>
    rw [List.flatMap_cons, follow_append, List.foldlM_cons]
    cases e.follow (stages a) with
    | error d => rfl
    | ok e' => exact ih e'

theorem foldlM_congr {α : Type} {as : List α} {f g : Engine → α → Except Defect Engine}
    (h : ∀ a ∈ as, ∀ e, f e a = g e a) (e : Engine) : as.foldlM f e = as.foldlM g e := by
  induction as generalizing e with
  | nil => rfl
  | cons a as ih =>
    rw [List.foldlM_cons, List.foldlM_cons, h a List.mem_cons_self]
    cases g e a with
    | error d => rfl
    | ok e' => exact ih (fun a' ha' => h a' (List.mem_cons_of_mem _ ha')) e'

theorem foldlM_attach {α : Type} (as : List α) (f : Engine → α → Except Defect Engine)
    (e : Engine) : as.attach.foldlM (fun e a => f e a.1) e = as.foldlM f e := by
  conv_rhs => rw [← List.attach_map_subtype_val as, List.foldlM_map]

section Steps

variable {place : Nat} {t : Tree}

/-- A node that is visited in front of its parts. -/
theorem follow_visit {v : Visit} {steps : List Step} (e : Engine) :
    e.follow (t.stagesOf place (.visit v :: steps)) =
      match e.visit place t v with
      | .error d => .error d
      | .ok e' => e'.follow (t.stagesOf place steps) :=
  follow_cons e _ _

/-- Parts of a node that the engine goes through one after the other. -/
theorem follow_parts (place : Nat) (t : Tree) (ids : List NodeId)
    (walk : Engine → NodeId → Except Defect Engine) {steps : NodeId → List Step}
    (h : ∀ id ∈ ids, ∀ e : Engine, walk e id = e.follow (t.stagesOf place (steps id)))
    (e : Engine) : ids.foldlM walk e = e.follow (t.stagesOf place (ids.flatMap steps)) := by
  rw [Tree.stagesOf_flatMap, follow_flatMap]
  exact foldlM_congr h e

theorem walkExpression_eq (e : Engine) (id : NodeId) :
    walkExpression place t e id = e.follow (t.stagesOf place (t.expressionSteps id)) := by
  induction id using Nat.strongRecOn generalizing e with
  | ind id ih =>
    rw [walkExpression, Tree.expressionSteps_eq]
    split
    · next h =>
      rw [h]
      rfl
    · next x h =>
      have hparts := follow_parts place t x.children (walkExpression place t)
        fun child hchild e => ih child (Forest.lt_of_mem_expression h hchild) e
      simp only [h, follow_visit, ← hparts, foldlM_attach _ (walkExpression place t)]

theorem walkStatement_eq (e : Engine) (id : NodeId) :
    walkStatement place t e id = e.follow (t.stagesOf place (t.statementSteps id)) := by
  induction id using Nat.strongRecOn generalizing e with
  | ind id ih =>
    rw [walkStatement, Tree.statementSteps_eq]
    split
    · next h =>
      rw [h]
      rfl
    · next s h =>
      have hoperands := follow_parts place t s.operands (walkExpression place t)
        fun child _ e => walkExpression_eq e child
      have hnested := follow_parts place t s.nested (walkStatement place t)
        fun child hchild e => ih child (Forest.lt_of_mem_nested h hchild) e
      have happend : ∀ xs ys, t.stagesOf place (xs ++ ys) =
          t.stagesOf place xs ++ t.stagesOf place ys := fun _ _ => List.map_append
      simp only [h, follow_visit, happend, follow_append, ← hoperands, ← hnested,
        foldlM_attach _ (walkStatement place t)]

theorem walkFunction_eq (e : Engine) (id : NodeId) :
    walkFunction place t e id = e.follow (t.stagesOf place (t.functionSteps id)) := by
  rw [walkFunction, Tree.functionSteps]
  cases t.function? id with
  | none => rfl
  | some f =>
    have hbody := follow_parts place t (f.body.getD []) (walkStatement place t)
      fun child _ e => walkStatement_eq e child
    simp only [follow_visit, hbody]

theorem walkModule_eq (e : Engine) (id : NodeId) :
    walkModule place t e id = e.follow (t.stagesOf place (t.moduleSteps id)) := by
  rw [walkModule, Tree.moduleSteps]
  cases t.module? id with
  | none => rfl
  | some m =>
    have hfunctions := follow_parts place t m.functions (walkFunction place t)
      fun child _ e => walkFunction_eq e child
    simp only [follow_visit, hfunctions]

/-- The engine goes through a tree by the stages of the walk. -/
theorem walkTree_eq (e : Engine) : walkTree place t e = e.follow (t.stages place) := by
  change _ = e.follow (t.stagesOf place t.steps)
  have hmodules := follow_parts place t t.program.modules (walkModule place t)
    fun child _ e => walkModule_eq e child
  simp only [walkTree, Tree.steps, follow_visit, hmodules]

end Steps

theorem foldlM_walkTree (e : Engine) (c : Compilation) :
    c.trees.zipIdx.foldlM (fun e x => walkTree x.2 x.1 e) e = e.follow c.stages := by
  rw [Compilation.stages, flatten_mapIdx, follow_flatMap]
  exact foldlM_congr (fun x _ e => walkTree_eq e) e

/-! ### The engine and the analysis -/

/-- The engine between two stages of an analysis. -/
def ofAnalysis (a : Analysis) : Engine := ⟨a.rules, a.compilation, {}, a.report⟩

/-- Rules that are asked one after the other, each with an empty sink, leave in the results what
they report. -/
theorem foldlM_ask {place : Nat} {t : Tree} {v : Visit} (rules asked : List ActiveRule)
    (c : Compilation) (r : Report) :
    rules.foldlM (ask place t v) ⟨asked, c, {}, r⟩ =
      (Analysis.answer place t v rules c).map fun next =>
        ⟨asked ++ next.rules, next.compilation, {}, r ++ next.report⟩ := by
  induction rules generalizing asked c r with
  | nil => simp [Analysis.answer, Except.map, Report.append_empty, pure, Except.pure]
  | cons rule rules ih =>
    rw [List.foldlM_cons, Analysis.answer, ask]
    cases rule.rule.respond ⟨c, place, t⟩ v rule.state with
    | error d => rfl
    | ok response =>
      change rules.foldlM (ask place t v) _ = _
      rw [Report.foldl_push, Report.empty_append, ih]
      simp only
      cases Analysis.answer place t v rules (c.consult response.consulted) with
      | error d => rfl
      | ok rest =>
        simp [Except.map, Report.append_assoc, List.append_assoc]

theorem advance_ofAnalysis (a : Analysis) (stage : Stage) :
    (ofAnalysis a).advance stage = (a.advance stage).map ofAnalysis := by
  rw [advance, Analysis.advance]
  cases stage.step with
  | defect d => rfl
  | visit v =>
    simp only [visit, ofAnalysis]
    rw [foldlM_ask]
    cases Analysis.answer stage.place stage.tree v a.rules a.compilation <;> rfl

theorem follow_ofAnalysis (a : Analysis) (stages : List Stage) :
    (ofAnalysis a).follow stages = (a.follow stages).map ofAnalysis := by
  induction stages generalizing a with
  | nil => rfl
  | cons stage stages ih =>
    rw [follow_cons, Analysis.follow, advance_ofAnalysis]
    cases a.advance stage with
    | error d => rfl
    | ok a' => exact ih a'

/-- **A run of an engine ends as the analysis does**, with the same report and the rules in the same
states, and it leaves neither sink nor results behind. -/
theorem analyze_eq (a : Analyzer) (c c₀ : Compilation) :
    analyze ⟨a.rules, c₀, {}, {}⟩ c =
      (a.analyze c).map fun result =>
        (result.report, ⟨result.rules, result.compilation, {}, {}⟩) := by
  have hfollow := follow_ofAnalysis ⟨a.rules, c, {}⟩ c.stages
  rw [analyze, foldlM_walkTree, Analyzer.analyze]
  unfold ofAnalysis at hfollow
  simp only [hfollow]
  cases Analysis.follow ⟨a.rules, c, {}⟩ c.stages <;> rfl

end Engine

end ProgramCheck
