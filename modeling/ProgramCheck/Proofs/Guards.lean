import ProgramCheck.Proofs.Ancestry
import ProgramCheck.Proofs.CallVerdicts
import ProgramCheck.Proofs.Whereabouts

/-!
# Guards that never act

The rules are on their guard against walks that cannot be: the rule on calls against a function and
against a call that no module is around, the rule on types against a declaration without a symbol.
At every visit of a walk the module and the function around the node are those that the walk is in,
also in trees with nodes out of place. So the rules always answer, an analysis with the built-in
rules ends early only at a node out of place, and none of the texts that the guards hold ready is
ever reported.
-/

namespace ProgramCheck

/-! ### What is never said -/

/-- Whether a text says that a call has no module around it, or that a declaration has no symbol. -/
def GuardText (text : String) : Prop :=
  ∃ name, text = "Function call '" ++ name ++ "' is not inside any module." ∨
    text = "No symbol found for variable '" ++ name ++ "'."

/-- The texts are told from others by their first letters. -/
theorem not_guardText {text : String} (hf : text.toList.head? ≠ some 'F')
    (hn : text.toList.take 3 ≠ ['N', 'o', ' ']) : ¬ GuardText text := by
  rintro ⟨name, rfl | rfl⟩
  · simp at hf
  · simp at hn

namespace Tree

variable {t : Tree} {id : NodeId} {d : Diagnostic}

theorem not_guardText_duplicateParameters {g : Function} (hd : d ∈ t.duplicateParameters id g) :
    ¬ GuardText d.message := by
  obtain ⟨p, -, rfl⟩ := List.mem_map.1 hd
  exact not_guardText (by simp [error]) (by simp [error])

theorem not_guardText_duplicateFunctions {m : Module} (hd : d ∈ t.duplicateFunctions m) :
    ¬ GuardText d.message := by
  obtain ⟨f, -, rfl⟩ := List.mem_map.1 hd
  exact not_guardText (by simp [error]) (by simp [error])

theorem not_guardText_bodyErrors {g : Function} (hd : d ∈ t.bodyErrors id g) :
    ¬ GuardText d.message := by
  unfold bodyErrors at hd
  split at hd
  · obtain rfl := List.mem_singleton.1 hd
    exact not_guardText (by simp [error]) (by simp [error])
  · obtain rfl := List.mem_singleton.1 hd
    exact not_guardText (by simp [error]) (by simp [error])
  · cases hd

theorem not_guardText_importReports {known before : List String} {i : Import}
    (hd : d ∈ t.importReports known before id i) : ¬ GuardText d.message := by
  rw [importReports, List.mem_append] at hd
  rcases hd with hd | hd
  · split at hd
    · obtain rfl := List.mem_singleton.1 hd
      exact not_guardText (by simp [warning]) (by simp [warning])
    · cases hd
  · split at hd
    · cases hd
    · obtain rfl := List.mem_singleton.1 hd
      exact not_guardText (by simp [error]) (by simp [error])

theorem not_guardText_importsReports {known before : List String} {ids : List NodeId}
    (hd : d ∈ t.importsReports known before ids) : ¬ GuardText d.message := by
  induction ids generalizing before with
  | nil => cases hd
  | cons id ids ih =>
    rw [importsReports] at hd
    cases hi : t.import? id with
    | none =>
      rw [hi] at hd
      exact ih hd
    | some i =>
      rw [hi, List.mem_append] at hd
      exact hd.elim not_guardText_importReports ih

/-- On a call with a module around it. -/
theorem not_guardText_callErrors {name caller : String} {o : Origin}
    (hcaller : t.moduleNameAbove? id = some caller) (hd : d ∈ t.callErrors id name o) :
    ¬ GuardText d.message := by
  rw [callErrors_eq hcaller] at hd
  split at hd
  · cases hd
  rcases List.mem_append.1 hd with hd | hd
  · split at hd
    · cases hd
    · obtain rfl := List.mem_singleton.1 hd
      exact not_guardText (by simp [notImported, error]) (by simp [notImported, error])
  · split at hd
    · cases hd
    · obtain rfl := List.mem_singleton.1 hd
      exact not_guardText (by simp [notExported, error]) (by simp [notExported, error])

theorem not_guardText_typeFault (fault : TypeFault) : ¬ GuardText fault.message := by
  cases fault with
  | initializer actual declared =>
    show ¬ GuardText ("Type mismatch: Expression type '" ++ actual.display ++
      "' does not match declared type '" ++ declared.display ++ "'.")
    exact not_guardText (by simp) (by simp)
  | undeclared name =>
    show ¬ GuardText ("Undeclared variable '" ++ name ++ "' cannot be assigned.")
    exact not_guardText (by simp) (by simp)
  | value name actual declared =>
    show ¬ GuardText ("Type mismatch: Cannot assign expression of type '" ++ actual.display ++
      "' to variable '" ++ name ++ "' of type '" ++ declared.display ++ "'.")
    exact not_guardText (by simp) (by simp)

/-- On a declaration, which has a symbol. -/
theorem not_guardText_declarationErrors {name : String} {type : TypeRef} {initializer : NodeId}
    (hs : t.statement? id = some (.declaration name type initializer))
    (hd : d ∈ t.declarationErrors id name initializer) : ¬ GuardText d.message := by
  rw [declarationErrors_eq hs] at hd
  obtain ⟨fault, -, rfl⟩ := List.mem_map.1 hd
  exact not_guardText_typeFault fault.2

theorem not_guardText_assignmentErrors {name : String} {value : NodeId}
    (hd : d ∈ t.assignmentErrors id name value) : ¬ GuardText d.message := by
  rw [assignmentErrors] at hd
  cases htype : t.visibleType? id name with
  | none =>
    rw [htype] at hd
    rw [List.mem_singleton.1 hd]
    exact not_guardText_typeFault (.undeclared name)
  | some type =>
    simp only [htype] at hd
    cases hactual : t.mismatch? value type with
    | none => simp [hactual] at hd
    | some actual =>
      simp only [hactual, List.mem_singleton] at hd
      rw [hd]
      exact not_guardText_typeFault (.value name actual type)

end Tree

/-- At a stage of a walk no built-in rule says one of these texts, whatever state it is in. -/
theorem Builtin.not_guardText (b : Builtin) {c : Compilation} {place : Nat} {t : Tree} {v : Visit}
    (hstage : ⟨place, t, .visit v⟩ ∈ c.stages) {c' : Compilation} {state : b.rule.State}
    {response : Response b.rule.State}
    (h : b.rule.respond ⟨c', place, t⟩ v state = .ok response) :
    ∀ d ∈ response.reports, ¬ GuardText d.message := by
  obtain ⟨-, hstep⟩ : c.trees[place]? = some t ∧ .visit v ∈ t.steps :=
    Compilation.mem_stages_iff.1 hstage
  obtain ⟨id, subject⟩ := v
  intro d hd
  cases b with
  | duplicateParameter =>
    cases subject with
    | functionDecl g => cases h; exact Tree.not_guardText_duplicateParameters hd
    | _ => cases h; cases hd
  | duplicateFunction =>
    cases subject with
    | moduleDecl m => cases h; exact Tree.not_guardText_duplicateFunctions hd
    | _ => cases h; cases hd
  | duplicateModule =>
    cases subject with
    | moduleDecl m =>
      cases h
      simp only at hd
      split at hd
      · rw [List.mem_singleton.1 hd]
        exact ProgramCheck.not_guardText (by simp [Tree.error]) (by simp [Tree.error])
      · cases hd
    | _ => cases h; cases hd
  | functionBody =>
    cases subject with
    | functionDecl g => cases h; exact Tree.not_guardText_bodyErrors hd
    | _ => cases h; cases hd
  | importResolution =>
    cases subject with
    | program p => cases h; exact Tree.not_guardText_importsReports hd
    | _ => cases h; cases hd
  | callVisibility =>
    cases subject with
    | functionDecl g =>
      simp only [rule, Rule.callVisibility] at h
      cases hm : t.moduleNameAbove? id with
      | none => simp [hm] at h
      | some m =>
        simp only [hm] at h
        cases h
        cases hd
    | expression e =>
      obtain ⟨m, -, -, -, -, hcaller⟩ := exists_moduleNameAbove hstage
      cases e with
      | call name arguments =>
        cases h
        simp only at hd
        split at hd
        · rw [List.mem_singleton.1 hd]
          exact ProgramCheck.not_guardText (by simp [Tree.error]) (by simp [Tree.error])
        · exact Tree.not_guardText_callErrors hcaller hd
      | _ => cases h; cases hd
    | _ => cases h; cases hd
  | valueType =>
    cases subject with
    | statement s =>
      cases s with
      | declaration name type initializer =>
        cases h
        exact Tree.not_guardText_declarationErrors (Tree.statement?_of_mem_steps hstep) hd
      | assignment name value => cases h; exact Tree.not_guardText_assignmentErrors hd
      | _ => cases h; cases hd
    | _ => cases h; cases hd

/-! ### Along an analysis -/

namespace Analyzer

variable {a : Analyzer} {c : Compilation}

/-- A reply of a log is one of a rule of the analyzer. -/
theorem exists_rule_of_mem_log {x : Reply} (h : x ∈ a.log c) :
    ∃ r ∈ a.rules, r.rule = x.rule.rule := by
  have hcalls := (Analysis.prefix_map_call_log ⟨a.rules, c, {}⟩ c.stages).subset
    (List.mem_map_of_mem (f := Reply.call) h)
  obtain ⟨s, -, hcall⟩ := List.mem_flatMap.1 hcalls
  obtain ⟨r, hr, heq⟩ := List.mem_map.1 hcall
  exact ⟨r, hr, congrArg Prod.fst heq⟩

/-- What is in the report of an analysis was reported by one of the replies. -/
theorem exists_reply_of_mem_report {result : Analysis} {d : Diagnostic}
    (h : a.analyze c = .ok result) (hd : d ∈ result.report.errors ++ result.report.warnings) :
    ∃ x ∈ a.log c, d ∈ x.reports := by
  have hreport : result.report = Report.ofList ((a.log c).flatMap Reply.reports) :=
    Analysis.report_follow h
  rw [hreport, Report.ofList] at hd
  refine List.mem_flatMap.1 ?_
  rcases List.mem_append.1 hd with hd | hd
  · exact List.mem_of_mem_filter hd
  · exact List.mem_of_mem_filter hd

end Analyzer

/-- **Where the rules are asked.** When a walk comes to a function, to a statement or to an
expression, in whatever tree, the module that is found above the node, by its number and as a
symbol, is the module that the walk is in, and the function that is found above a statement or an
expression is the function that it is in. Hence the built-in rules always answer, an analysis with
these only ends early at a node out of place, and none of them ever says that a call has no module
around it or that a declaration has no symbol. -/
theorem Analyzer.analyze_whereabouts (a : Analyzer) (c : Compilation) :
    (∀ (t : Tree) (before : List Step) (v : Visit) (behind : List Step),
      t.steps = before ++ .visit v :: behind →
      (v.subject.sort ∈ [.functionDecl, .statement, .expression] →
        ∃ mid m, (whereabouts before).module? = some mid ∧ t.module? mid = some m ∧
          t.enclosingModule? v.id = some mid ∧
          ∀ s : SymbolTable, s.tree = t →
            (s.containingModule v.id).1.map Entry.symbol = some ⟨m.name, .moduleSymbol, mid⟩) ∧
      (v.subject.sort ∈ [.statement, .expression] →
        ∃ fid g, (whereabouts before).function? = some fid ∧ t.function? fid = some g ∧
          t.enclosingFunction? v.id = some fid)) ∧
    (∀ s ∈ c.stages, ∀ b : Builtin, b.rule.Answers s) ∧
    ((∀ r ∈ a.rules, ∃ b : Builtin, r.rule = b.rule) →
      (∀ d, a.analyze c = .error d →
        (∃ t ∈ c.trees, .defect d ∈ t.steps ∧ ∃ s id, d = t.misplaced s id) ∧
          ∀ name, d ≠ .outsideModule name) ∧
      ∀ result, a.analyze c = .ok result →
        ∀ d ∈ result.report.errors ++ result.report.warnings, ¬ GuardText d.message) ∧
    ∀ x ∈ a.log c,
      c.trees[x.context.place]? = some x.context.tree ∧ .visit x.visit ∈ x.context.tree.steps ∧
        ((∃ b : Builtin, x.rule.rule = b.rule) → ∀ d ∈ x.reports, ¬ GuardText d.message) := by
  have hlog : ∀ x ∈ a.log c,
      c.trees[x.context.place]? = some x.context.tree ∧ .visit x.visit ∈ x.context.tree.steps ∧
        ((∃ b : Builtin, x.rule.rule = b.rule) → ∀ d ∈ x.reports, ¬ GuardText d.message) := by
    intro x hx
    obtain ⟨⟨rule, state⟩, ⟨c', place, t⟩, v, response⟩ := x
    obtain ⟨hvalid, hstage⟩ := Analysis.of_mem_log hx
    obtain ⟨htree, hstep⟩ : c.trees[place]? = some t ∧ Step.visit v ∈ t.steps :=
      Compilation.mem_stages_iff.1 hstage
    refine ⟨htree, hstep, ?_⟩
    rintro ⟨b, rfl⟩
    exact b.not_guardText hstage hvalid
  refine ⟨fun t before v behind h => ?_, fun s hs b => b.answers hs,
    fun hrules => ⟨fun d hd => ?_, fun result hresult d hd => ?_⟩, hlog⟩
  · have hvisited := Tree.visitedIn_of_steps_eq h
    refine ⟨fun hv => ?_, Tree.enclosingFunction?_of_visitedIn hvisited⟩
    obtain ⟨mid, m, hw, hm, habove⟩ := Tree.enclosingModule?_of_visitedIn hvisited hv
    refine ⟨mid, m, hw, hm, habove, ?_⟩
    rintro s rfl
    exact SymbolTable.containingModule_of_enclosing habove hm
  · have hanswers : ∀ x ∈ a.rules, ∀ s ∈ c.stages, x.rule.Answers s := by
      intro x hx s hs
      obtain ⟨b, hb⟩ := hrules x hx
      rw [hb]
      exact b.answers hs
    obtain ⟨⟨place, t, step⟩, hs, rfl⟩ := Analysis.exists_stage_of_follow_error hanswers hd
    obtain ⟨htree, hstep⟩ : c.trees[place]? = some t ∧ Step.defect d ∈ t.steps :=
      Compilation.mem_stages_iff.1 hs
    obtain ⟨s, id, rfl⟩ := Tree.eq_misplaced_of_mem_steps hstep
    exact ⟨⟨t, List.mem_of_getElem? htree, hstep, s, id, rfl⟩, t.misplaced_ne_outsideModule s id⟩
  · obtain ⟨x, hx, hdx⟩ := Analyzer.exists_reply_of_mem_report hresult hd
    obtain ⟨-, -, hunsaid⟩ := hlog x hx
    refine hunsaid ?_ d hdx
    obtain ⟨r, hr, hrule⟩ := Analyzer.exists_rule_of_mem_log hx
    exact hrule ▸ hrules r hr

/-- The module in the function of the other program is out of place. -/
theorem Tree.defect_mem_steps_nestedTree :
    Step.defect (Tree.nestedTree.misplaced .statement 3) ∈ Tree.nestedTree.steps := by
  decide +kernel

/-- The walk through the main program is in the module 4 and in its function 3 when it comes to the
call, and the tables say so. The walk through the program with a module in a function ends there, in
front of the inner module. -/
theorem Analyzer.analyze_whereabouts_nestedTree :
    mainTree.steps = mainSteps ++ .visit ⟨1, .expression (.call "twice" [])⟩ :: [] ∧
    whereabouts mainSteps = ⟨some 4, some 3⟩ ∧ mainTree.enclosingModule? 1 = some 4 ∧
    mainTree.enclosingFunction? 1 = some 3 ∧
    (((SymbolTable.ofTree mainTree).containingModule 1).1.map Entry.symbol =
      some ⟨"Main", .moduleSymbol, 4⟩) ∧
    ∃ d, (ofRegistry .builtin).analyze (.ofTrees [mainTree, Tree.nestedTree]) = .error d ∧
      ∀ name, d ≠ .outsideModule name := by
  have hsteps : mainTree.steps =
      mainSteps ++ .visit ⟨1, .expression (.call "twice" [])⟩ :: [] := steps_mainTree
  have hmodule : mainTree.module? 4 = some ⟨"Main", [3], []⟩ := by decide +kernel
  have hbuiltin : ∀ r ∈ (ofRegistry .builtin).rules, ∃ b : Builtin, r.rule = b.rule := by
    intro r hr
    obtain ⟨rule, hrule, rfl⟩ := List.mem_map.1 hr
    obtain ⟨b, -, rfl⟩ := List.mem_map.1 hrule
    exact ⟨b, rfl⟩
  obtain ⟨hwhere, -, hbuiltins, -⟩ :=
    analyze_whereabouts (ofRegistry .builtin) (.ofTrees [mainTree, Tree.nestedTree])
  obtain ⟨hmoduleAbove, hfunctionAbove⟩ := hwhere mainTree _ _ _ hsteps
  obtain ⟨mid, m, hmid, hm, habove, hsymbol⟩ := hmoduleAbove (by decide)
  obtain ⟨fid, g, hfid, -, hfunction⟩ := hfunctionAbove (by decide)
  refine ⟨hsteps, rfl, ?_, ?_, ?_, ?_⟩
  · rw [habove]
    exact hmid.symm
  · rw [hfunction]
    exact hfid.symm
  · obtain rfl : mid = 4 := (Option.some.inj hmid).symm
    obtain rfl := Option.some.inj (hm.symm.trans hmodule)
    exact hsymbol _ rfl
  · cases hresult : (ofRegistry .builtin).analyze (.ofTrees [mainTree, Tree.nestedTree]) with
    | error d => exact ⟨d, rfl, ((hbuiltins hbuiltin).1 d hresult).2⟩
    | ok result =>
      have hstage :
          ⟨1, Tree.nestedTree, .defect (Tree.nestedTree.misplaced .statement 3)⟩ ∈
            (Compilation.ofTrees [mainTree, Tree.nestedTree]).stages :=
        Compilation.mem_stages_iff.2 ⟨rfl, Tree.defect_mem_steps_nestedTree⟩
      obtain ⟨v, hv⟩ := Analysis.exists_visit_of_follow hresult hstage
      cases hv

end ProgramCheck
