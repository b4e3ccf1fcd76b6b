import ProgramCheck.Proofs.ImportFaults
import ProgramCheck.Proofs.Independence
import ProgramCheck.Proofs.Matching

/-!
# Reports on matching trees

On matching trees the built-in rules report the same, diagnostic by diagnostic, but for the
positions of the nodes: a rule looks at nodes outside of structs, at their numbers only to find
others, and at their positions only to report there. Lists of trees that match each other one by one, and that
declare modules of the same names, are checked with the same results.
-/

namespace ProgramCheck

/-! ### Similar reports -/

/-- Whether two diagnostics say the same, at related positions. -/
structure Diagnostic.Similar (P : Position → Position → Prop) (d d' : Diagnostic) : Prop where
  severity : d'.severity = d.severity
  message : d'.message = d.message
  position : P d.position d'.position

/-- Whether two reports hold similar diagnostics, one by one. -/
structure Report.Similar (P : Position → Position → Prop) (r r' : Report) : Prop where
  errors : List.Forall₂ (Diagnostic.Similar P) r.errors r'.errors
  warnings : List.Forall₂ (Diagnostic.Similar P) r.warnings r'.warnings

section Similar

variable {P : Position → Position → Prop}

theorem Diagnostic.Similar.eq {d d' : Diagnostic} (h : d.Similar Eq d') : d = d' := by
  obtain ⟨severity, position, message⟩ := d
  obtain ⟨rfl, rfl, rfl⟩ := h
  rfl

theorem Report.Similar.eq {r r' : Report} (h : r.Similar Eq r') : r = r' := by
  have heq : ∀ {ds ds' : List Diagnostic}, List.Forall₂ (Diagnostic.Similar Eq) ds ds' → ds = ds' :=
    fun hds => List.forall₂_eq_eq_eq ▸ hds.imp fun _ _ => Diagnostic.Similar.eq
  obtain ⟨errors, warnings⟩ := r
  obtain ⟨errors', warnings'⟩ := r'
  exact congrArg₂ Report.mk (heq h.errors) (heq h.warnings)

theorem Report.similar_ofList {ds ds' : List Diagnostic}
    (h : List.Forall₂ (Diagnostic.Similar P) ds ds') : (ofList ds).Similar P (ofList ds') where
  errors := List.rel_filter (fun d d' hd => by simp [Diagnostic.isError, hd.severity]) h
  warnings := List.rel_filter (fun d d' hd => by simp [Diagnostic.isError, hd.severity]) h

theorem Report.Similar.promoteWarnings {r r' : Report} (h : r.Similar P r') :
    r.promoteWarnings.Similar P r'.promoteWarnings where
  errors := by
    refine List.rel_append h.errors (List.rel_map ?_ h.warnings)
    exact fun d d' hd => ⟨rfl, hd.message, hd.position⟩
  warnings := .nil

end Similar

/-- Repeated keys are found behind a map that keeps the keys. -/
theorem secondOccurrencesFrom_map {α β : Type} (g : α → β) (key : β → String)
    (before : List String) (as : List α) :
    secondOccurrencesFrom key before (as.map g) =
      (secondOccurrencesFrom (key ∘ g) before as).map g := by
  induction as generalizing before with
  | nil => rfl
  | cons a as ih =>
    simp only [List.map_cons, secondOccurrencesFrom, ih, Function.comp_apply]
    split <;> rfl

theorem secondOccurrencesFrom_sublist {α : Type} (key : α → String) (before : List String)
    (as : List α) : (secondOccurrencesFrom key before as).Sublist as := by
  induction as generalizing before with
  | nil => exact List.Sublist.refl _
  | cons a as ih =>
    rw [secondOccurrencesFrom]
    split
    · exact (ih _).cons_cons a
    · exact (ih _).cons a

/-- What is visited at a node and what is visited in its place under other numbers, where modules
may have other structs. -/
inductive Visit.Renumbers (t : Tree) (σ : NodeId → NodeId) (id : NodeId) : Visit → Visit → Prop
  | program {p : Program} (hp : t.kind? id = some (.program p)) :
    Renumbers t σ id ⟨id, .program p⟩ ⟨σ id, .program (p.renumber σ)⟩
  | moduleDecl {m m' : Module} (hm : t.kind? id = some (.moduleDecl m)) (hname : m'.name = m.name)
    (hfunctions : m'.functions = m.functions.map σ) :
    Renumbers t σ id ⟨id, .moduleDecl m⟩ ⟨σ id, .moduleDecl m'⟩
  | functionDecl {g : Function} (hg : t.kind? id = some (.functionDecl g)) :
    Renumbers t σ id ⟨id, .functionDecl g⟩ ⟨σ id, .functionDecl (g.renumber σ)⟩
  | statement {s : Statement} (hs : t.kind? id = some (.statement s)) :
    Renumbers t σ id ⟨id, .statement s⟩ ⟨σ id, .statement (s.renumber σ)⟩
  | expression {e : Expression} (he : t.kind? id = some (.expression e)) :
    Renumbers t σ id ⟨id, .expression e⟩ ⟨σ id, .expression (e.renumber σ)⟩

namespace Matching

variable {P : Position → Position → Prop} {t t' : Tree} {σ : NodeId → NodeId} {id : NodeId}
  (r : Matching P t t' σ)
include r

/-! ### What is reported at a node -/

theorem error (hid : t.OutsideStructs id) (message : String) :
    (t.error id message).Similar P (t'.error (σ id) message) :=
  ⟨rfl, rfl, r.position id hid⟩

theorem warning (hid : t.OutsideStructs id) (message : String) :
    (t.warning id message).Similar P (t'.warning (σ id) message) :=
  ⟨rfl, rfl, r.position id hid⟩

theorem duplicateParameters (hid : t.OutsideStructs id) {g : Function}
    (hg : t.kind? id = some (.functionDecl g)) :
    List.Forall₂ (Diagnostic.Similar P) (t.duplicateParameters id g)
      (t'.duplicateParameters (σ id) (g.renumber σ)) := by
  have hparameters : (g.renumber σ).parameters.filterMap t'.parameter? =
      g.parameters.filterMap t.parameter? := by
    rw [Function.renumber, List.filterMap_map]
    refine List.filterMap_congr fun p hp => r.parameter? (hid.part ?_)
    rw [Forest.plainParts_of_kind? hg]
    exact List.mem_append_left _ hp
  rw [Tree.duplicateParameters, Tree.duplicateParameters, hparameters, List.forall₂_map_left_iff,
    List.forall₂_map_right_iff]
  exact List.forall₂_same.2 fun p _ => r.error hid _

theorem duplicateFunctions (hid : t.OutsideStructs id) {m m' : Module}
    (hm : t.kind? id = some (.moduleDecl m)) (hname : m'.name = m.name)
    (hfunctions : m'.functions = m.functions.map σ) :
    List.Forall₂ (Diagnostic.Similar P) (t.duplicateFunctions m) (t'.duplicateFunctions m') := by
  have houtside : ∀ fid ∈ m.functions, t.OutsideStructs fid := fun fid hfid => hid.part <| by
    rw [Forest.plainParts_of_kind? hm]
    exact List.mem_append_left _ hfid
  have hlist : t'.functionsOf m' = (t.functionsOf m).map fun g => (σ g.1, g.2.renumber σ) := by
    rw [Tree.functionsOf, Tree.functionsOf, hfunctions, List.map_filterMap, List.filterMap_map]
    refine List.filterMap_congr fun fid hfid => ?_
    rw [Function.comp_apply, r.function? (houtside fid hfid), Option.map_map, Option.map_map]
    rfl
  rw [Tree.duplicateFunctions, Tree.duplicateFunctions, hlist, secondOccurrences,
    secondOccurrences, secondOccurrencesFrom_map, List.map_map, List.forall₂_map_left_iff,
    List.forall₂_map_right_iff, hname]
  refine List.forall₂_same.2 fun g hg => r.error (houtside g.1 ?_) _
  obtain ⟨fid, hfid, heq⟩ := List.mem_filterMap.1 ((secondOccurrencesFrom_sublist _ _ _).subset hg)
  obtain ⟨-, -, rfl⟩ := Option.map_eq_some_iff.1 heq
  exact hfid

theorem bodyErrors (hid : t.OutsideStructs id) (g : Function) :
    List.Forall₂ (Diagnostic.Similar P) (t.bodyErrors id g)
      (t'.bodyErrors (σ id) (g.renumber σ)) := by
  obtain ⟨name, returnType, ⟨exported, external⟩, parameters, body⟩ := g
  cases external <;> cases body
  · exact .cons (r.error hid _) .nil
  · exact .nil
  · exact .nil
  · exact .cons (r.error hid _) .nil

theorem importsReports {known known' : List String}
    (hknown : ∀ name, lowercase name ∈ known' ↔ lowercase name ∈ known) (before : List String)
    {ids : List NodeId} (hids : ∀ x ∈ ids, t.OutsideStructs x) :
    List.Forall₂ (Diagnostic.Similar P) (t.importsReports known before ids)
      (t'.importsReports known' before (ids.map σ)) := by
  induction ids generalizing before with
  | nil => exact .nil
  | cons id ids ih =>
    obtain ⟨hid, hids⟩ := List.forall_mem_cons.1 hids
    rw [List.map_cons, Tree.importsReports, Tree.importsReports, r.import? hid]
    cases t.import? id with
    | none => exact ih before hids
    | some i =>
      refine List.rel_append (List.rel_append ?_ ?_) (ih _ hids)
      · split
        · exact .cons (r.warning hid _) .nil
        · exact .nil
      · simp only [hknown]
        split
        · exact .nil
        · exact .cons (r.error hid _) .nil

theorem mismatch? (hid : t.OutsideStructs id) (expected : TypeRef) :
    t'.mismatch? (σ id) expected = t.mismatch? id expected := by
  rw [Tree.mismatch?, Tree.mismatch?, r.expression? hid]
  cases t.expression? id with
  | none => rfl
  | some e => cases e <;> rfl

theorem declarationErrors (hid : t.OutsideStructs id) (name : String) {initializer : NodeId}
    (hinitializer : t.OutsideStructs initializer) :
    List.Forall₂ (Diagnostic.Similar P) (t.declarationErrors id name initializer)
      (t'.declarationErrors (σ id) name (σ initializer)) := by
  rw [Tree.declarationErrors, Tree.declarationErrors, r.symbol? hid]
  cases t.symbol? id with
  | none => exact .cons (r.error hid _) .nil
  | some s =>
    obtain ⟨declared, detail, declaration⟩ := s
    cases detail with
    | localVariable type =>
      simp only [Option.map_some, Symbol.renumber, r.mismatch? hinitializer]
      cases t.mismatch? initializer type with
      | none => exact .nil
      | some actual => exact .cons (r.error hid _) .nil
    | _ => exact .cons (r.error hid _) .nil

theorem assignmentErrors (hid : t.OutsideStructs id) (name : String) {value : NodeId}
    (hvalue : t.OutsideStructs value) :
    List.Forall₂ (Diagnostic.Similar P) (t.assignmentErrors id name value)
      (t'.assignmentErrors (σ id) name (σ value)) := by
  rw [Tree.assignmentErrors, Tree.assignmentErrors, r.visibleType? hid]
  cases t.visibleType? id name with
  | none => exact .cons (r.error hid _) .nil
  | some type =>
    simp only [r.mismatch? hvalue]
    cases t.mismatch? value type with
    | none => exact .nil
    | some actual => exact .cons (r.error hid _) .nil

theorem valueReports (hid : t.OutsideStructs id) {s : Statement}
    (hs : t.kind? id = some (.statement s)) :
    List.Forall₂ (Diagnostic.Similar P) (t.valueReports ⟨id, .statement s⟩)
      (t'.valueReports ⟨σ id, .statement (s.renumber σ)⟩) := by
  have hoperand : ∀ x ∈ s.operands, t.OutsideStructs x := fun x hx => hid.part <| by
    rw [Forest.plainParts_of_kind? hs]
    exact List.mem_append_left _ hx
  cases s with
  | declaration name type initializer =>
    exact r.declarationErrors hid name (hoperand initializer List.mem_cons_self)
  | assignment name value =>
    exact r.assignmentErrors hid name (hoperand value List.mem_cons_self)
  | _ => exact .nil

theorem importsModule (name : String) : t'.importsModule name = t.importsModule name := by
  rw [Tree.importsModule, Tree.importsModule, r.program, Program.renumber, List.filterMap_map]
  exact congrArg (List.any · _)
    (List.filterMap_congr fun i hi => r.import? (.of_import hi))

theorem callErrors (hid : t.OutsideStructs id) (name : String) (origin : Origin) :
    List.Forall₂ (Diagnostic.Similar P) (t.callErrors id name origin)
      (t'.callErrors (σ id) name origin) := by
  rw [Tree.callErrors, Tree.callErrors, r.moduleNameAbove? hid, r.importsModule]
  cases t.moduleNameAbove? id with
  | none => exact .cons (r.error hid _) .nil
  | some caller =>
    dsimp only
    split
    · exact .nil
    · refine List.rel_append ?_ ?_
      · split
        · exact .nil
        · exact .cons (r.error hid _) .nil
      · split
        · exact .nil
        · exact .cons (r.error hid _) .nil

theorem visits (hid : t.OutsideStructs id) {v v' : Visit} (hv : t.visit? id = some v)
    (hv' : t'.visit? (σ id) = some v') : Visit.Renumbers t σ id v v' := by
  obtain ⟨x, hx, rfl⟩ := Option.map_eq_some_iff.1 hv
  obtain ⟨x', hx', rfl⟩ := Option.map_eq_some_iff.1 hv'
  obtain ⟨k, hk, hx⟩ := Option.bind_eq_some_iff.1 hx
  rcases r.kind? hid with hkind | ⟨m, m', hm, hm', hname, hfunctions⟩
  · rw [hkind, hk, Option.map_some, Option.bind_some] at hx'
    cases k with
    | importDecl | structDecl | fieldDecl | parameterDecl => cases hx
    | program p => cases hx; cases hx'; exact .program hk
    | moduleDecl m => cases hx; cases hx'; exact .moduleDecl hk rfl rfl
    | functionDecl g => cases hx; cases hx'; exact .functionDecl hk
    | statement s => cases hx; cases hx'; exact .statement hk
    | expression e => cases hx; cases hx'; exact .expression hk
  · rw [hm', Option.bind_some] at hx'
    obtain rfl := Option.some.inj (hm.symm.trans hk)
    cases hx
    cases hx'
    exact .moduleDecl hm hname hfunctions

end Matching

/-! ### What is reported along a walk -/

/-- Whether the rules that remember anything remember the same behind two histories. -/
structure SameLearned (history history' : List Stage) : Prop where
  moduleKeys : Builtin.moduleKeys history' = Builtin.moduleKeys history
  origins : Builtin.origins history' = Builtin.origins history

section Walk

variable {P : Position → Position → Prop} {history history' stages stages' : List Stage}

theorem Stage.Lockstep.moduleKey {s s' : Stage} (hs : s.Lockstep (Tree.Matched P) s') :
    (s'.module?.map fun m => lowercase m.node.name) =
      s.module?.map fun m => lowercase m.node.name := by
  obtain @⟨place, t, t', v, v', ⟨σ, r, hid, hid'⟩, hv, hv'⟩ := hs
  have hvisits := r.visits hid hv (hid' ▸ hv')
  generalize v.id = id at hid hvisits
  cases hvisits with
  | moduleDecl hm hname hfunctions => exact congrArg (fun name => some (lowercase name)) hname
  | _ => rfl

theorem Stage.Lockstep.entry {s s' : Stage} (hs : s.Lockstep (Tree.Matched P) s') :
    s'.function?.bind Visited.entry? = s.function?.bind Visited.entry? := by
  obtain @⟨place, t, t', v, v', ⟨σ, r, hid, hid'⟩, hv, hv'⟩ := hs
  have hvisits := r.visits hid hv (hid' ▸ hv')
  generalize v.id = id at hid hvisits
  cases hvisits with
  | functionDecl hg =>
    simp only [Stage.function?, Option.bind_some, Visited.entry?, Visited.origin?,
      Visited.moduleName?, r.moduleNameAbove? hid]
    rfl
  | _ => rfl

/-- What is learned at stages in lockstep is the same. -/
theorem SameLearned.concat {s s' : Stage} (h : SameLearned history history')
    (hs : s.Lockstep (Tree.Matched P) s') :
    SameLearned (history ++ [s]) (history' ++ [s']) where
  moduleKeys := by
    rw [Builtin.moduleKeys_concat, Builtin.moduleKeys_concat, h.moduleKeys, hs.moduleKey]
  origins := by
    rw [Builtin.origins_concat, Builtin.origins_concat, h.origins, hs.entry]

namespace Builtin

variable {trees trees' : List Tree} {t t' : Tree} {v v' : Visit}

theorem moduleReports_matched {σ : NodeId → NodeId} (r : Matching P t t' σ) {id : NodeId}
    (hid : t.OutsideStructs id) (h : SameLearned history history') {m m' : Module}
    (hname : m'.name = m.name) :
    List.Forall₂ (Diagnostic.Similar P) (moduleReports history t id m)
      (moduleReports history' t' (σ id) m') := by
  simp only [moduleReports, ← mem_moduleKeys_iff, h.moduleKeys, hname]
  split
  · exact .cons (r.error hid _) .nil
  · exact .nil

theorem callReports_matched {σ : NodeId → NodeId} (r : Matching P t t' σ) {id : NodeId}
    (hid : t.OutsideStructs id) (h : SameLearned history history') (hhoused : Housed history)
    (hhoused' : Housed history') (name : String) :
    List.Forall₂ (Diagnostic.Similar P) (callReports history t id name)
      (callReports history' t' (σ id) name) := by
  simp only [callReports, ← lookup_origins hhoused, ← lookup_origins hhoused', h.origins]
  cases (origins history).lookup name with
  | none => exact .cons (r.error hid _) .nil
  | some origin => exact r.callErrors hid name origin

/-- **A rule reports the same on matching trees**, but for the positions. -/
theorem reports_matched (b : Builtin) (hv : t.visit? v.id = some v)
    (hv' : t'.visit? v'.id = some v')
    (hmatched : t.Matched P t' v.id v'.id)
    (hresolves : ∀ name, Resolves trees' name ↔ Resolves trees name)
    (h : SameLearned history history') (hhoused : Housed history) (hhoused' : Housed history') :
    List.Forall₂ (Diagnostic.Similar P) (b.reports trees history t v)
      (b.reports trees' history' t' v') := by
  obtain ⟨σ, r, hid, hid'⟩ := hmatched
  have hvisits := r.visits hid hv (hid' ▸ hv')
  generalize v.id = id at hid hvisits
  cases hvisits with
  | program hp =>
    cases b with
    | importResolution =>
      refine r.importsReports (fun name => ?_) [] fun x hx => hid.part ?_
      · rw [mem_lowercase_moduleNames_iff, mem_lowercase_moduleNames_iff, hresolves]
      · rw [Forest.plainParts_of_kind? hp]
        exact List.mem_append_left _ hx
    | _ => exact .nil
  | moduleDecl hm hname hfunctions =>
    cases b with
    | duplicateFunction => exact r.duplicateFunctions hid hm hname hfunctions
    | duplicateModule => exact moduleReports_matched r hid h hname
    | _ => exact .nil
  | functionDecl hg =>
    cases b with
    | duplicateParameter => exact r.duplicateParameters hid hg
    | functionBody => exact r.bodyErrors hid _
    | _ => exact .nil
  | statement hs =>
    cases b with
    | valueType => exact r.valueReports hid hs
    | _ => exact .nil
  | @expression e he =>
    cases b with
    | callVisibility =>
      cases e with
      | call name arguments => exact callReports_matched r hid h hhoused hhoused' name
      | _ => exact .nil
    | _ => exact .nil

end Builtin

/-- Along walks in lockstep the rules report the same but for the positions. -/
theorem reports_findings_of_lockstep (bs : List Builtin) {trees trees' : List Tree}
    (hresolves : ∀ name, Resolves trees' name ↔ Resolves trees name)
    (hstages : List.Forall₂ (Stage.Lockstep (Tree.Matched P)) stages stages')
    (h : SameLearned history history') (hhoused : Housed (history ++ stages))
    (hhoused' : Housed (history' ++ stages')) :
    List.Forall₂ (Diagnostic.Similar P)
      ((findings bs trees history stages).flatMap Finding.reports)
      ((findings bs trees' history' stages').flatMap Finding.reports) := by
  induction hstages generalizing history history' with
  | nil => exact .nil
  | @cons s s' stages stages' hs _ ih =>
    have hnext := h.concat hs
    rw [← List.singleton_append, ← List.append_assoc] at hhoused hhoused'
    have hhere := (housed_append_iff.1 (housed_append_iff.1 hhoused).1).1
    have hhere' := (housed_append_iff.1 (housed_append_iff.1 hhoused').1).1
    obtain ⟨place, hmatched, hv, hv'⟩ := hs
    rw [findings, findings, List.flatMap_append, List.flatMap_append]
    refine List.rel_append ?_ (ih hnext hhoused hhoused')
    rw [findingsAt, findingsAt, List.flatMap_map, List.flatMap_map]
    refine List.rel_flatten (List.rel_map ?_ (List.forall₂_same.2 fun b _ => (rfl : b = b)))
    rintro b _ rfl
    exact b.reports_matched hv hv' hmatched hresolves h hhere hhere'

end Walk

/-! ### A whole check -/

/-- An analysis does not come to its end if it meets a node out of place. -/
theorem exists_error_of_not_allVisits (a : Analyzer) {c : Compilation} (h : ¬ AllVisits c.stages) :
    ∃ d, a.analyze c = .error d := by
  cases hresult : a.analyze c with
  | error d => exact ⟨d, rfl⟩
  | ok result => exact absurd (allVisits_of_analyze hresult) h

namespace Compilation

variable {P : Position → Position → Prop} {trees trees' : List Tree}

/-- Built-in rules come to the same end on lists of trees that match one by one and that declare
modules of the same names: if one check comes to its end, so does the other, with a similar
report. -/
theorem analyze_of_matching (bs : List Builtin)
    (hmatch : List.Forall₂ (fun t t' => ∃ σ, Matching P t t' σ) trees trees')
    (hresolves : ∀ name, Resolves trees' name ↔ Resolves trees name) :
    (∃ d d', (Analyzer.ofBuiltin bs).analyze (ofTrees trees) = .error d ∧
        (Analyzer.ofBuiltin bs).analyze (ofTrees trees') = .error d') ∨
      ∃ a a', (Analyzer.ofBuiltin bs).analyze (ofTrees trees) = .ok a ∧
        (Analyzer.ofBuiltin bs).analyze (ofTrees trees') = .ok a' ∧
        a.report.Similar P a'.report := by
  have hlockstep : List.Forall₂ (fun t t' => t.Lockstep (Tree.Matched P t t') t')
      (ofTrees trees).trees (ofTrees trees').trees := by
    rw [trees_ofTrees, trees_ofTrees]
    exact hmatch.imp fun t t' ⟨σ, r⟩ => r.lockstep
  by_cases hvisits : AllVisits (ofTrees trees).stages
  · right
    have hvisits' := (allVisits_iff_of_lockstep hlockstep).1 hvisits
    obtain ⟨a, ha, hreport, -⟩ := Analyzer.analyze_builtin bs hvisits
    obtain ⟨a', ha', hreport', -⟩ := Analyzer.analyze_builtin bs hvisits'
    refine ⟨a, a', ha, ha', ?_⟩
    rw [hreport, hreport', trees_ofTrees, trees_ofTrees]
    exact Report.similar_ofList (reports_findings_of_lockstep bs hresolves
      (forall₂_stages_of_lockstep hlockstep hvisits) ⟨rfl, rfl⟩ (ofTrees trees).housed_stages
      (ofTrees trees').housed_stages)
  · left
    obtain ⟨d, hd⟩ := exists_error_of_not_allVisits (Analyzer.ofBuiltin bs) hvisits
    obtain ⟨d', hd'⟩ := exists_error_of_not_allVisits (Analyzer.ofBuiltin bs)
      (mt (allVisits_iff_of_lockstep hlockstep).2 hvisits)
    exact ⟨d, d', hd, hd'⟩

/-- So do compilations of such trees under a configuration. -/
theorem withConfig_of_matching {bs : List Builtin} {config : Config} {analyzer : Analyzer}
    (hconfig : Analyzer.withConfig (bs.map (·.rule)) config = .ok analyzer)
    (hmatch : List.Forall₂ (fun t t' => ∃ σ, Matching P t t' σ) trees trees')
    (hresolves : ∀ name, Resolves trees' name ↔ Resolves trees name) :
    (∃ d d', withConfig trees (bs.map (·.rule)) config = .ok (.error d) ∧
        withConfig trees' (bs.map (·.rule)) config = .ok (.error d')) ∨
      ∃ c c', withConfig trees (bs.map (·.rule)) config = .ok (.ok c) ∧
        withConfig trees' (bs.map (·.rule)) config = .ok (.ok c') ∧
        c.report.Similar P c'.report := by
  simp only [withConfig_of_ok hconfig]
  obtain ⟨-, rfl⟩ := Analyzer.withConfig_eq_ok_iff.1 hconfig
  rcases analyze_of_matching (config.kept bs) hmatch hresolves with
    ⟨d, d', hd, hd'⟩ | ⟨a, a', ha, ha', hreport⟩
  · left
    exact ⟨d, d', by rw [analyzed, hd], by rw [analyzed, hd']⟩
  · right
    simp only [analyzed, ha, ha']
    refine ⟨_, _, rfl, rfl, ?_⟩
    split
    · exact hreport.promoteWarnings
    · exact hreport

end Compilation

end ProgramCheck
