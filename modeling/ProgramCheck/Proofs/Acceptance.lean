import ProgramCheck.Proofs.ModulePrivacy

/-!
# Accepted programs

The programs that the check finds no error in, described by what they declare. The check of any
well-kinded trees with the built-in rules comes to its end, and it has no errors exactly if the
trees are accepted in this sense.
-/

namespace ProgramCheck

/-- What some trees have to satisfy to be accepted. -/
structure Accepted (trees : List Tree) : Prop where
  /-- The parameters of a function have distinct names. -/
  parameters : ∀ g ∈ declaredFunctions trees,
    ((g.node.parameters.filterMap g.tree.parameter?).map Parameter.name).Nodup
  /-- The functions of a module have distinct names. -/
  functions : ∀ m ∈ declaredModules trees, ((m.tree.functionsOf m.node).map (·.2.name)).Nodup
  /-- The modules of all trees have distinct names in lower case. -/
  modules : ((declaredModules trees).map fun m => lowercase m.node.name).Nodup
  /-- Every call is of a function declared before it or of the calling function, and the last of
  these is in a module of the caller's name, or exported and imported. -/
  calls : ∀ before g after, declaredFunctions trees = before ++ g :: after → CallsResolve before g
  /-- Exactly the functions that are not external have a body. -/
  bodies : ∀ g ∈ declaredFunctions trees,
    (g.node.body.isSome = true ↔ g.node.modifiers.external = false)
  /-- Every import names a module, in lower case. -/
  imports : ∀ t ∈ trees, ∀ i ∈ t.program.imports.filterMap t.import?,
    ∃ m ∈ declaredModules trees, lowercase m.node.name = lowercase i.moduleName
  /-- The bodies are well typed behind the parameters. -/
  types : ∀ g ∈ declaredFunctions trees,
    g.tree.WellTyped (.ofParameters (g.node.parameters.filterMap g.tree.parameter?))
      (g.node.body.getD [])

theorem hasErrors_eq_false_iff (c : Compilation) :
    c.hasErrors = false ↔ c.report.errors = [] := by
  simp [Compilation.hasErrors]

/-- The built-in rules accept every stage of the walk through accepted trees. -/
theorem forall_along_accepts_iff {c : Compilation} (h : ∀ t ∈ c.trees, t.WellKinded) :
    (∀ b ∈ Builtin.all, Along (b.Accepts c.trees) [] c.stages) ↔ Accepted c.trees := by
  constructor
  · intro hall
    have hrule : ∀ b : Builtin, Along (b.Accepts c.trees) [] c.stages :=
      fun b => hall b b.mem_all
    exact {
      parameters := (Builtin.along_duplicateParameter_iff c).1 (hrule _)
      functions := (Builtin.along_duplicateFunction_iff c).1 (hrule _)
      modules := (Builtin.along_duplicateModule_iff c).1 (hrule _)
      calls := along_iff.1 ((Builtin.along_callVisibility_iff c h).1 (hrule _))
      bodies := (Builtin.along_functionBody_iff c).1 (hrule _)
      imports := (Builtin.along_importResolution_iff c h).1 (hrule _)
      types := (Builtin.along_valueType_iff c h).1 (hrule _) }
  · intro haccepted b _
    cases b with
    | duplicateParameter => exact (Builtin.along_duplicateParameter_iff c).2 haccepted.parameters
    | duplicateFunction => exact (Builtin.along_duplicateFunction_iff c).2 haccepted.functions
    | duplicateModule => exact (Builtin.along_duplicateModule_iff c).2 haccepted.modules
    | callVisibility =>
      exact (Builtin.along_callVisibility_iff c h).2 (along_iff.2 haccepted.calls)
    | functionBody => exact (Builtin.along_functionBody_iff c).2 haccepted.bodies
    | importResolution => exact (Builtin.along_importResolution_iff c h).2 haccepted.imports
    | valueType => exact (Builtin.along_valueType_iff c h).2 haccepted.types

/-- **The check is sound and complete**: on well-kinded trees it comes to its end, and it finds no
error exactly if the trees are accepted. -/
theorem check_hasErrors_iff {trees : List Tree} (h : ∀ t ∈ trees, t.WellKinded) :
    ∃ c, Compilation.check trees = .ok c ∧ (c.hasErrors = false ↔ Accepted trees) := by
  have htrees := Compilation.trees_ofTrees trees
  have hvisits : AllVisits (Compilation.ofTrees trees).stages :=
    allVisits_of_wellKinded (htrees.symm ▸ h)
  obtain ⟨a, ha, hreport, -⟩ := Analyzer.analyze_builtin Builtin.all hvisits
  refine ⟨{ a.compilation with report := a.report }, ?_, ?_⟩
  · have hrun : (Analyzer.ofRegistry .builtin).analyze (.ofTrees trees) = .ok a := ha
    rw [Compilation.check, Compilation.analyzed, hrun]
    rfl
  · have haccepted := forall_along_accepts_iff (htrees.symm ▸ h)
    rw [htrees] at haccepted hreport
    rw [hasErrors_eq_false_iff]
    change a.report.errors = [] ↔ _
    rw [hreport, Report.errors_ofList_eq_nil_iff, noErrors_flatMap_iff,
      noErrors_findings_iff hvisits, haccepted]

/-- The library and the program that uses it are accepted. -/
theorem accepted_library_main :
    (∀ t ∈ [libraryTree, mainTree], t.WellKinded) ∧ Accepted [libraryTree, mainTree] := by
  have hkinded : ∀ t ∈ [libraryTree, mainTree], t.WellKinded := by decide +kernel
  obtain ⟨c, hc, haccepted⟩ := check_hasErrors_iff hkinded
  have herrors : (Compilation.check [libraryTree, mainTree]).toOption.map Compilation.hasErrors =
      some false := by
    decide +kernel
  rw [hc] at herrors
  exact ⟨hkinded, haccepted.1 (Option.some.inj herrors)⟩

end ProgramCheck
