import ProgramCheck.Proofs.RuleConditions

/-!
# Module privacy

Calls are checked by the names of modules, and names are compared as they are written. Where the
rules report neither a module whose name is taken nor a call, this is enough to keep the functions
of a module to itself: a function is only ever called from the very module that lists it, or it is
exported and its module is imported by the program of the call.
-/

namespace ProgramCheck

/-- Where lower case names are distinct, modules of one name are one module. -/
theorem eq_of_moduleName_eq {trees : List Tree} {m m' : Visited Module}
    (h : ((declaredModules trees).map fun m => lowercase m.node.name).Nodup)
    (hm : m ∈ declaredModules trees) (hm' : m' ∈ declaredModules trees)
    (hname : m.node.name = m'.node.name) : m = m' :=
  List.inj_on_of_nodup_map h hm hm' (congrArg lowercase hname)

/-- **Module privacy**: if a check with the built-in rules meets no node out of place, and its log
holds no error about duplicate modules and none about calls, then every visited call has a function
of its name visited before it, and of these the latest is part of the module that encloses the call,
or it is exported and the program of the call imports its module. -/
theorem own_module_or_exported {trees : List Tree} {a : Analysis}
    (hrun : (Analyzer.ofRegistry .builtin).analyze (.ofTrees trees) = .ok a)
    (hmodules :
      Builtin.duplicateModule.ErrorFree ((Analyzer.ofRegistry .builtin).log (.ofTrees trees)))
    (hcalls :
      Builtin.callVisibility.ErrorFree ((Analyzer.ofRegistry .builtin).log (.ofTrees trees)))
    {before after : List Stage} {place : Nat} {t : Tree} {id : NodeId} {name : String}
    {arguments : List NodeId}
    (hstages : (Compilation.ofTrees trees).stages =
      before ++ ⟨place, t, .visit ⟨id, .expression (.call name arguments)⟩⟩ :: after) :
    ∃ g, latest? (visitedFunctions before) name = some g ∧
      ((g.place = place ∧ g.tree = t ∧ ∃ m, t.enclosingModule? id = some m ∧ g.id ∈ t.children m) ∨
        (g.node.modifiers.exported = true ∧ ∃ m, g.moduleName? = some m ∧ t.Imports m)) := by
  have hvisits := allVisits_of_analyze hrun
  have hnodup := (Builtin.along_duplicateModule_iff _).1
    ((Analyzer.errorFree_log_iff hvisits (Builtin.mem_all _)).1 hmodules)
  have haccepts := along_iff.1
    ((Analyzer.errorFree_log_iff hvisits (Builtin.mem_all _)).1 hcalls) before _ after hstages
  -- the module above the call, and the function that the call finds
  have hcall : ⟨place, t, .visit ⟨id, .expression (.call name arguments)⟩⟩ ∈
      (Compilation.ofTrees trees).stages := by
    rw [hstages]
    exact List.mem_append_right _ List.mem_cons_self
  obtain ⟨m, hm, rfl, rfl, habove, hcaller⟩ := exists_moduleNameAbove hcall
  obtain ⟨g, hlatest, hmay⟩ :=
    (Builtin.noErrors_callReports_iff hcaller).1 (haccepts _ rfl)
  refine ⟨g, hlatest, ?_⟩
  -- the module that lists this function
  have hg : g ∈ declaredFunctions (Compilation.ofTrees trees).trees := by
    rw [← Compilation.visitedFunctions_stages, hstages, visitedFunctions, List.filterMap_append]
    exact List.mem_append_left _ (mem_of_latest? hlatest)
  obtain ⟨m', hm', hg⟩ := mem_declaredFunctions_iff.1 hg
  obtain ⟨origin, horigin, hsame | ⟨hexported, himports⟩⟩ := hmay
  · left
    have hname : m'.node.name = m.node.name := by
      rw [Visited.moduleName?_of_mem hm' hg] at horigin
      exact (Option.some.inj horigin).trans hsame
    obtain rfl := eq_of_moduleName_eq hnodup hm' hm hname
    obtain ⟨hplace, htree, hid, -⟩ := Visited.mem_functions_iff.1 hg
    obtain ⟨-, -, hnode⟩ := mem_declaredModules_iff.1 hm'
    exact ⟨hplace, htree, m'.id, habove, Tree.mem_children_of_function hnode hid⟩
  · exact Or.inr ⟨hexported, origin, horigin, himports⟩

/-- The call of an imported function is of the second sort. -/
theorem own_module_or_exported_mainTree :
    ∃ a before, (Analyzer.ofRegistry .builtin).analyze
        (.ofTrees [libraryTree, mainTree]) = .ok a ∧
      (Compilation.ofTrees [libraryTree, mainTree]).stages =
        before ++ [⟨1, mainTree, .visit ⟨1, .expression (.call "twice" [])⟩⟩] ∧
      ∃ g, latest? (visitedFunctions before) "twice" = some g ∧
        ((g.place = 1 ∧ g.tree = mainTree ∧
            ∃ m, mainTree.enclosingModule? 1 = some m ∧ g.id ∈ mainTree.children m) ∨
          (g.node.modifiers.exported = true ∧
            ∃ m, g.moduleName? = some m ∧ mainTree.Imports m)) := by
  have hok : ((Analyzer.ofRegistry .builtin).analyze
      (.ofTrees [libraryTree, mainTree])).isOk = true := by
    decide +kernel
  obtain ⟨a, ha⟩ : ∃ a, (Analyzer.ofRegistry .builtin).analyze
      (.ofTrees [libraryTree, mainTree]) = .ok a := by
    cases h : (Analyzer.ofRegistry .builtin).analyze
      (.ofTrees [libraryTree, mainTree]) with
    | error d => simp [h, Except.isOk, Except.toBool] at hok
    | ok a => exact ⟨a, rfl⟩
  have hstages := stages_pair steps_mainTree (t := libraryTree)
  exact ⟨a, _, ha, hstages,
    own_module_or_exported ha (by decide +kernel) (by decide +kernel) hstages⟩

end ProgramCheck
