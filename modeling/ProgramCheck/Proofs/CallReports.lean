import ProgramCheck.Proofs.BuiltinReports

/-!
# What is reported on calls

Behind a walk every call has a module above it, so what is reported on a call depends on the
function of its name that was visited last: where that function comes from, whether it is exported,
and whether the program of the call imports its module.
-/

namespace ProgramCheck

namespace Tree

variable {t : Tree} {id : NodeId}

/-- Whether the program imports a module of this name, up to the case of ASCII letters. -/
def Imports (t : Tree) (name : String) : Prop :=
  ∃ i ∈ t.program.imports.filterMap t.import?, sameIgnoringAsciiCase i.moduleName name = true

theorem importsModule_iff {name : String} : t.importsModule name = true ↔ t.Imports name :=
  List.any_eq_true

instance (t : Tree) (name : String) : Decidable (t.Imports name) :=
  decidable_of_iff _ importsModule_iff

/-- The error about a function of a module that is not imported. -/
def notImported (t : Tree) (id : NodeId) (name moduleName : String) : Diagnostic :=
  t.error id ("Cannot call function '" ++ name ++ "' from module '" ++ moduleName ++
    "' because it is not imported.")

/-- The error about a function that is not exported. -/
def notExported (t : Tree) (id : NodeId) (name : String) : Diagnostic :=
  t.error id ("Tried to call inaccessible function '" ++ name ++ "' (not exported).")

/-- Whether a function may be called from a module of the name `caller`: it is from a module of that
name, or it is exported and the program imports its module. -/
def MayCall (t : Tree) (caller : String) (g : Visited Function) : Prop :=
  ∃ m, g.moduleName? = some m ∧
    (m = caller ∨ g.node.modifiers.exported = true ∧ t.Imports m)

theorem callErrors_eq {caller name : String} (hcaller : t.moduleNameAbove? id = some caller)
    (o : Origin) :
    t.callErrors id name o =
      if caller = o.moduleName then []
      else
        (if t.importsModule o.moduleName then [] else [t.notImported id name o.moduleName]) ++
          (if o.modifiers.exported then [] else [t.notExported id name]) := by
  rw [callErrors, hcaller]
  rfl

end Tree

/-- The nearest module above a visited call has a name. -/
theorem exists_moduleNameAbove {c : Compilation} {place : Nat} {t : Tree} {id : NodeId}
    {e : Expression} (h : ⟨place, t, .visit ⟨id, .expression e⟩⟩ ∈ c.stages) :
    ∃ m ∈ declaredModules c.trees, m.place = place ∧ m.tree = t ∧
      t.enclosingModule? id = some m.id ∧ t.moduleNameAbove? id = some m.node.name := by
  obtain ⟨m, hm, hplace, htree, habove⟩ := exists_module_above h (by simp) (by simp)
  obtain ⟨-, -, hnode⟩ := mem_declaredModules_iff.1 hm
  exact ⟨m, hm, hplace, htree, habove,
    Tree.moduleNameAbove?_of_enclosing habove (htree ▸ hnode)⟩

namespace Builtin

variable {history : List Stage} {t : Tree} {id : NodeId} {name caller : String}

/-- What is reported on a call of a function that was visited before. -/
theorem callReports_of_latest {g : Visited Function} {m : String}
    (hg : latest? (visitedFunctions history) name = some g) (hm : g.moduleName? = some m)
    (hcaller : t.moduleNameAbove? id = some caller) :
    callReports history t id name =
      if caller = m then []
      else
        (if t.importsModule m then [] else [t.notImported id name m]) ++
          (if g.node.modifiers.exported then [] else [t.notExported id name]) := by
  have horigin : g.origin? = some ⟨m, g.node.modifiers⟩ := by
    rw [Visited.origin?, hm, Option.map_some]
  rw [callReports, hg, Option.bind_some, horigin]
  exact Tree.callErrors_eq hcaller ⟨m, g.node.modifiers⟩

/-- A call is fine if the function of its name that was visited last may be called. -/
theorem noErrors_callReports_iff (hcaller : t.moduleNameAbove? id = some caller) :
    NoErrors (callReports history t id name) ↔
      ∃ g, latest? (visitedFunctions history) name = some g ∧ t.MayCall caller g := by
  cases horigin : (latest? (visitedFunctions history) name).bind Visited.origin? with
  | none =>
    have hnone : ∀ g, latest? (visitedFunctions history) name = some g → g.moduleName? = none := by
      intro g hg
      rw [hg, Option.bind_some, Visited.origin?, Option.map_eq_none_iff] at horigin
      exact horigin
    refine iff_of_false (fun h => ?_) ?_
    · rw [callReports, horigin] at h
      exact absurd (h _ (List.mem_singleton.2 rfl)) (by simp [Tree.error, Diagnostic.isError])
    · rintro ⟨g, hg, m, hm, -⟩
      rw [hnone g hg] at hm
      cases hm
  | some o =>
    obtain ⟨g, hg, ho⟩ := Option.bind_eq_some_iff.1 horigin
    obtain ⟨m, hm, rfl⟩ := Option.map_eq_some_iff.1 ho
    have hmay : t.MayCall caller g ↔
        m = caller ∨ g.node.modifiers.exported = true ∧ t.importsModule m = true := by
      simp [Tree.MayCall, hm, Tree.importsModule_iff]
    rw [callReports_of_latest hg hm hcaller, hg]
    simp only [Option.some.injEq, exists_eq_left', hmay]
    by_cases hsame : caller = m
    · simp [hsame, NoErrors]
    · cases t.importsModule m <;> cases g.node.modifiers.exported <;>
        simp [hsame, Ne.symm hsame, NoErrors, Tree.notImported, Tree.notExported, Tree.error,
          Diagnostic.isError]

theorem notImported_ne_notExported {m : String} :
    t.notImported id name m ≠ t.notExported id name := by
  intro h
  -- the two messages differ in their first letter
  have hfirst := congrArg (fun d : Diagnostic => d.message.toList.head?) h
  simp [Tree.notImported, Tree.notExported, Tree.error] at hfirst

/-- The function that a call finds is reported as not imported exactly if it is from a module of
another name than the caller's that the program does not import. -/
theorem notImported_mem_callReports_iff {g : Visited Function} {m : String}
    (hg : latest? (visitedFunctions history) name = some g) (hm : g.moduleName? = some m)
    (hcaller : t.moduleNameAbove? id = some caller) :
    t.notImported id name m ∈ callReports history t id name ↔ caller ≠ m ∧ ¬ t.Imports m := by
  rw [callReports_of_latest hg hm hcaller, ← Tree.importsModule_iff]
  by_cases hsame : caller = m
  · simp [hsame]
  · cases t.importsModule m <;> cases g.node.modifiers.exported <;>
      simp [hsame, notImported_ne_notExported]

end Builtin

/-! ### A library and a program that uses it -/

/-- The nodes of a program of one module with an exported function. -/
def libraryNodes (moduleName : String) : List Node :=
  [⟨.functionDecl ⟨"twice", .void, { exported := true }, [], some []⟩, ⟨2, 1⟩⟩,
   ⟨.moduleDecl ⟨moduleName, [0], []⟩, ⟨1, 1⟩⟩,
   ⟨.program ⟨[], [1]⟩, ⟨1, 1⟩⟩]

/-- The nodes of a program that imports a module and calls the function of the library. -/
def mainNodes (imported : String) : List Node :=
  [⟨.importDecl ⟨imported⟩, ⟨1, 1⟩⟩,
   ⟨.expression (.call "twice" []), ⟨4, 1⟩⟩,
   ⟨.statement (.evaluation 1), ⟨4, 1⟩⟩,
   ⟨.functionDecl ⟨"main", .void, {}, [], some [2]⟩, ⟨3, 1⟩⟩,
   ⟨.moduleDecl ⟨"Main", [3], []⟩, ⟨2, 1⟩⟩,
   ⟨.program ⟨[0], [4]⟩, ⟨1, 1⟩⟩]

/-- The steps through this program up to the call. -/
def mainSteps : List Step :=
  [.visit ⟨5, .program ⟨[0], [4]⟩⟩, .visit ⟨4, .moduleDecl ⟨"Main", [3], []⟩⟩,
    .visit ⟨3, .functionDecl ⟨"main", .void, {}, [], some [2]⟩⟩,
    .visit ⟨2, .statement (.evaluation 1)⟩]

theorem isSome_libraryTree :
    (Tree.ofNodes "lib.tw" (libraryNodes "Lib") 2).toOption.isSome = true := by
  decide +kernel

/-- The library with a module `Lib`. -/
def libraryTree : Tree :=
  (Tree.ofNodes "lib.tw" (libraryNodes "Lib") 2).toOption.get isSome_libraryTree

theorem isSome_mainTree : (Tree.ofNodes "main.tw" (mainNodes "LIB") 5).toOption.isSome = true := by
  decide +kernel

/-- The program that imports it as `LIB`. -/
def mainTree : Tree := (Tree.ofNodes "main.tw" (mainNodes "LIB") 5).toOption.get isSome_mainTree

theorem steps_mainTree :
    mainTree.steps = mainSteps ++ [.visit ⟨1, .expression (.call "twice" [])⟩] := by
  decide +kernel

/-- The walk through two trees, of which the second comes to an end with a step. -/
theorem stages_pair {t u : Tree} {steps : List Step} {step : Step} (h : u.steps = steps ++ [step]) :
    (Compilation.ofTrees [t, u]).stages =
      (t.stages 0 ++ u.stagesOf 1 steps) ++ [⟨1, u, step⟩] := by
  have hlast : u.stages 1 = u.stagesOf 1 steps ++ [⟨1, u, step⟩] := by
    rw [Tree.stages, h, List.map_append]
    rfl
  rw [List.append_assoc, ← hlast]
  exact congrArg (t.stages 0 ++ ·) (List.append_nil _)

end ProgramCheck
