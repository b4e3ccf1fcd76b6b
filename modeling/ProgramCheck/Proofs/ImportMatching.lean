import ProgramCheck.Proofs.CallReports
import ProgramCheck.Proofs.NameFolding

/-!
# Which module an import is of

An import resolves to a module of its name in lower case, while a call asks for an import of the
name up to the case of ASCII letters. The second comparison is the narrower one. So a function of a
module to which an import resolves is reported as not imported exactly if every such import is
spelled differently from the module outside ASCII, and the caller is in a module of another name.
-/

namespace ProgramCheck

namespace Tree

/-- A program does not import a module, by the comparison of calls, if no import that resolves to
the module agrees with it outside ASCII. -/
theorem not_imports_iff {t : Tree} {m : String} :
    ¬ t.Imports m ↔ ∀ i ∈ t.program.imports.filterMap t.import?,
      lowercase i.moduleName = lowercase m → ¬ AgreeOutsideAscii i.moduleName m := by
  simp only [Imports, sameIgnoringAsciiCase_iff]
  constructor
  · exact fun h i hi hlower hagree => h ⟨i, hi, hlower, hagree⟩
  · rintro h ⟨i, hi, hlower, hagree⟩
    exact h i hi hlower hagree

end Tree

namespace Analysis

open Builtin

/-- Behind the stages before it, the built-in rules report at a visit what their histories say. -/
theorem exists_follow_builtin {trees : List Tree} {before after : List Stage} {place : Nat}
    {t : Tree} {v : Visit} (hvisits : AllVisits (Compilation.ofTrees trees).stages)
    (hstages : (Compilation.ofTrees trees).stages = before ++ ⟨place, t, .visit v⟩ :: after) :
    ∃ a, follow ⟨(Analyzer.ofRegistry .builtin).rules, .ofTrees trees, {}⟩ before = .ok a ∧
      ∀ (b : Builtin) (d : Diagnostic),
        (∃ x ∈ a.repliesAt ⟨place, t, .visit v⟩, x.name = b.name ∧ d ∈ x.reports) ↔
          d ∈ b.reports trees before t v := by
  have hhoused : Housed (before ++ [⟨place, t, .visit v⟩] ++ after) := by
    rw [List.append_assoc, List.singleton_append, ← hstages]
    exact Compilation.housed_stages _
  have hbefore : AllVisits before := fun s hs =>
    hvisits s (hstages ▸ List.mem_append_left _ hs)
  have hstage := (housed_append_iff.1 hhoused).1
  have hempty : Housed ([] ++ before) := (housed_append_iff.1 hstage).1
  obtain ⟨a, ha, hrules, htrees, -⟩ :=
    follow_builtin Builtin.all (c := .ofTrees trees) (r := {}) hbefore hempty
  obtain ⟨-, -, -, -, hreplies⟩ := answer_builtin Builtin.all (c := a.compilation) hstage
  rw [← Analyzer.rules_ofBuiltin] at ha
  rw [htrees, Compilation.trees_ofTrees] at hreplies
  have hat : (a.repliesAt ⟨place, t, .visit v⟩).map Reply.finding =
      findingsAt Builtin.all trees before place t v := by
    rw [repliesAt, hrules]
    exact hreplies
  exact ⟨a, ha, fun b d => exists_reply_iff hat b.mem_all⟩

end Analysis

/-- **What it means to import a module**: calls take an import for one of a module exactly if it
resolves to the module and agrees with its name outside ASCII. Hence, in a check of well-kinded
trees with the built-in rules, the function that a call finds is reported as not imported exactly if
it is from a module of another name than the caller's and no import of the program that resolves to
this module agrees with it outside ASCII. -/
theorem notImported_reported_iff {trees : List Tree} (hk : ∀ t ∈ trees, t.WellKinded)
    {before after : List Stage} {place : Nat} {t : Tree} {id : NodeId} {name : String}
    {arguments : List NodeId}
    (hstages : (Compilation.ofTrees trees).stages =
      before ++ ⟨place, t, .visit ⟨id, .expression (.call name arguments)⟩⟩ :: after)
    {g : Visited Function} {m : String} (hlatest : latest? (visitedFunctions before) name = some g)
    (hm : g.moduleName? = some m) :
    (∀ imported declared : String, sameIgnoringAsciiCase imported declared = true ↔
      lowercase imported = lowercase declared ∧ AgreeOutsideAscii imported declared) ∧
    ∃ a caller,
      Analysis.follow ⟨(Analyzer.ofRegistry .builtin).rules, .ofTrees trees, {}⟩ before = .ok a ∧
      t.moduleNameAbove? id = some caller ∧
      ((∃ x ∈ a.repliesAt ⟨place, t, .visit ⟨id, .expression (.call name arguments)⟩⟩,
          x.name = Builtin.callVisibility.name ∧ t.notImported id name m ∈ x.reports) ↔
        caller ≠ m ∧ ∀ i ∈ t.program.imports.filterMap t.import?,
          lowercase i.moduleName = lowercase m → ¬ AgreeOutsideAscii i.moduleName m) := by
  refine ⟨fun _ _ => sameIgnoringAsciiCase_iff, ?_⟩
  have hvisits : AllVisits (Compilation.ofTrees trees).stages :=
    allVisits_of_wellKinded ((Compilation.trees_ofTrees trees).symm ▸ hk)
  have hcall : ⟨place, t, .visit ⟨id, .expression (.call name arguments)⟩⟩ ∈
      (Compilation.ofTrees trees).stages := by
    rw [hstages]
    exact List.mem_append_right _ List.mem_cons_self
  obtain ⟨above, -, -, -, -, hcaller⟩ := exists_moduleNameAbove hcall
  obtain ⟨a, ha, hreports⟩ := Analysis.exists_follow_builtin hvisits hstages
  refine ⟨a, above.node.name, ha, hcaller, ?_⟩
  rw [hreports, ← Tree.not_imports_iff]
  exact Builtin.notImported_mem_callReports_iff hlatest hm hcaller

/-! ### A name outside ASCII -/

theorem isSome_accentLibraryTree :
    (Tree.ofNodes "lib.tw" (libraryNodes "é") 2).toOption.isSome = true := by
  decide +kernel

/-- The library with a module `é`. -/
def accentLibraryTree : Tree :=
  (Tree.ofNodes "lib.tw" (libraryNodes "é") 2).toOption.get isSome_accentLibraryTree

theorem isSome_accentMainTree :
    (Tree.ofNodes "main.tw" (mainNodes "É") 5).toOption.isSome = true := by
  decide +kernel

/-- The program that imports it as `É`. -/
def accentMainTree : Tree :=
  (Tree.ofNodes "main.tw" (mainNodes "É") 5).toOption.get isSome_accentMainTree

theorem steps_accentMainTree :
    accentMainTree.steps = mainSteps ++ [.visit ⟨1, .expression (.call "twice" [])⟩] := by
  decide +kernel

/-- The import of `É` resolves to the module `é`, and the call of its function is reported as not
imported. -/
theorem notImported_reported_accent :
    (∀ t ∈ [accentLibraryTree, accentMainTree], t.WellKinded) ∧ lowercase "É" = lowercase "é" ∧
      ∃ a before, Analysis.follow ⟨(Analyzer.ofRegistry .builtin).rules,
          .ofTrees [accentLibraryTree, accentMainTree], {}⟩ before = .ok a ∧
        ∃ x ∈ a.repliesAt ⟨1, accentMainTree, .visit ⟨1, .expression (.call "twice" [])⟩⟩,
          x.name = Builtin.callVisibility.name ∧
            accentMainTree.notImported 1 "twice" "é" ∈ x.reports := by
  have hkinded : ∀ t ∈ [accentLibraryTree, accentMainTree], t.WellKinded := by decide +kernel
  have hstages := stages_pair steps_accentMainTree (t := accentLibraryTree)
  -- the call finds the function of the library
  have hsteps : accentLibraryTree.steps =
      [.visit ⟨2, .program ⟨[], [1]⟩⟩, .visit ⟨1, .moduleDecl ⟨"é", [0], []⟩⟩,
        .visit ⟨0, .functionDecl ⟨"twice", .void, { exported := true }, [], some []⟩⟩] := by
    decide +kernel
  have hlatest : latest? (visitedFunctions
      (accentLibraryTree.stages 0 ++ accentMainTree.stagesOf 1 mainSteps)) "twice" =
      some ⟨0, accentLibraryTree, 0, ⟨"twice", .void, { exported := true }, [], some []⟩⟩ := by
    rw [Tree.stages, hsteps]
    rfl
  have hm : Visited.moduleName? ⟨0, accentLibraryTree, 0,
      ⟨"twice", .void, { exported := true }, [], some []⟩⟩ = some "é" := by
    decide +kernel
  obtain ⟨-, a, caller, ha, hcaller, hreported⟩ :=
    notImported_reported_iff hkinded hstages hlatest hm
  have hmain : accentMainTree.moduleNameAbove? 1 = some "Main" := by decide +kernel
  obtain rfl := Option.some.inj (hcaller.symm.trans hmain)
  have hdiffers : ∀ i ∈ accentMainTree.program.imports.filterMap accentMainTree.import?,
      lowercase i.moduleName = lowercase "é" → ¬ AgreeOutsideAscii i.moduleName "é" := by
    decide +kernel
  exact ⟨hkinded, by decide +kernel, a, _, ha, hreported.2 ⟨by decide, hdiffers⟩⟩

end ProgramCheck
