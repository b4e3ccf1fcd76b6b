import Mathlib.Data.Finset.Card
import ProgramCheck.Proofs.BuiltinColumns

/-!
# Modules of one name, run after run

The rule on modules reports a module if one of its name, up to case, was visited before it, in the
same run or in an earlier one. So of the modules that are visited in several runs it reports all but
the first one of each name: as many as there are more visits than names.
-/

namespace ProgramCheck

/-- Whether some module among others has the name of a module, up to case. -/
def Visited.Repeats (m : Visited Module) (ms : List (Visited Module)) : Prop :=
  ∃ m' ∈ ms, lowercase m'.node.name = lowercase m.node.name

instance (m : Visited Module) (ms : List (Visited Module)) : Decidable (m.Repeats ms) :=
  inferInstanceAs (Decidable (∃ m' ∈ ms, lowercase m'.node.name = lowercase m.node.name))

/-- The number of different names, up to case, of some modules. -/
def distinctNames (ms : List (Visited Module)) : Nat :=
  (ms.map fun m => lowercase m.node.name).toFinset.card

/-- One more module has a new name, or it repeats one. -/
theorem distinctNames_concat (ms : List (Visited Module)) (m : Visited Module) :
    distinctNames (ms ++ [m]) = distinctNames ms + if m.Repeats ms then 0 else 1 := by
  have hmem : lowercase m.node.name ∈ (ms.map fun m => lowercase m.node.name).toFinset ↔
      m.Repeats ms := by
    rw [List.mem_toFinset, List.mem_map]
    rfl
  have hnames : ((ms ++ [m]).map fun m => lowercase m.node.name).toFinset =
      insert (lowercase m.node.name) (ms.map fun m => lowercase m.node.name).toFinset := by
    ext key
    simp
  rw [distinctNames, hnames, distinctNames]
  split
  · next h => rw [Finset.insert_eq_of_mem (hmem.2 h), Nat.add_zero]
  · next h => rw [Finset.card_insert_of_notMem fun hin => h (hmem.1 hin)]

/-! ### One visit -/

namespace Builtin

variable {history : List Stage} {place : Nat} {t : Tree} {v : Visit}

theorem reports_duplicateModule_of_none (trees : List Tree)
    (h : Stage.module? ⟨place, t, .visit v⟩ = none) :
    duplicateModule.reports trees history t v = [] := by
  obtain ⟨id, subject⟩ := v
  cases subject with
  | moduleDecl m => cases h
  | _ => rfl

theorem reports_duplicateModule_of_some (trees : List Tree) {m : Visited Module}
    (h : Stage.module? ⟨place, t, .visit v⟩ = some m) :
    duplicateModule.reports trees history t v =
      if m.Repeats (visitedModules history) then
        [m.tree.error m.id ("Duplicate module '" ++ m.node.name ++ "'.")]
      else [] := by
  cases Stage.module?_eq_some_iff.1 h
  have hmem : lowercase m.node.name ∈
      (visitedModules history).map (fun m => lowercase m.node.name) ↔
        m.Repeats (visitedModules history) := List.mem_map
  exact if_congr hmem rfl rfl

/-- A module that is visited is reported, or it brings a new name. -/
theorem length_reports_duplicateModule (trees : List Tree) (history : List Stage) (place : Nat)
    (t : Tree) (v : Visit) :
    (duplicateModule.reports trees history t v).length +
        distinctNames (visitedModules (history ++ [⟨place, t, .visit v⟩])) =
      distinctNames (visitedModules history) +
        (visitedModules [⟨place, t, .visit v⟩]).length := by
  rw [visitedModules_append, visitedModules_singleton]
  cases hm : Stage.module? ⟨place, t, .visit v⟩ with
  | none =>
    rw [reports_duplicateModule_of_none trees hm, Option.toList_none, List.append_nil]
    exact Nat.add_comm _ _
  | some m =>
    rw [reports_duplicateModule_of_some trees hm, Option.toList_some, distinctNames_concat,
      List.length_singleton]
    by_cases hrepeats : m.Repeats (visitedModules history)
    · rw [if_pos hrepeats, if_pos hrepeats, List.length_singleton, Nat.add_zero, Nat.add_comm]
    · rw [if_neg hrepeats, if_neg hrepeats, List.length_nil, Nat.zero_add]

/-- Along a run as many modules are reported as are visited without bringing a new name. -/
theorem Tells.length_reports_duplicateModule {trees : List Tree} {history : List Stage}
    {before xs : List Reply} (h : duplicateModule.Tells trees history before xs) :
    (xs.flatMap Reply.reports).length +
        distinctNames (visitedModules
          (history ++ before.map Reply.stage ++ xs.map Reply.stage)) =
      distinctNames (visitedModules (history ++ before.map Reply.stage)) +
        (visitedModules (xs.map Reply.stage)).length := by
  induction xs generalizing before with
  | nil => simp [visitedModules]
  | cons x xs ih =>
    obtain ⟨hx, hxs⟩ := along_cons.1 h
    have hone : x.reports.length +
        distinctNames (visitedModules (history ++ before.map Reply.stage ++ [x.stage])) =
          distinctNames (visitedModules (history ++ before.map Reply.stage)) +
            (visitedModules [x.stage]).length := by
      rw [hx]
      exact Builtin.length_reports_duplicateModule trees _ _ _ _
    have hrest := ih hxs
    rw [List.map_append, ← List.append_assoc, List.map_singleton] at hrest
    have hcount : (visitedModules (x.stage :: xs.map Reply.stage)).length =
        (visitedModules [x.stage]).length + (visitedModules (xs.map Reply.stage)).length := by
      rw [← List.length_append, ← visitedModules_append, List.singleton_append]
    rw [List.flatMap_cons, List.length_append, List.map_cons, List.append_cons, hcount]
    omega

end Builtin

namespace Analyzer

open Analysis

/-- Over several runs as many modules are reported as are visited without bringing a new name. -/
theorem length_column_duplicateModule {a : Analyzer} {cs : List Compilation}
    {results : List Analysis} (h : a.analyzeEach cs = .ok results) {i : Nat} {earlier : List Stage}
    (hi : a.rules[i]? = some (Builtin.duplicateModule.activeAfter earlier))
    (hearlier : Housed earlier) :
    ((a.history cs).flatMap fun rows => (column i rows).flatMap Reply.reports).length +
        distinctNames (visitedModules (earlier ++ cs.flatMap Compilation.stages)) =
      distinctNames (visitedModules earlier) +
        (visitedModules (cs.flatMap Compilation.stages)).length := by
  induction cs generalizing a results earlier with
  | nil => simp [history, visitedModules]
  | cons c cs ih =>
    obtain ⟨result, rest, hresult, hrest, rfl, hhistory⟩ := analyzeEach_cons_eq_ok h
    obtain ⟨htells, hstages, hnext⟩ := tells_rows_from hresult hi hearlier
    have hone := htells.length_reports_duplicateModule
    rw [hstages, List.map_nil, List.append_nil] at hone
    have hlater := ih hrest hnext (housed_append_iff.2 ⟨hearlier, c.housed_stages⟩)
    rw [hhistory, List.flatMap_cons, List.length_append, List.flatMap_cons, ← List.append_assoc,
      visitedModules_append c.stages, List.length_append]
    omega

/-- The modules that are visited in several runs are those that the programs list. -/
theorem visitedModules_flatMap_stages (cs : List Compilation) :
    visitedModules (cs.flatMap Compilation.stages) =
      cs.flatMap fun c => declaredModules c.trees := by
  rw [visitedModules, List.filterMap_flatMap]
  exact List.flatMap_congr fun c _ => c.visitedModules_stages

/-- **Repeated modules in successive runs.** The rule on modules never ends a run. In runs that come
to their ends it reports a module, at the visit of it and at its position, exactly if a module of its
name was visited before, in the same run or in an earlier one, and reports nothing else. So over all
runs there are as many errors as there are visits of modules more than names. The modules that are
visited are those that the programs list. -/
theorem duplicateModule_reports {a : Analyzer} {i : Nat}
    (hi : a.rules[i]? = some Rule.duplicateModule.activate) (cs : List Compilation) :
    ((∀ c ∈ cs, AllVisits c.stages) →
      (∀ x ∈ a.rules, x.rule = .duplicateModule ∨
        ∀ c ∈ cs, ∀ s ∈ c.stages, x.rule.Answers s) →
      ∃ results, a.analyzeEach cs = .ok results) ∧
    ∀ results, a.analyzeEach cs = .ok results →
      (∀ k c, cs[k]? = some c → ∃ rows result, (a.history cs)[k]? = some rows ∧
        results[k]? = some result ∧ Recorded (a.rules.map ActiveRule.rule) c rows result.report ∧
        (column i rows).map Reply.stage = c.stages ∧
        ∀ before x after, column i rows = before ++ x :: after →
          (x.stage.module? = none → x.reports = []) ∧
          ∀ m, x.stage.module? = some m → x.reports =
            if m.Repeats (visitedModules
              ((cs.take k).flatMap Compilation.stages ++ before.map Reply.stage)) then
              [m.tree.error m.id ("Duplicate module '" ++ m.node.name ++ "'.")]
            else []) ∧
      (∀ c ∈ cs, visitedModules c.stages = declaredModules c.trees) ∧
      ((a.history cs).flatMap fun rows => (column i rows).flatMap Reply.reports).length +
          distinctNames (cs.flatMap fun c => declaredModules c.trees) =
        (cs.flatMap fun c => declaredModules c.trees).length := by
  refine ⟨exists_analyzeEach_of_builtin .duplicateModule, fun results h => ⟨fun k c hc => ?_,
    fun c _ => c.visitedModules_stages, ?_⟩⟩
  · obtain ⟨-, -, hruns⟩ := recorded_history h
    obtain ⟨rows, result, hrows, hresult, hrecorded⟩ := hruns k c hc
    obtain ⟨htells, hstages⟩ := tells_history h (b := .duplicateModule) hi hc hrows
    refine ⟨rows, result, hrows, hresult, hrecorded, hstages, fun before x after hsplit => ?_⟩
    have hx := along_iff.1 htells before x after hsplit
    rw [List.nil_append] at hx
    constructor
    · exact fun hm => hx.trans (Builtin.reports_duplicateModule_of_none c.trees hm)
    · exact fun m hm => hx.trans (Builtin.reports_duplicateModule_of_some c.trees hm)
  · have hrule : a.rules[i]? = some (Builtin.duplicateModule.activeAfter []) := by
      rw [Builtin.activeAfter_nil]
      exact hi
    have hlength := length_column_duplicateModule h hrule housed_nil
    rw [List.nil_append, visitedModules_flatMap_stages] at hlength
    exact hlength.trans (Nat.zero_add _)

end Analyzer

/-! ### A module among the imports -/

/-- The nodes of a program that lists a module among its imports, where it is not visited. -/
def strayNodes : List Node :=
  [⟨.moduleDecl ⟨"Main", [], []⟩, ⟨1, 1⟩⟩,
   ⟨.moduleDecl ⟨"lib", [], []⟩, ⟨2, 1⟩⟩,
   ⟨.program ⟨[0], [1]⟩, ⟨1, 1⟩⟩]

theorem isSome_strayTree : (Tree.ofNodes "stray.tw" strayNodes 2).toOption.isSome = true := by
  decide +kernel

/-- The program with this list of imports. -/
def strayTree : Tree := (Tree.ofNodes "stray.tw" strayNodes 2).toOption.get isSome_strayTree

theorem steps_strayTree :
    strayTree.steps =
      [.visit ⟨2, .program ⟨[0], [1]⟩⟩, .visit ⟨1, .moduleDecl ⟨"lib", [], []⟩⟩] := by
  decide +kernel

namespace Analyzer

open Analysis

/-- The module `lib` repeats the module `Lib` of the run before. The module `Main` behind it repeats
none, as the other one of its name is not visited. -/
theorem duplicateModule_reports_strayTree :
    (ofBuiltin Builtin.all).rules[2]? = some Rule.duplicateModule.activate ∧
    ∃ results, (ofBuiltin Builtin.all).analyzeEach
        [.ofTrees [libraryTree], .ofTrees [strayTree, mainTree]] = .ok results ∧
      (((ofBuiltin Builtin.all).history
          [.ofTrees [libraryTree], .ofTrees [strayTree, mainTree]]).flatMap
            fun rows => (column 2 rows).flatMap Reply.reports).length = 1 ∧
      ∃ rows, ((ofBuiltin Builtin.all).history
          [.ofTrees [libraryTree], .ofTrees [strayTree, mainTree]])[1]? = some rows ∧
        ∃ x ∈ column 2 rows, x.reports = [⟨.error, ⟨2, 1⟩, "Duplicate module 'lib'."⟩] := by
  have hrule : (ofBuiltin Builtin.all).rules[2]? = some Rule.duplicateModule.activate := rfl
  have hvisits : ∀ c ∈ [Compilation.ofTrees [libraryTree], .ofTrees [strayTree, mainTree]],
      AllVisits c.stages := by
    have hlibrary : libraryTree.WellKinded := by decide +kernel
    have hmain : mainTree.WellKinded := by decide +kernel
    have hstray : ∀ step ∈ strayTree.steps, ∃ v, step = .visit v := by simp [steps_strayTree]
    simpa [Compilation.allVisits_iff] using
      ⟨fun _ => Tree.exists_visit_of_wellKinded hlibrary, hstray,
        fun _ => Tree.exists_visit_of_wellKinded hmain⟩
  obtain ⟨hruns, hreports⟩ := duplicateModule_reports hrule
    [.ofTrees [libraryTree], .ofTrees [strayTree, mainTree]]
  obtain ⟨results, hresults⟩ := hruns hvisits fun x hx => Or.inr fun c _ s => answers_of_mem hx
  obtain ⟨hrun, -, hcount⟩ := hreports results hresults
  refine ⟨hrule, results, hresults, ?_, ?_⟩
  · have hnames : distinctNames (([.ofTrees [libraryTree], .ofTrees [strayTree, mainTree]] :
        List Compilation).flatMap fun c => declaredModules c.trees) = 2 := by decide +kernel
    have hmodules : (([.ofTrees [libraryTree], .ofTrees [strayTree, mainTree]] :
        List Compilation).flatMap fun c => declaredModules c.trees).length = 3 := by
      decide +kernel
    omega
  · obtain ⟨rows, -, hrows, -, -, hstages, hvisit⟩ := hrun 1 _ rfl
    have hfront : (Compilation.ofTrees [strayTree, mainTree]).stages =
        ⟨0, strayTree, .visit ⟨2, .program ⟨[0], [1]⟩⟩⟩ ::
          ⟨0, strayTree, .visit ⟨1, .moduleDecl ⟨"lib", [], []⟩⟩⟩ :: mainTree.stages 1 := by
      simp [Compilation.stages, Tree.stages, steps_strayTree]
    rw [hfront] at hstages
    obtain ⟨x₀, xs, hcolumn, hx₀, hxs⟩ := List.map_eq_cons_iff.1 hstages
    obtain ⟨x, behind, rfl, hx, -⟩ := List.map_eq_cons_iff.1 hxs
    refine ⟨rows, hrows, x, by simp [hcolumn], ?_⟩
    rw [(hvisit [x₀] x behind hcolumn).2 ⟨0, strayTree, 1, ⟨"lib", [], []⟩⟩ (by rw [hx]; rfl),
      List.map_singleton, hx₀]
    decide +kernel

end Analyzer

end ProgramCheck
