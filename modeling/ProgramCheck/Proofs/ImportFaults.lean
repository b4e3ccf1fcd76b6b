import ProgramCheck.Proofs.BuiltinColumns
import ProgramCheck.Proofs.RuleConditions
import ProgramCheck.Proofs.StackListing
import ProgramCheck.Proofs.TableReads

/-!
# What is wrong with imports

An import may repeat an earlier one of its program, and there may be no module of its name in any of
the trees. `Tree.importFaults` lists what is wrong with the imports of a tree among some trees, and
the rule on imports reports just that, tree by tree. For the other trees it only matters which names
their modules have: in another order of the trees the same is wrong with each of them, and further
trees can do no more than resolve imports.
-/

namespace ProgramCheck

/-! ### Names of modules -/

/-- Whether some of the trees have a module of this name, up to case. -/
def Resolves (trees : List Tree) (name : String) : Prop :=
  ∃ t ∈ trees, ∃ id m, t.module? id = some m ∧ lowercase m.name = lowercase name

theorem resolves_append {trees us : List Tree} {name : String} :
    Resolves (trees ++ us) name ↔ Resolves trees name ∨ Resolves us name := by
  simp only [Resolves, List.mem_append, or_and_right, exists_or]

theorem resolves_congr {trees trees' : List Tree} (h : ∀ t, t ∈ trees' ↔ t ∈ trees) (name : String) :
    Resolves trees' name ↔ Resolves trees name := by
  simp only [Resolves, h]

/-- The names that resolve are the same if they are the same tree by tree. -/
theorem resolves_iff_of_forall₂ {trees trees' : List Tree}
    (h : List.Forall₂ (fun t t' => ∀ name, Resolves [t'] name ↔ Resolves [t] name) trees trees')
    (name : String) : Resolves trees' name ↔ Resolves trees name := by
  induction h with
  | nil => rfl
  | cons ht _ ih =>
    rw [← List.singleton_append, resolves_append, ht name, ih, ← resolves_append,
      List.singleton_append]

/-- The names that resolve are those of the listed modules, as every node lies below the root. -/
theorem mem_lowercase_moduleNames_iff {trees : List Tree} {name : String} :
    lowercase name ∈ (Compilation.ofTrees trees).moduleNames.map lowercase ↔
      Resolves trees name := by
  simp only [List.mem_map, mem_moduleNames_iff]
  constructor
  · rintro ⟨_, ⟨t, ht, id, -, m, hm, rfl⟩, heq⟩
    exact ⟨t, ht, id, m, hm, heq⟩
  · rintro ⟨t, ht, id, m, hm, heq⟩
    have hid : id < t.size := Forest.lt_size_of_kind? (Forest.module?_eq_some_iff.1 hm)
    exact ⟨_, ⟨t, ht, id, Tree.mem_preorder_root_iff.2 hid, m, hm, rfl⟩, heq⟩

instance (trees : List Tree) (name : String) : Decidable (Resolves trees name) :=
  decidable_of_iff _ mem_lowercase_moduleNames_iff

/-! ### Faults -/

/-- What is wrong with an import: one before it in its program is of the same module, or there is no
module of its name. -/
inductive ImportFault.Cause
  | repeated
  | unresolved
  deriving DecidableEq

/-- A fault of an import in a tree. -/
structure ImportFault where
  tree : Tree
  id : NodeId
  name : String
  cause : ImportFault.Cause

namespace ImportFault

/-- The warning or the error about a fault, at the position of the import. -/
def diagnostic (f : ImportFault) : Diagnostic :=
  match f.cause with
  | .repeated => f.tree.warning f.id ("Duplicate import of module '" ++ f.name ++ "'.")
  | .unresolved => f.tree.error f.id ("Could not resolve import '" ++ f.name ++ "'.")

/-- Whether a fault is still there when there are some more trees. -/
def remains (us : List Tree) (f : ImportFault) : Bool :=
  match f.cause with
  | .repeated => true
  | .unresolved => !decide (Resolves us f.name)

end ImportFault

namespace Tree

/-- The imports among some nodes. -/
def importsAmong (t : Tree) (ids : List NodeId) : List (NodeId × Import) :=
  ids.filterMap fun id => (t.import? id).map fun i => (id, i)

/-- The imports that the program of a tree lists. -/
def imports (t : Tree) : List (NodeId × Import) := t.importsAmong t.program.imports

/-- What is wrong with an import behind some imports of its program. -/
def importFaultsAt (t : Tree) (trees : List Tree) (before : List (NodeId × Import))
    (x : NodeId × Import) : List ImportFault :=
  (if ∃ y ∈ before, lowercase y.2.moduleName = lowercase x.2.moduleName then
    [⟨t, x.1, x.2.moduleName, .repeated⟩] else []) ++
  (if Resolves trees x.2.moduleName then [] else [⟨t, x.1, x.2.moduleName, .unresolved⟩])

/-- What is wrong with the imports of a tree among some trees. -/
def importFaults (t : Tree) (trees : List Tree) : List ImportFault :=
  t.imports.zipIdx.flatMap fun x => t.importFaultsAt trees (t.imports.take x.2) x.1

variable {trees us : List Tree}

/-- The faults of a tree depend on the other trees by the names that resolve. -/
theorem importFaults_congr {trees' : List Tree}
    (h : ∀ name, Resolves trees' name ↔ Resolves trees name) (t : Tree) :
    t.importFaults trees' = t.importFaults trees := by
  simp only [importFaults, importFaultsAt, h]

theorem importFaultsAt_append (t : Tree) (before : List (NodeId × Import))
    (x : NodeId × Import) :
    t.importFaultsAt (trees ++ us) before x =
      (t.importFaultsAt trees before x).filter (·.remains us) := by
  simp only [importFaultsAt, resolves_append, List.filter_append]
  congr 1
  · split <;> rfl
  · by_cases htrees : Resolves trees x.2.moduleName <;>
      by_cases hus : Resolves us x.2.moduleName <;> simp [htrees, hus, ImportFault.remains]

/-- Further trees resolve imports, and change nothing else. -/
theorem importFaults_append (t : Tree) :
    t.importFaults (trees ++ us) = (t.importFaults trees).filter (·.remains us) := by
  rw [importFaults, importFaults, List.filter_flatMap]
  exact List.flatMap_congr fun x _ => t.importFaultsAt_append _ _

/-! ### What is reported -/

theorem importReports_eq (t : Tree) {before : List String} {front : List (NodeId × Import)}
    (hbefore : ∀ key, key ∈ before ↔ ∃ y ∈ front, lowercase y.2.moduleName = key) (id : NodeId)
    (i : Import) :
    t.importReports ((Compilation.ofTrees trees).moduleNames.map lowercase) before id i =
      (t.importFaultsAt trees front (id, i)).map ImportFault.diagnostic := by
  simp only [importReports, hbefore, mem_lowercase_moduleNames_iff, importFaultsAt,
    List.map_append]
  congr 1 <;> split <;> rfl

/-- Behind some imports the others are reported as they are in the whole list. -/
theorem importsReports_eq (t : Tree) {before : List String} (front : List (NodeId × Import))
    (hbefore : ∀ key, key ∈ before ↔ ∃ y ∈ front, lowercase y.2.moduleName = key)
    (ids : List NodeId) :
    t.importsReports ((Compilation.ofTrees trees).moduleNames.map lowercase) before ids =
      (((t.importsAmong ids).zipIdx front.length).flatMap fun x =>
        t.importFaultsAt trees ((front ++ t.importsAmong ids).take x.2) x.1).map
          ImportFault.diagnostic := by
  -- `before` has the names of the imports in front, so the next one is judged by `front` alone
  induction ids generalizing before front with
  | nil => rfl
  | cons id ids ih =>
    rw [importsReports, importsAmong]
    cases hi : t.import? id with
    | none =>
      rw [List.filterMap_cons_none (by rw [hi, Option.map_none])]
      exact ih front hbefore
    | some i =>
      have hnext : ∀ key, key ∈ lowercase i.moduleName :: before ↔
          ∃ y ∈ front ++ [(id, i)], lowercase y.2.moduleName = key := by
        intro key
        simp [hbefore, or_comm, eq_comm]
      have hrest := ih _ hnext
      rw [List.length_append, List.length_singleton, List.append_assoc, List.singleton_append]
        at hrest
      rw [List.filterMap_cons_some (by rw [hi, Option.map_some]), List.zipIdx_cons,
        List.flatMap_cons, List.take_left, List.map_append, ← t.importReports_eq hbefore]
      exact congrArg (_ ++ ·) hrest

theorem importReports_program (t : Tree) :
    Builtin.importReports trees t t.program =
      (t.importFaults trees).map ImportFault.diagnostic :=
  t.importsReports_eq [] (by simp) t.program.imports

end Tree

namespace Analyzer

open Analysis

variable {a : Analyzer} {c : Compilation} {result : Analysis} {i : Nat}

/-- In a run that comes to its end the rule on imports reports what is wrong with them, tree by
tree. -/
theorem column_importResolution (h : a.analyze c = .ok result)
    (hi : a.rules[i]? = some Rule.importResolution.activate) :
    (column i (a.rows c)).flatMap Reply.reports =
      (c.trees.flatMap fun t => t.importFaults c.trees).map ImportFault.diagnostic := by
  obtain ⟨htells, hstages⟩ := tells_rows h (b := .importResolution) hi
  rw [htells.reports_of_pick Builtin.programAt? _ (Builtin.reports_importResolution c.trees), hstages,
    Builtin.filterMap_programAt?_stages, List.flatMap_map, List.map_flatMap]
  exact List.flatMap_congr fun t _ => t.importReports_program

/-- Where a rule answers, the listing of the modules through the tables resolves the names that the
trees resolve, whatever has been listed before and whichever trees are still to be walked. -/
theorem resolves_of_mem_column {x : Reply} (hx : x ∈ column i (a.rows c)) (name : String) :
    lowercase name ∈ (x.context.compilation.list (some .moduleSymbol) none).1.map
        (fun entry => lowercase entry.symbol.name) ↔ Resolves c.trees name := by
  obtain ⟨row, hrow, hxrow⟩ := List.mem_filterMap.1 hx
  have hlog : x ∈ a.log c := by
    rw [Analyzer.log, log_eq_flatten_rows]
    exact List.mem_flatten.2 ⟨row, hrow, List.mem_of_getElem? hxrow⟩
  have htrees : x.context.compilation.trees = c.trees := trees_of_mem_log hlog
  have hnames := x.context.compilation.readsTrees.modules.1
  rw [← Builtin.moduleNames_ofTrees, htrees] at hnames
  rw [← mem_lowercase_moduleNames_iff, ← hnames, List.map_map]
  rfl

/-- **The diagnostics on imports.** The rule on imports never ends a run. In a run that comes to its
end it reports for each tree what is wrong with the imports of its program, where a name resolves if
any of the trees has a module of this name. With the same trees in another order it reports the same
on each tree, in the other order. With further trees it reports on the old ones what remains: all
warnings, and the errors about names that the further trees do not resolve either. -/
theorem importResolution_reports (hi : a.rules[i]? = some Rule.importResolution.activate)
    (c : Compilation) :
    (AllVisits c.stages →
      (∀ x ∈ a.rules, x.rule = .importResolution ∨ ∀ s ∈ c.stages, x.rule.Answers s) →
      ∃ result, a.analyze c = .ok result) ∧
    ∀ result, a.analyze c = .ok result →
      Recorded (a.rules.map ActiveRule.rule) c (a.rows c) result.report ∧
      (∀ x ∈ column i (a.rows c), ∀ name,
        lowercase name ∈ (x.context.compilation.list (some .moduleSymbol) none).1.map
          (fun entry => lowercase entry.symbol.name) ↔ Resolves c.trees name) ∧
      (column i (a.rows c)).flatMap Reply.reports =
        (c.trees.flatMap fun t => t.importFaults c.trees).map ImportFault.diagnostic ∧
      (∀ c' result', a.analyze c' = .ok result' → c'.trees.Perm c.trees →
        (column i (a.rows c')).flatMap Reply.reports =
          (c'.trees.flatMap fun t => t.importFaults c.trees).map ImportFault.diagnostic) ∧
      ∀ c' result' us, a.analyze c' = .ok result' → c'.trees = c.trees ++ us →
        (column i (a.rows c')).flatMap Reply.reports =
          (((c.trees.flatMap fun t => t.importFaults c.trees).filter (·.remains us)) ++
            us.flatMap fun u => u.importFaults c'.trees).map ImportFault.diagnostic := by
  refine ⟨fun hvisits hanswers => ?_, fun result h => ⟨recorded_rows h, fun x hx name =>
    resolves_of_mem_column hx name, column_importResolution h hi, ?_, ?_⟩⟩
  · exact exists_analyze_of_builtin .importResolution hvisits hanswers
  · intro c' result' h' hperm
    rw [column_importResolution h' hi]
    refine congrArg _ (List.flatMap_congr fun t _ => ?_)
    exact Tree.importFaults_congr (resolves_congr fun _ => hperm.mem_iff) t
  · intro c' result' us h' happend
    have hold : c.trees.flatMap (fun t => t.importFaults c'.trees) =
        (c.trees.flatMap fun t => t.importFaults c.trees).filter (·.remains us) := by
      rw [List.filter_flatMap, happend]
      exact List.flatMap_congr fun t _ => t.importFaults_append
    rw [column_importResolution h' hi, ← hold, ← List.flatMap_append, ← happend]

end Analyzer

/-! ### Imports of all sorts -/

/-- The nodes of a program that imports a module twice, lists an expression among its imports, and
imports a module that is not there twice as well. -/
def importingNodes : List Node :=
  [⟨.importDecl ⟨"Lib"⟩, ⟨1, 1⟩⟩,
   ⟨.expression (.integer 0), ⟨2, 1⟩⟩,
   ⟨.importDecl ⟨"LIB"⟩, ⟨3, 1⟩⟩,
   ⟨.importDecl ⟨"Gone"⟩, ⟨4, 1⟩⟩,
   ⟨.importDecl ⟨"gone"⟩, ⟨5, 1⟩⟩,
   ⟨.program ⟨[0, 1, 2, 3, 4], []⟩, ⟨1, 1⟩⟩]

theorem isSome_importingTree :
    (Tree.ofNodes "importing.tw" importingNodes 5).toOption.isSome = true := by
  decide +kernel

/-- The program with these imports. -/
def importingTree : Tree :=
  (Tree.ofNodes "importing.tw" importingNodes 5).toOption.get isSome_importingTree

theorem visits_importingTree : ∀ step ∈ importingTree.steps, ∃ v, step = .visit v := by
  have hsteps : importingTree.steps = [.visit ⟨5, .program ⟨[0, 1, 2, 3, 4], []⟩⟩] := by
    decide +kernel
  simp [hsteps]

namespace Analyzer

open Analysis

/-- With the library behind the program the errors on `Lib` are gone, and the warnings are still
there. -/
theorem importResolution_reports_importingTree :
    ∃ result result', (ofBuiltin Builtin.all).analyze (.ofTrees [importingTree]) = .ok result ∧
      (ofBuiltin Builtin.all).analyze (.ofTrees [importingTree, libraryTree]) = .ok result' ∧
      (column 5 ((ofBuiltin Builtin.all).rows (.ofTrees [importingTree]))).flatMap Reply.reports =
        [⟨.error, ⟨1, 1⟩, "Could not resolve import 'Lib'."⟩,
          ⟨.warning, ⟨3, 1⟩, "Duplicate import of module 'LIB'."⟩,
          ⟨.error, ⟨3, 1⟩, "Could not resolve import 'LIB'."⟩,
          ⟨.error, ⟨4, 1⟩, "Could not resolve import 'Gone'."⟩,
          ⟨.warning, ⟨5, 1⟩, "Duplicate import of module 'gone'."⟩,
          ⟨.error, ⟨5, 1⟩, "Could not resolve import 'gone'."⟩] ∧
      (column 5 ((ofBuiltin Builtin.all).rows (.ofTrees [importingTree, libraryTree]))).flatMap
          Reply.reports =
        [⟨.warning, ⟨3, 1⟩, "Duplicate import of module 'LIB'."⟩,
          ⟨.error, ⟨4, 1⟩, "Could not resolve import 'Gone'."⟩,
          ⟨.warning, ⟨5, 1⟩, "Duplicate import of module 'gone'."⟩,
          ⟨.error, ⟨5, 1⟩, "Could not resolve import 'gone'."⟩] := by
  have hrule : (ofBuiltin Builtin.all).rules[5]? = some Rule.importResolution.activate := rfl
  have hvisits : AllVisits (Compilation.ofTrees [importingTree]).stages := by
    simpa [Compilation.allVisits_iff] using visits_importingTree
  have hvisits' : AllVisits (Compilation.ofTrees [importingTree, libraryTree]).stages := by
    have hlibrary : libraryTree.WellKinded := by decide +kernel
    simpa [Compilation.allVisits_iff] using
      ⟨visits_importingTree, fun _ => Tree.exists_visit_of_wellKinded hlibrary⟩
  obtain ⟨hends, hreports⟩ := importResolution_reports hrule (.ofTrees [importingTree])
  obtain ⟨hends', -⟩ := importResolution_reports hrule (.ofTrees [importingTree, libraryTree])
  obtain ⟨result, hresult⟩ := hends hvisits fun x hx => Or.inr fun s => answers_of_mem hx
  obtain ⟨result', hresult'⟩ := hends' hvisits' fun x hx => Or.inr fun s => answers_of_mem hx
  obtain ⟨-, -, hfirst, -, hmore⟩ := hreports result hresult
  refine ⟨result, result', hresult, hresult', ?_, ?_⟩
  · rw [hfirst]
    decide +kernel
  · rw [hmore _ result' [libraryTree] hresult' (by simp)]
    decide +kernel

end Analyzer

end ProgramCheck
