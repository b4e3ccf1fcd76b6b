import Mathlib.Data.List.Forall2
import ProgramCheck.Proofs.SuccessiveRuns
import ProgramCheck.Proofs.TableReads

/-!
# The built-in rules do not interfere

Built-in rules that check a compilation together report what each of them reports on its own: the
report is the merge of the reports of the single rules, stage by stage and at each stage in the order
of the rules. Nothing depends on what the symbol tables keep already. So leaving out a rule leaves out
its findings and nothing else, and another order of the rules changes the order within the stages
only.
-/

namespace ProgramCheck

/-- The built-in rules that are not disabled. -/
def Config.kept (config : Config) (bs : List Builtin) : List Builtin :=
  bs.filter fun b => !config.disabledRules.contains b.name

/-- Row by row what stands in this row of some columns, column by column. -/
def mergeRows {α : Type} (n : Nat) (columns : List (List (List α))) : List (List α) :=
  (List.range n).map fun k => columns.flatMap fun column => column.getD k []

theorem mergeRows_succ {α : Type} (n : Nat) (columns : List (List (List α))) :
    mergeRows (n + 1) columns =
      (columns.flatMap fun column => column.headD []) :: mergeRows n (columns.map List.tail) := by
  rw [mergeRows, List.range_succ_eq_map, List.map_cons, List.map_map, mergeRows]
  congr 1
  · refine List.flatMap_congr fun column _ => ?_
    cases column <;> rfl
  · refine List.map_congr_left fun k _ => ?_
    rw [List.flatMap_map]
    refine List.flatMap_congr fun column _ => ?_
    cases column <;> rfl

/-- The order of the columns changes the order within the rows only. -/
theorem forall₂_perm_mergeRows {α : Type} {n : Nat} {xs ys : List (List (List α))}
    (h : xs.Perm ys) : List.Forall₂ List.Perm (mergeRows n xs) (mergeRows n ys) := by
  rw [mergeRows, mergeRows, List.forall₂_map_left_iff, List.forall₂_map_right_iff]
  exact List.forall₂_same.2 fun k _ => h.flatMap_right _

/-! ### Findings by stages -/

/-- The findings of some built-in rules along some stages behind a history, in a row for each
stage. -/
def findingRows (bs : List Builtin) (trees : List Tree) :
    List Stage → List Stage → List (List Finding)
  | _, [] => []
  | history, s :: stages =>
    match s.step with
    | .defect _ => []
    | .visit v =>
      findingsAt bs trees history s.place s.tree v :: findingRows bs trees (history ++ [s]) stages

section Rows

variable {trees : List Tree} {history stages : List Stage}

/-- The reports of some rules are merged from the reports of the single rules. -/
theorem findingRows_merge (bs : List Builtin) (h : AllVisits stages) :
    (findingRows bs trees history stages).map (·.flatMap Finding.reports) =
      mergeRows stages.length (bs.map fun b =>
        (findingRows [b] trees history stages).map (·.flatMap Finding.reports)) := by
  induction stages generalizing history with
  | nil => rfl
  | cons s stages ih =>
    obtain ⟨v, hv⟩ := h s List.mem_cons_self
    simp only [findingRows, hv, List.map_cons, List.length_cons, mergeRows_succ, List.flatMap_map,
      List.map_map, ih fun s hs => h s (List.mem_cons_of_mem _ hs)]
    refine congrArg₂ List.cons ?_ rfl
    simp only [findingsAt, List.flatMap_map, List.headD_cons, List.map_cons, List.map_nil,
      List.flatMap_singleton]

/-- The findings of the rules whose names are among some are those among the findings of all. -/
theorem findingRows_filter (bs : List Builtin) (p : String → Bool) :
    findingRows (bs.filter fun b => p b.name) trees history stages =
      (findingRows bs trees history stages).map (·.filter fun x => p x.rule) := by
  induction stages generalizing history with
  | nil => rfl
  | cons s stages ih =>
    rw [findingRows, findingRows]
    cases s.step with
    | defect d => rfl
    | visit v =>
      simp only [List.map_cons, ih, findingsAt, List.filter_map]
      rfl

end Rows

/-- What built-in rules reply along stages without a defect, whatever the symbol tables keep. -/
theorem Analysis.rows_builtin (bs : List Builtin) {c : Compilation} {r : Report}
    {history stages : List Stage} (hvisits : AllVisits stages)
    (hhoused : Housed (history ++ stages)) :
    (rows ⟨bs.map (·.activeAfter history), c, r⟩ stages).map (·.map Reply.finding) =
      findingRows bs c.trees history stages := by
  induction stages generalizing history c r with
  | nil => rfl
  | cons s stages ih =>
    obtain ⟨v, hv⟩ := hvisits s List.mem_cons_self
    obtain ⟨place, t, step⟩ := s
    obtain rfl : step = .visit v := hv
    have hsplit : history ++ ⟨place, t, .visit v⟩ :: stages =
        history ++ [⟨place, t, .visit v⟩] ++ stages := by simp
    rw [hsplit] at hhoused
    obtain ⟨c', r', hadvance, htrees, hreplies⟩ :=
      advance_builtin bs (c := c) (r := r) (housed_append_iff.1 hhoused).1
    have hrest := ih (c := c') (r := r') (fun s hs => hvisits s (List.mem_cons_of_mem _ hs)) hhoused
    rw [htrees] at hrest
    simp only [rows, hadvance, List.map_cons, hrest, findingRows]
    exact congrArg (· :: _) hreplies

theorem Compilation.stages_congr {c c' : Compilation} (h : c'.trees = c.trees) :
    c'.stages = c.stages := by
  rw [stages, stages, h]

namespace Analyzer

variable {bs : List Builtin} {c : Compilation}

/-- What is reported at each stage of a walk. -/
def reportRows (a : Analyzer) (c : Compilation) : List (List Diagnostic) :=
  (a.rows c).map (·.flatMap Reply.reports)

/-- What is found at each stage of a walk. -/
def findingRows (a : Analyzer) (c : Compilation) : List (List Finding) :=
  (a.rows c).map (·.map Reply.finding)

theorem reportRows_eq (a : Analyzer) (c : Compilation) :
    a.reportRows c = (a.findingRows c).map (·.flatMap Finding.reports) := by
  rw [reportRows, findingRows, List.map_map]
  refine List.map_congr_left fun row _ => ?_
  rw [Function.comp_apply, List.flatMap_map]
  rfl

theorem findingRows_ofBuiltin (bs : List Builtin) (h : AllVisits c.stages) :
    (ofBuiltin bs).findingRows c = ProgramCheck.findingRows bs c.trees [] c.stages := by
  have hhoused : Housed ([] ++ c.stages) := c.housed_stages
  rw [findingRows, rows, rules_ofBuiltin]
  exact Analysis.rows_builtin bs h hhoused

/-- Built-in rules come to the end of a walk without a defect, and report what their rows hold. -/
theorem exists_analyze_builtin (bs : List Builtin) (h : AllVisits c.stages) :
    ∃ result, (ofBuiltin bs).analyze c = .ok result ∧
      Recorded (bs.map (·.rule)) c ((ofBuiltin bs).rows c) result.report ∧
      result.report = Report.ofList ((ofBuiltin bs).reportRows c).flatten := by
  obtain ⟨result, hresult, -, -⟩ := analyze_builtin bs h
  have hrules : (ofBuiltin bs).rules.map ActiveRule.rule = bs.map (·.rule) := by
    rw [rules_ofBuiltin, List.map_map]
    rfl
  have hreport := Analysis.report_follow hresult
  rw [Report.empty_append, Analysis.log_eq_flatten_rows, List.flatMap_def, List.map_flatten,
    List.flatten_flatten, List.map_map] at hreport
  exact ⟨result, hresult, hrules ▸ recorded_rows hresult, hreport⟩

/-- The analyzer that is left when some built-in rules are disabled. -/
theorem withConfig_eq_ok_iff {config : Config} {analyzer : Analyzer} :
    Analyzer.withConfig (bs.map (·.rule)) config = .ok analyzer ↔
      (∀ name ∈ config.disabledRules, ∃ b ∈ bs, b.name = name) ∧
        analyzer = ofBuiltin (config.kept bs) := by
  have hknown : unknownRule? (bs.map (·.rule)) config.disabledRules = none ↔
      ∀ name ∈ config.disabledRules, ∃ b ∈ bs, b.name = name := by
    rw [unknownRule?_eq_none_iff]
    simp [Registry.names, Builtin.name]
  rw [Analyzer.withConfig, ← hknown]
  cases unknownRule? (bs.map (·.rule)) config.disabledRules with
  | some name => simp
  | none =>
    have hfilter : (bs.map (·.rule)).filter (fun r => !config.disabledRules.contains r.name) =
        (config.kept bs).map (·.rule) := List.filter_map
    rw [hfilter]
    simp [ofBuiltin, eq_comm]

/-- Built-in rules report together what is merged from what they report alone. -/
theorem reportRows_merge (bs : List Builtin) (h : AllVisits c.stages)
    {alone : Builtin → Compilation} (halone : ∀ b, (alone b).trees = c.trees) :
    (ofBuiltin bs).reportRows c =
      mergeRows c.stages.length (bs.map fun b => (ofBuiltin [b]).reportRows (alone b)) := by
  rw [reportRows_eq, findingRows_ofBuiltin bs h, findingRows_merge bs h]
  refine congrArg (mergeRows _) (List.map_congr_left fun b _ => ?_)
  have hstages := Compilation.stages_congr (halone b)
  rw [reportRows_eq, findingRows_ofBuiltin [b] (hstages ▸ h), hstages, halone b]

/-- Disabling rules takes away their findings and leaves the others as they are. -/
theorem findingRows_disabled (bs : List Builtin) (p : String → Bool) (h : AllVisits c.stages)
    {full : Compilation} (hfull : full.trees = c.trees) :
    (ofBuiltin (bs.filter fun b => p b.name)).findingRows c =
      ((ofBuiltin bs).findingRows full).map (·.filter fun x => p x.rule) := by
  have hstages := Compilation.stages_congr hfull
  rw [findingRows_ofBuiltin _ h, findingRows_ofBuiltin bs (hstages ▸ h), hstages, hfull,
    findingRows_filter]

/-- Another order of the rules changes the order of the reports within the stages only. -/
theorem reportRows_perm {bs' : List Builtin} (hperm : bs'.Perm bs) (h : AllVisits c.stages)
    {c' : Compilation} (hc' : c'.trees = c.trees) :
    List.Forall₂ List.Perm ((ofBuiltin bs').reportRows c') ((ofBuiltin bs).reportRows c) := by
  have hstages := Compilation.stages_congr hc'
  rw [reportRows_merge bs' (hstages ▸ h) fun _ => rfl, reportRows_merge bs h fun _ => hc', hstages]
  exact forall₂_perm_mergeRows (hperm.map _)

/-- **The built-in rules do not interfere.** Whatever the symbol tables keep, what is reported at each
stage is merged, in the order of the rules, from what each rule that is not disabled reports there
when it is the only one. So disabling a rule takes away its findings only, and another order of the
rules changes the order within the stages only. -/
theorem withConfig_independent {config : Config} {analyzer : Analyzer}
    {alone : Builtin → Compilation}
    (hconfig : Analyzer.withConfig (bs.map (·.rule)) config = .ok analyzer)
    (hvisits : AllVisits c.stages) (halone : ∀ b, (alone b).trees = c.trees) :
    (∀ c' : Compilation, c'.ReadsTrees) ∧
    (∃ result, analyzer.analyze c = .ok result ∧
      Recorded ((config.kept bs).map (·.rule)) c (analyzer.rows c) result.report ∧
      result.report = Report.ofList (analyzer.reportRows c).flatten) ∧
    (∀ b, ∃ result, (ofRegistry [b.rule]).analyze (alone b) = .ok result ∧
      Recorded [b.rule] (alone b) ((ofRegistry [b.rule]).rows (alone b)) result.report ∧
      result.report = Report.ofList ((ofRegistry [b.rule]).reportRows (alone b)).flatten) ∧
    analyzer.reportRows c = mergeRows c.stages.length
      ((config.kept bs).map fun b => (ofRegistry [b.rule]).reportRows (alone b)) ∧
    (∀ full : Compilation, full.trees = c.trees →
      analyzer.findingRows c = ((ofRegistry (bs.map (·.rule))).findingRows full).map
        (·.filter fun x => !config.disabledRules.contains x.rule)) ∧
    ∀ (bs' : List Builtin) (c' : Compilation), bs'.Perm bs → c'.trees = c.trees →
      ∃ analyzer', Analyzer.withConfig (bs'.map (·.rule)) config = .ok analyzer' ∧
        List.Forall₂ List.Perm (analyzer'.reportRows c') (analyzer.reportRows c) := by
  obtain ⟨hknown, rfl⟩ := withConfig_eq_ok_iff.1 hconfig
  refine ⟨Compilation.readsTrees, exists_analyze_builtin _ hvisits, fun b => ?_,
    reportRows_merge _ hvisits halone, fun full hfull => ?_, fun bs' c' hperm hc' => ?_⟩
  · have hstages := Compilation.stages_congr (halone b)
    exact exists_analyze_builtin [b] (hstages ▸ hvisits)
  · exact findingRows_disabled bs (fun name => !config.disabledRules.contains name) hvisits hfull
  · refine ⟨_, withConfig_eq_ok_iff.2 ⟨fun name hname => ?_, rfl⟩, ?_⟩
    · obtain ⟨b, hb, heq⟩ := hknown name hname
      exact ⟨b, hperm.mem_iff.2 hb, heq⟩
    · exact reportRows_perm (hperm.filter _) hvisits hc'

/-- Two instances of the rule on calls, with the rule on imports disabled between them, and the same
rule alone on a compilation that has been consulted before. -/
theorem withConfig_independent_mainTree :
    ∃ analyzer, Analyzer.withConfig
        ([Builtin.callVisibility, .importResolution, .callVisibility].map (·.rule))
        { disabledRules := ["import"] } = .ok analyzer ∧
      AllVisits (Compilation.ofTrees [mainTree]).stages ∧
      (((Compilation.ofTrees [mainTree]).consult [(0, 3), (0, 4)]).cachedSizes = [2]) ∧
      analyzer.reportRows (.ofTrees [mainTree]) =
        mergeRows (Compilation.ofTrees [mainTree]).stages.length
          ([Builtin.callVisibility, .callVisibility].map fun b =>
            (ofRegistry [b.rule]).reportRows
              ((Compilation.ofTrees [mainTree]).consult [(0, 3), (0, 4)])) ∧
      (analyzer.reportRows (.ofTrees [mainTree])).flatten =
        [mainTree.error 1 "Tried to call unknown function 'twice'.",
          mainTree.error 1 "Tried to call unknown function 'twice'."] := by
  have hconfig : Analyzer.withConfig
      ([Builtin.callVisibility, .importResolution, .callVisibility].map (·.rule))
      { disabledRules := ["import"] } = .ok (ofBuiltin [.callVisibility, .callVisibility]) := by
    rfl
  have hvisits : AllVisits (Compilation.ofTrees [mainTree]).stages := by
    refine allVisits_of_wellKinded fun t ht => ?_
    obtain rfl : t = mainTree := by simpa using ht
    decide +kernel
  obtain ⟨-, -, -, hmerge, -, -⟩ := withConfig_independent hconfig hvisits
    (fun _ => Compilation.trees_consult (.ofTrees [mainTree]) [(0, 3), (0, 4)])
  exact ⟨_, hconfig, hvisits, by decide +kernel, hmerge, by decide +kernel⟩

end Analyzer

end ProgramCheck
