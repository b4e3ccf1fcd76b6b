import ProgramCheck.Proofs.NodeReports
import ProgramCheck.Proofs.SuccessiveRuns

/-!
# Several runs joined into one

A rule is local if it sees nothing of a compilation but the tree that is walked. Local rules cannot
tell whether a tree is checked in the run of the trees before it or in a run of its own. So the
trees of several compilations, checked one compilation after the other, have the reports that they
have when they are checked in one compilation. Of the built-in rules only the one on imports is not
local.
-/

namespace ProgramCheck

/-- Results that are the same behind two functions are both failures, or both not. -/
theorem error_or_ok_of_map_eq {ε α β γ : Type*} {f : α → γ} {g : β → γ} {x : Except ε α}
    {y : Except ε β} (h : x.map f = y.map g) :
    (∃ e, x = .error e ∧ y = .error e) ∨ ∃ a b, x = .ok a ∧ y = .ok b ∧ f a = g b := by
  cases x with
  | error e =>
    cases y with
    | error e' =>
      cases h
      exact Or.inl ⟨e, rfl, rfl⟩
    | ok b => cases h
  | ok a =>
    cases y with
    | error e => cases h
    | ok b => exact Or.inr ⟨a, b, rfl, rfl, Except.ok.inj h⟩

/-- What a response makes known: the next state and the reports, without the nodes consulted. -/
def Response.told {σ : Type} (x : Response σ) : σ × List Diagnostic := (x.state, x.reports)

/-- Whether a rule answers by the tree that is walked, whatever else the compilation holds and
wherever in it the tree stands. -/
def Rule.Local (r : Rule) : Prop :=
  ∀ (t : Tree) (c c' : Compilation) (place place' : Nat) (v : Visit) (state : r.State),
    (r.respond ⟨c, place, t⟩ v state).map Response.told =
      (r.respond ⟨c', place', t⟩ v state).map Response.told

theorem Builtin.local_rule {b : Builtin} (h : b ≠ .importResolution) : b.rule.Local := by
  intro t c c' place place' v state
  cases b with
  | importResolution => exact absurd rfl h
  | valueType =>
    obtain ⟨id, subject⟩ := v
    cases subject with
    | statement s => cases s <;> rfl
    | _ => rfl
  | _ => rfl

/-- In whatever states some local rules are, they are local. -/
theorem local_of_map_rule_eq {rules rules' : List ActiveRule} (h : ∀ x ∈ rules, x.rule.Local)
    (heq : rules'.map ActiveRule.rule = rules.map ActiveRule.rule) :
    ∀ x ∈ rules', x.rule.Local :=
  List.forall_mem_map.1 (heq ▸ List.forall_mem_map.2 h)

/-! ### Local rules along a walk -/

/-- Whether two stages are the same step through the same tree, whatever the place of the tree. -/
def Stage.SameStep (s s' : Stage) : Prop := s'.tree = s.tree ∧ s'.step = s.step

theorem forall₂_sameStep_stagesFrom (place place' : Nat) (ts : List Tree) :
    List.Forall₂ Stage.SameStep (stagesFrom place ts) (stagesFrom place' ts) := by
  induction ts generalizing place place' with
  | nil => exact List.Forall₂.nil
  | cons t ts ih =>
    rw [stagesFrom_cons, stagesFrom_cons]
    refine List.rel_append ?_ (ih (place + 1) (place' + 1))
    rw [Tree.stages, Tree.stages, List.forall₂_map_left_iff, List.forall₂_map_right_iff]
    exact List.forall₂_same.2 fun _ _ => ⟨rfl, rfl⟩

namespace Analysis

/-- What an analysis has come to behind an earlier report: the rules with their states, and the two
reports in one. -/
def outcomeAfter (r : Report) (a : Analysis) : List ActiveRule × Report := (a.rules, r ++ a.report)

variable {rules : List ActiveRule} {c c' : Compilation} {r s : Report}

theorem answer_local (h : ∀ x ∈ rules, x.rule.Local) (t : Tree) (v : Visit) (place place' : Nat)
    (c c' : Compilation) :
    (answer place t v rules c).map (outcomeAfter {}) =
      (answer place' t v rules c').map (outcomeAfter {}) := by
  induction rules generalizing c c' with
  | nil => rfl
  | cons x rules ih =>
    rw [List.forall_mem_cons] at h
    rw [answer, answer]
    rcases error_or_ok_of_map_eq (h.1 t c c' place place' v x.state) with
      ⟨d, hx, hx'⟩ | ⟨y, y', hx, hx', htold⟩
    · rw [hx, hx']
    · obtain ⟨hstate, hreports⟩ := Prod.mk.inj htold
      rw [hx, hx']
      rcases error_or_ok_of_map_eq (ih h.2 (c.consult y.consulted) (c'.consult y'.consulted)) with
        ⟨d, hrest, hrest'⟩ | ⟨a, a', hrest, hrest', houtcome⟩
      · simp only [hrest, hrest']
      · obtain ⟨hrules, hreport⟩ := Prod.mk.inj houtcome
        rw [Report.empty_append, Report.empty_append] at hreport
        simp only [hrest, hrest', Except.map, outcomeAfter, hstate, hreports, hrules, hreport]

/-- A step of local rules, from a report that is the end of another one. -/
theorem advance_local (h : ∀ x ∈ rules, x.rule.Local) {stage stage' : Stage}
    (hstage : stage.SameStep stage') :
    (advance ⟨rules, c, r ++ s⟩ stage).map (outcomeAfter {}) =
      (advance ⟨rules, c', s⟩ stage').map (outcomeAfter r) := by
  obtain ⟨place, t, step⟩ := stage
  obtain ⟨place', t', step'⟩ := stage'
  obtain ⟨rfl, rfl⟩ : t' = t ∧ step' = step := hstage
  cases step' with
  | defect d => rfl
  | visit v =>
    simp only [advance]
    rcases error_or_ok_of_map_eq (answer_local h t' v place place' c c') with
      ⟨d, hx, hx'⟩ | ⟨a, a', hx, hx', houtcome⟩
    · rw [hx, hx']
      rfl
    · obtain ⟨hrules, hreport⟩ := Prod.mk.inj houtcome
      rw [Report.empty_append, Report.empty_append] at hreport
      simp only [hx, hx', Except.map, outcomeAfter, hrules, hreport, Report.empty_append,
        Report.append_assoc]

/-- Local rules come to the same outcome along the same steps, from any compilation. -/
theorem follow_local {stages stages' : List Stage}
    (hstages : List.Forall₂ Stage.SameStep stages stages') (h : ∀ x ∈ rules, x.rule.Local) :
    (follow ⟨rules, c, r ++ s⟩ stages).map (outcomeAfter {}) =
      (follow ⟨rules, c', s⟩ stages').map (outcomeAfter r) := by
  induction hstages generalizing rules c c' s with
  | nil => rfl
  | cons hstage _ ih =>
    rw [follow, follow]
    rcases error_or_ok_of_map_eq (advance_local h hstage) with
      ⟨d, hx, hx'⟩ | ⟨a, a', hx, hx', houtcome⟩
    · rw [hx, hx']
      rfl
    · have hlocal := local_of_map_rule_eq h (map_rule_advance hx)
      obtain ⟨rules', c₁, report⟩ := a
      obtain ⟨rules'', c₂, report'⟩ := a'
      obtain ⟨hrules, hreport⟩ := Prod.mk.inj houtcome
      obtain rfl : rules' = rules'' := hrules
      obtain rfl : report = r ++ report' := hreport
      rw [hx, hx']
      exact ih hlocal

end Analysis

/-! ### Local rules in several runs -/

/-- Some reports in one, in their order. -/
def Report.join (reports : List Report) : Report := reports.foldr (· ++ ·) {}

@[simp] theorem Report.errors_join (reports : List Report) :
    (join reports).errors = reports.flatMap Report.errors := by
  induction reports with
  | nil => rfl
  | cons r reports ih =>
    rw [List.flatMap_cons, ← ih]
    rfl

@[simp] theorem Report.warnings_join (reports : List Report) :
    (join reports).warnings = reports.flatMap Report.warnings := by
  induction reports with
  | nil => rfl
  | cons r reports ih =>
    rw [List.flatMap_cons, ← ih]
    rfl

namespace Analyzer

open Analysis

/-- The run of local rules on some trees is the run on the first of them, and behind it the run on
the others by the rules as the first run leaves them. -/
theorem analyze_append {a : Analyzer} (h : ∀ x ∈ a.rules, x.rule.Local) {c c₁ c₂ : Compilation}
    (hc : c.trees = c₁.trees ++ c₂.trees) :
    (a.analyze c).map (outcomeAfter {}) =
      match a.analyze c₁ with
      | .error d => .error d
      | .ok first => (analyze ⟨first.rules⟩ c₂).map (outcomeAfter first.report) := by
  have hfirst : (follow ⟨a.rules, c, {}⟩ (stagesFrom 0 c₁.trees)).map (outcomeAfter {}) =
      (a.analyze c₁).map (outcomeAfter {}) := by
    rw [analyze, c₁.stages_eq]
    exact follow_local (r := {}) (s := {}) (forall₂_sameStep_stagesFrom 0 0 c₁.trees) h
  rw [analyze, c.stages_eq, hc, stagesFrom_append, follow_append]
  rcases error_or_ok_of_map_eq hfirst with ⟨d, hx, hx'⟩ | ⟨b, first, hx, hx', houtcome⟩
  · rw [hx, hx']
    rfl
  · have hlocal := local_of_map_rule_eq h (map_rule_analyze hx')
    obtain ⟨rules, c', report⟩ := b
    obtain ⟨hrules, hreport⟩ := Prod.mk.inj houtcome
    obtain rfl : rules = first.rules := hrules
    obtain rfl : report = first.report ++ {} := hreport.trans (Report.append_empty _).symm
    rw [hx, hx']
    simp only [analyze, c₂.stages_eq]
    exact follow_local (forall₂_sameStep_stagesFrom _ 0 c₂.trees) hlocal

/-- **Runs of local rules join**: one analyzer that checks several compilations in turn reports in
all what it reports on one compilation of all their trees, and it fails if and only if it fails
there, with the same defect. -/
theorem report_analyze_flatMap {a : Analyzer} (h : ∀ x ∈ a.rules, x.rule.Local)
    {cs : List Compilation} {c : Compilation} (hc : c.trees = cs.flatMap Compilation.trees) :
    (a.analyze c).map Analysis.report =
      (a.analyzeEach cs).map fun results => Report.join (results.map Analysis.report) := by
  induction cs generalizing a c with
  | nil =>
    have hstages : c.stages = [] := by rw [c.stages_eq, hc]; rfl
    rw [analyze, hstages]
    rfl
  | cons c₁ cs ih =>
    have hrest := Compilation.trees_ofTrees (cs.flatMap Compilation.trees)
    have htrees : c.trees =
        c₁.trees ++ (Compilation.ofTrees (cs.flatMap Compilation.trees)).trees := by
      rw [hc, hrest, List.flatMap_cons]
    have hreport : (a.analyze c).map Analysis.report =
        ((a.analyze c).map (outcomeAfter {})).map Prod.snd := by
      cases a.analyze c <;> rfl
    rw [hreport, analyze_append h htrees, analyzeEach]
    cases hfirst : a.analyze c₁ with
    | error d => rfl
    | ok first =>
      have hlocal : ∀ x ∈ (⟨first.rules⟩ : Analyzer).rules, x.rule.Local :=
        local_of_map_rule_eq h (map_rule_analyze hfirst)
      simp only
      rcases error_or_ok_of_map_eq (ih hlocal hrest) with
        ⟨d, hx, hx'⟩ | ⟨b, results, hx, hx', hjoin⟩
      · rw [hx, hx']
        rfl
      · rw [hx, hx']
        simp only [Except.map, outcomeAfter, hjoin]
        rfl

/-- **Parts of a compilation**: an analyzer of built-in rules without the one on imports, run on
several compilations in turn, reports together what it reports on one compilation of all their
trees. So what is reported on some trees comes first in the report on these and more trees. -/
theorem analyze_of_parts {bs : List Builtin} {cs : List Compilation} {c : Compilation}
    (himport : .importResolution ∉ bs) (hc : c.trees = cs.flatMap Compilation.trees)
    (hvisits : ∀ part ∈ cs, AllVisits part.stages) :
    ∃ results a, (ofBuiltin bs).analyzeEach cs = .ok results ∧ (ofBuiltin bs).analyze c = .ok a ∧
      a.report.errors = results.flatMap (·.report.errors) ∧
      a.report.warnings = results.flatMap (·.report.warnings) ∧
      ∀ (first : Compilation) (more : List Tree), c.trees = first.trees ++ more →
        ∃ a', (ofBuiltin bs).analyze first = .ok a' ∧
          a'.report.errors <+: a.report.errors ∧ a'.report.warnings <+: a.report.warnings := by
  have hlocal : ∀ x ∈ (ofBuiltin bs).rules, x.rule.Local := by
    rw [rules_ofBuiltin, List.forall_mem_map]
    exact fun b hb => Builtin.local_rule (ne_of_mem_of_not_mem hb himport)
  have hall : AllVisits c.stages := by
    rw [Compilation.allVisits_iff, hc]
    intro t ht
    obtain ⟨part, hpart, ht⟩ := List.mem_flatMap.1 ht
    exact Compilation.allVisits_iff.1 (hvisits part hpart) t ht
  obtain ⟨a, ha, -, -⟩ := analyze_builtin bs hall
  -- the reports of any division of the trees into parts join to the report on all of them
  have hjoin : ∀ cs : List Compilation, c.trees = cs.flatMap Compilation.trees →
      ∃ results, (ofBuiltin bs).analyzeEach cs = .ok results ∧
        a.report = Report.join (results.map Analysis.report) := by
    intro cs hc
    rcases error_or_ok_of_map_eq (report_analyze_flatMap hlocal hc) with
      ⟨d, hx, -⟩ | ⟨a', results, hx, hresults, hreport⟩
    · rw [ha] at hx
      cases hx
    · rw [ha] at hx
      cases hx
      exact ⟨results, hresults, hreport⟩
  obtain ⟨results, hresults, hreport⟩ := hjoin cs hc
  refine ⟨results, a, hresults, ha, by rw [hreport, Report.errors_join, List.flatMap_map],
    by rw [hreport, Report.warnings_join, List.flatMap_map], fun first more hmore => ?_⟩
  obtain ⟨parts, hparts, hreport⟩ := hjoin [first, .ofTrees more] (by simp [hmore])
  obtain ⟨a', rest, ha', -, rfl, -⟩ := analyzeEach_cons_eq_ok hparts
  rw [hreport, Report.errors_join, Report.warnings_join]
  exact ⟨a', ha', List.prefix_append _ _, List.prefix_append _ _⟩

/-- All the built-in rules but the one on imports, on the library, on the program that uses it, and
on the library again: it repeats a module whether it is in a run of its own or not. -/
theorem analyze_of_parts_library :
    .importResolution ∉ Builtin.all.filter (· ≠ .importResolution) ∧
    (Compilation.ofTrees [libraryTree, mainTree, libraryTree]).trees =
      [Compilation.ofTrees [libraryTree], .ofTrees [mainTree], .ofTrees [libraryTree]].flatMap
        Compilation.trees ∧
    (∀ part ∈ [Compilation.ofTrees [libraryTree], .ofTrees [mainTree], .ofTrees [libraryTree]],
      AllVisits part.stages) ∧
    ∃ results a,
      (ofBuiltin (Builtin.all.filter (· ≠ .importResolution))).analyzeEach
        [.ofTrees [libraryTree], .ofTrees [mainTree], .ofTrees [libraryTree]] = .ok results ∧
      (ofBuiltin (Builtin.all.filter (· ≠ .importResolution))).analyze
        (.ofTrees [libraryTree, mainTree, libraryTree]) = .ok a ∧
      results.map (·.report.errors) = [[], [], [⟨.error, ⟨1, 1⟩, "Duplicate module 'Lib'."⟩]] ∧
      a.report.errors = [⟨.error, ⟨1, 1⟩, "Duplicate module 'Lib'."⟩] := by
  have himport : .importResolution ∉ Builtin.all.filter (· ≠ .importResolution) := by decide
  have htrees : (Compilation.ofTrees [libraryTree, mainTree, libraryTree]).trees =
      [Compilation.ofTrees [libraryTree], .ofTrees [mainTree], .ofTrees [libraryTree]].flatMap
        Compilation.trees := rfl
  have hkinded : ∀ part ∈ [Compilation.ofTrees [libraryTree], .ofTrees [mainTree],
      .ofTrees [libraryTree]], ∀ t ∈ part.trees, t.WellKinded := by decide +kernel
  have hvisits : ∀ part ∈ [Compilation.ofTrees [libraryTree], .ofTrees [mainTree],
      .ofTrees [libraryTree]], AllVisits part.stages :=
    fun part hpart => allVisits_of_wellKinded (hkinded part hpart)
  refine ⟨himport, htrees, hvisits, ?_⟩
  obtain ⟨results, a, hresults, ha, herrors, -, -⟩ := analyze_of_parts himport htrees hvisits
  have hruns : ((ofBuiltin (Builtin.all.filter (· ≠ .importResolution))).analyzeEach
      [.ofTrees [libraryTree], .ofTrees [mainTree], .ofTrees [libraryTree]]).toOption.map
        (·.map (·.report.errors)) =
      some [[], [], [⟨.error, ⟨1, 1⟩, "Duplicate module 'Lib'."⟩]] := by
    decide +kernel
  rw [hresults] at hruns
  have hparts : results.map (·.report.errors) =
      [[], [], [⟨.error, ⟨1, 1⟩, "Duplicate module 'Lib'."⟩]] := Option.some.inj hruns
  refine ⟨results, a, hresults, ha, hparts, ?_⟩
  rw [herrors, List.flatMap_def, hparts]
  rfl

end Analyzer

end ProgramCheck
