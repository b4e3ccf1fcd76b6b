import ProgramCheck.Proofs.CallReports
import ProgramCheck.Proofs.HookLog
import ProgramCheck.Proofs.SharedSink

/-!
# Successive runs

One analyzer, used for several compilations one after the other. Whatever the rules are, the report
of each run is what the replies of this run report, in the order of the walk and at each stage in
the order of the rules, while the rules go on from one run to the next in the states they are in.
-/

namespace ProgramCheck

namespace Analyzer

/-- The analyses of some compilations, one after the other. -/
def analyzeEach (a : Analyzer) : List Compilation → Except Defect (List Analysis)
  | [] => .ok []
  | c :: cs =>
    match a.analyze c with
    | .error d => .error d
    | .ok result =>
      match analyzeEach ⟨result.rules⟩ cs with
      | .error d => .error d
      | .ok results => .ok (result :: results)

/-- The replies in an analysis, in a row for each stage. -/
def rows (a : Analyzer) (c : Compilation) : List (List Reply) :=
  Analysis.rows ⟨a.rules, c, {}⟩ c.stages

/-- The replies in the analyses of some compilations, run by run, up to the first defect. -/
def history (a : Analyzer) : List Compilation → List (List (List Reply))
  | [] => []
  | c :: cs =>
    a.rows c ::
      match a.analyze c with
      | .error _ => []
      | .ok result => history ⟨result.rules⟩ cs

end Analyzer

/-- Whether a table of replies is that of a run of some rules on a compilation with a report. -/
structure Recorded (rules : List Rule) (c : Compilation) (rows : List (List Reply))
    (report : Report) : Prop where
  /-- At each stage of the walk each rule is called once, in the order of the rules. -/
  calls : rows.map (·.map Reply.call) = c.stages.map fun s => rules.map fun r => (r, s)
  /-- A rule sees the compilation as the replies of the run before its own leave it. -/
  seen : c.Seen [] rows.flatten
  /-- The errors are those that the replies report, one reply after the other. -/
  errors : report.errors = (rows.flatten.flatMap Reply.reports).filter (·.isError)
  /-- The warnings are the other diagnostics that the replies report. -/
  warnings : report.warnings = (rows.flatten.flatMap Reply.reports).filter (!·.isError)

namespace Analyzer

/-- The table of an analysis that comes to its end. -/
theorem recorded_rows {a : Analyzer} {c : Compilation} {result : Analysis}
    (h : a.analyze c = .ok result) :
    Recorded (a.rules.map ActiveRule.rule) c (a.rows c) result.report := by
  have hreport := Analysis.report_follow h
  rw [Report.empty_append, Analysis.log_eq_flatten_rows] at hreport
  exact {
    calls := by
      rw [rows, Analysis.map_call_rows h]
      simp [Function.comp_def]
    seen := Analysis.seen_rows rfl
    errors := by rw [hreport]; rfl
    warnings := by rw [hreport]; rfl }

/-- An analysis leaves the rules themselves as they are. -/
theorem map_rule_analyze {a : Analyzer} {c : Compilation} {result : Analysis}
    (h : a.analyze c = .ok result) :
    result.rules.map ActiveRule.rule = a.rules.map ActiveRule.rule :=
  Analysis.map_rule_follow h

theorem analyzeEach_cons_eq_ok {a : Analyzer} {c : Compilation} {cs : List Compilation}
    {results : List Analysis} (h : a.analyzeEach (c :: cs) = .ok results) :
    ∃ result rest, a.analyze c = .ok result ∧ analyzeEach ⟨result.rules⟩ cs = .ok rest ∧
      results = result :: rest ∧ a.history (c :: cs) = a.rows c :: history ⟨result.rules⟩ cs := by
  rw [analyzeEach] at h
  rw [history]
  cases hc : a.analyze c with
  | error d => simp [hc] at h
  | ok result =>
    rw [hc] at h
    cases hcs : analyzeEach ⟨result.rules⟩ cs with
    | error d => simp [hcs] at h
    | ok rest =>
      simp only [hcs, Except.ok.injEq] at h
      exact ⟨result, rest, rfl, hcs, h.symm, rfl⟩

/-- Every run is recorded in its own table. -/
theorem recorded_history {a : Analyzer} {cs : List Compilation} {results : List Analysis}
    (h : a.analyzeEach cs = .ok results) :
    results.length = cs.length ∧ (a.history cs).length = cs.length ∧
      ∀ (k : Nat) (c : Compilation), cs[k]? = some c → ∃ (rows : List (List Reply))
        (result : Analysis), (a.history cs)[k]? = some rows ∧ results[k]? = some result ∧
        Recorded (a.rules.map ActiveRule.rule) c rows result.report := by
  induction cs generalizing a results with
  | nil =>
    cases h
    exact ⟨rfl, rfl, by simp⟩
  | cons c cs ih =>
    obtain ⟨result, rest, hc, hcs, rfl, hhistory⟩ := analyzeEach_cons_eq_ok h
    obtain ⟨hresults, hlength, hruns⟩ := ih hcs
    rw [hhistory]
    refine ⟨by simp [hresults], by simp [hlength], fun k c' hc' => ?_⟩
    cases k with
    | zero =>
      obtain rfl : c = c' := by simpa using hc'
      exact ⟨_, result, rfl, rfl, recorded_rows hc⟩
    | succ k =>
      obtain ⟨rows, result', hrows, hresult, hrecorded⟩ := hruns k c' (by simpa using hc')
      rw [map_rule_analyze hc] at hrecorded
      exact ⟨rows, result', by simpa using hrows, by simpa using hresult, hrecorded⟩

/-- A rule goes on from run to run. -/
theorem gives_column_history {a : Analyzer} {cs : List Compilation} {results : List Analysis}
    (h : a.analyzeEach cs = .ok results) {i : Nat} {r r' : ActiveRule} {before : List Reply}
    (hr : a.rules[i]? = some r) (hbefore : r'.after (before.map Reply.question) = .ok r) :
    r'.Gives before (Analysis.column i (a.history cs).flatten) := by
  induction cs generalizing a results r before with
  | nil => exact along_nil
  | cons c cs ih =>
    obtain ⟨result, rest, hc, hcs, rfl, hhistory⟩ := analyzeEach_cons_eq_ok h
    obtain ⟨hgives, -, r'', hr'', hafter⟩ := Analysis.gives_column_rows hc hr hbefore
    rw [hhistory, List.flatten_cons, Analysis.column, List.filterMap_append]
    exact along_append.2 ⟨hgives, ih hcs hr'' hafter⟩

/-- An engine hands over the same reports, run by run. -/
theorem analyzeEach_engine {a : Analyzer} {cs : List Compilation} {results : List Analysis}
    (h : a.analyzeEach cs = .ok results) (c : Compilation) :
    Engine.analyzeEach ⟨a.rules, c, {}, {}⟩ cs = .ok (results.map Analysis.report) := by
  induction cs generalizing a results c with
  | nil =>
    cases h
    rfl
  | cons c' cs ih =>
    obtain ⟨result, rest, hc, hcs, rfl, -⟩ := analyzeEach_cons_eq_ok h
    rw [Engine.analyzeEach, Engine.analyze_eq, hc]
    simp only [Except.map]
    rw [ih hcs]
    rfl

/-- **The reports of successive runs**: each run of an analyzer reports what the replies of this run
report, in the order of the stages and at each stage of the rules, and an engine that gathers the
reports through one sink hands over the same. At each of its replies a rule is in the state in which
all its replies before leave it, those of earlier runs included. -/
theorem analyzeEach_reports {a : Analyzer} {cs : List Compilation} {results : List Analysis}
    (h : a.analyzeEach cs = .ok results) :
    (∀ c, Engine.analyzeEach ⟨a.rules, c, {}, {}⟩ cs = .ok (results.map Analysis.report)) ∧
    (results.length = cs.length ∧ (a.history cs).length = cs.length ∧
      ∀ (k : Nat) (c : Compilation), cs[k]? = some c → ∃ (rows : List (List Reply))
        (result : Analysis), (a.history cs)[k]? = some rows ∧ results[k]? = some result ∧
        Recorded (a.rules.map ActiveRule.rule) c rows result.report) ∧
    ∀ (i : Nat) (r : ActiveRule), a.rules[i]? = some r →
      r.Gives [] (Analysis.column i (a.history cs).flatten) :=
  ⟨analyzeEach_engine h, recorded_history h, fun _ r hr => gives_column_history h hr r.after_nil⟩

/-- The library, the program that uses it, and the library again: the import of the program cannot
be resolved in its own run, its call can, and the third run knows the module of the first. -/
theorem analyzeEach_reports_library :
    ∃ results, (ofRegistry .builtin).analyzeEach
        [.ofTrees [libraryTree], .ofTrees [mainTree], .ofTrees [libraryTree]] = .ok results ∧
      Engine.analyzeEach ⟨(ofRegistry .builtin).rules, .ofTrees [], {}, {}⟩
          [.ofTrees [libraryTree], .ofTrees [mainTree], .ofTrees [libraryTree]] =
        .ok [{}, ⟨[⟨.error, ⟨1, 1⟩, "Could not resolve import 'LIB'."⟩], []⟩,
          ⟨[⟨.error, ⟨1, 1⟩, "Duplicate module 'Lib'."⟩], []⟩] := by
  have hreports : ((ofRegistry .builtin).analyzeEach
      [.ofTrees [libraryTree], .ofTrees [mainTree], .ofTrees [libraryTree]]).toOption.map
        (·.map Analysis.report) =
      some [{}, ⟨[⟨.error, ⟨1, 1⟩, "Could not resolve import 'LIB'."⟩], []⟩,
        ⟨[⟨.error, ⟨1, 1⟩, "Duplicate module 'Lib'."⟩], []⟩] := by
    decide +kernel
  cases h : (ofRegistry .builtin).analyzeEach
      [.ofTrees [libraryTree], .ofTrees [mainTree], .ofTrees [libraryTree]] with
  | error d => simp [h, Except.toOption] at hreports
  | ok results =>
    rw [h] at hreports
    refine ⟨results, rfl, ?_⟩
    rw [(analyzeEach_reports h).1, ← Option.some.inj hreports]

end Analyzer

end ProgramCheck
