import ProgramCheck.Proofs.ImportFaults

/-!
# Warnings taken for errors

A strict configuration takes warnings for errors. A check with it ends as the check with the lenient
one does: it is refused for the same reason, or stops at the same defect, or reports the same errors
and behind them, as errors, what were the warnings. For this to add up, each diagnostic has to stand
in the list of its severity; this is so from the empty report on, whatever the rules report.
-/

namespace ProgramCheck

/-! ### Reports that are in order -/

/-- Whether every diagnostic of a report stands in the list of its severity. -/
structure Report.Filed (r : Report) : Prop where
  errors : ∀ d ∈ r.errors, d.severity = .error
  warnings : ∀ d ∈ r.warnings, d.severity = .warning

namespace Report

theorem filed_empty : Filed {} := ⟨by simp, by simp⟩

theorem filed_ofList (ds : List Diagnostic) : (ofList ds).Filed := by
  constructor
  · intro d hd
    simpa [Diagnostic.isError] using (List.mem_filter.1 hd).2
  · intro d hd
    have hnot := (List.mem_filter.1 hd).2
    cases hs : d.severity with
    | error => simp [Diagnostic.isError, hs] at hnot
    | warning => rfl

theorem Filed.append {r s : Report} (hr : r.Filed) (hs : s.Filed) : (r ++ s).Filed := by
  constructor
  · intro d hd
    rcases List.mem_append.1 hd with hd | hd
    · exact hr.errors d hd
    · exact hs.errors d hd
  · intro d hd
    rcases List.mem_append.1 hd with hd | hd
    · exact hr.warnings d hd
    · exact hs.warnings d hd

theorem Filed.promoteWarnings {r : Report} (hr : r.Filed) : r.promoteWarnings.Filed := by
  constructor
  · intro d hd
    rcases List.mem_append.1 hd with hd | hd
    · exact hr.errors d hd
    · obtain ⟨w, -, rfl⟩ := List.mem_map.1 hd
      rfl
  · intro d hd
    cases hd

end Report

/-- An analysis keeps its report in order, whatever its rules are. -/
theorem Analysis.filed_follow {a a' : Analysis} {stages : List Stage} (ha : a.report.Filed)
    (h : a.follow stages = .ok a') : a'.report.Filed := by
  rw [report_follow h]
  exact ha.append (Report.filed_ofList _)

theorem Analyzer.filed_analyze {analyzer : Analyzer} {c : Compilation} {result : Analysis}
    (h : analyzer.analyze c = .ok result) : result.report.Filed :=
  Analysis.filed_follow Report.filed_empty h

/-! ### Strict checks -/

/-- The configuration with warnings taken for errors. -/
def Config.strict (config : Config) : Config := { config with warningsAsErrors := true }

namespace Compilation

variable {trees : List Tree} {registry : Registry} {analyzer : Analyzer} {config : Config}

/-- The compilation with the warnings of its report made errors. -/
def promoted (c : Compilation) : Compilation := { c with report := c.report.promoteWarnings }

theorem filed_analyzed {c : Compilation} (h : analyzed trees analyzer config = .ok c) :
    c.report.Filed := by
  unfold analyzed at h
  cases ha : analyzer.analyze (ofTrees trees) with
  | error d => simp [ha] at h
  | ok result =>
    have hfiled := Analyzer.filed_analyze ha
    rw [ha] at h
    obtain rfl := Except.ok.inj h
    simp only
    split
    · exact hfiled.promoteWarnings
    · exact hfiled

/-- The rules are led through the same analysis by both configurations. -/
theorem analyzed_strict (h : config.warningsAsErrors = false) :
    analyzed trees analyzer config.strict = (analyzed trees analyzer config).map promoted := by
  unfold analyzed Config.strict
  cases analyzer.analyze (ofTrees trees) with
  | error d => rfl
  | ok result => simp [h, Except.map, promoted]

theorem withConfig_strict_eq (h : config.warningsAsErrors = false) :
    withConfig trees registry config.strict =
      (withConfig trees registry config).map fun checked => checked.map promoted := by
  have hanalyzer : Analyzer.withConfig registry config.strict =
      Analyzer.withConfig registry config := rfl
  cases ha : Analyzer.withConfig registry config with
  | error e =>
    rw [withConfig_of_error (hanalyzer.trans ha), withConfig_of_error ha]
    rfl
  | ok analyzer =>
    rw [withConfig_of_ok (hanalyzer.trans ha), withConfig_of_ok ha]
    exact congrArg Except.ok (analyzed_strict h)

theorem filed_withConfig {c : Compilation} (h : withConfig trees registry config = .ok (.ok c)) :
    c.report.Filed := by
  cases ha : Analyzer.withConfig registry config with
  | error e =>
    rw [withConfig_of_error ha] at h
    cases h
  | ok analyzer =>
    rw [withConfig_of_ok ha] at h
    exact filed_analyzed (Except.ok.inj h)

/-- **A strict check reports the warnings as errors, behind the errors.** It is refused exactly if the
lenient one is, and comes to a defect exactly if the lenient one does. Otherwise it has no warnings,
and its errors are those of the lenient check and then its warnings, in their order, as errors. So it
finds no errors exactly if the lenient one has nothing to report. In both checks every diagnostic
stands in the list of its severity. -/
theorem withConfig_strict (h : config.warningsAsErrors = false) :
    (∀ e, withConfig trees registry config.strict = .error e ↔
      withConfig trees registry config = .error e) ∧
    (∀ d, withConfig trees registry config.strict = .ok (.error d) ↔
      withConfig trees registry config = .ok (.error d)) ∧
    ∀ c, withConfig trees registry config = .ok (.ok c) →
      ∃ c', withConfig trees registry config.strict = .ok (.ok c') ∧
        c'.report.warnings = [] ∧
        c'.report.errors = c.report.errors ++
          c.report.warnings.map (fun d => ⟨.error, d.position, d.message⟩) ∧
        c.report.Filed ∧ c'.report.Filed ∧
        (c'.hasErrors = false ↔ c.report.errors = [] ∧ c.report.warnings = []) := by
  have hstrict : withConfig trees registry config.strict =
      (withConfig trees registry config).map fun checked => checked.map promoted :=
    withConfig_strict_eq h
  refine ⟨fun e => ?_, fun d => ?_, fun c hc => ?_⟩
  · rw [hstrict]
    cases withConfig trees registry config <;> simp [Except.map]
  · rw [hstrict]
    cases withConfig trees registry config with
    | error e => simp [Except.map]
    | ok checked => cases checked <;> simp [Except.map]
  · have hc' : withConfig trees registry config.strict = .ok (.ok c.promoted) := by
      rw [hstrict, hc]
      rfl
    refine ⟨c.promoted, hc', rfl, rfl, filed_withConfig hc, filed_withConfig hc', ?_⟩
    simp [hasErrors, promoted, Report.promoteWarnings]

/-- The two warnings on the imports of a program are the last two errors of the strict check. -/
theorem withConfig_strict_importingTree :
    ∃ c c', withConfig [importingTree] .builtin { disabledRules := ["function-body"] } = .ok (.ok c) ∧
      withConfig [importingTree] .builtin
        { disabledRules := ["function-body"], warningsAsErrors := true } = .ok (.ok c') ∧
      c.report.warnings = [⟨.warning, ⟨3, 1⟩, "Duplicate import of module 'LIB'."⟩,
        ⟨.warning, ⟨5, 1⟩, "Duplicate import of module 'gone'."⟩] ∧
      c'.report.warnings = [] ∧
      c'.report.errors = c.report.errors ++
        [⟨.error, ⟨3, 1⟩, "Duplicate import of module 'LIB'."⟩,
          ⟨.error, ⟨5, 1⟩, "Duplicate import of module 'gone'."⟩] ∧
      c'.hasErrors = true := by
  have hwarnings : (withConfig [importingTree] .builtin
      { disabledRules := ["function-body"] }).toOption.bind (·.toOption.map (·.report.warnings)) =
      some [⟨.warning, ⟨3, 1⟩, "Duplicate import of module 'LIB'."⟩,
        ⟨.warning, ⟨5, 1⟩, "Duplicate import of module 'gone'."⟩] := by
    decide +kernel
  cases hcheck : withConfig [importingTree] .builtin { disabledRules := ["function-body"] } with
  | error e => simp [hcheck, Except.toOption] at hwarnings
  | ok checked =>
    cases checked with
    | error d => simp [hcheck, Except.toOption] at hwarnings
    | ok c =>
      rw [hcheck] at hwarnings
      have hlisted : c.report.warnings = _ := Option.some.inj hwarnings
      have hlenient : Config.warningsAsErrors { disabledRules := ["function-body"] } = false := rfl
      obtain ⟨c', hc', hnone, herrors, -, -, hclean⟩ := (withConfig_strict hlenient).2.2 c hcheck
      rw [hlisted] at herrors hclean
      exact ⟨c, c', rfl, hc', hlisted, hnone, herrors, by simpa using hclean⟩

end Compilation

end ProgramCheck
