import ProgramCheck.Rule.Builtin

/-!
# Analyzers

An analyzer holds rules with their states and leads them through the walk of a compilation, tree by
tree. At every visit the rules answer in their order; what they report is added to one report, and
the symbols that they consulted are kept in the tables of the compilation before the next rule
answers. Rules go on from where they are when the analyzer is used again. A defect, of the walk or
of a rule, ends the analysis.
-/

namespace ProgramCheck

/-- Which rules an analyzer leaves out, and whether a compilation takes warnings for errors. -/
structure Config where
  disabledRules : List String := []
  warningsAsErrors : Bool := false
  deriving DecidableEq, Inhabited

/-- The rules of an analysis with their states. -/
structure Analyzer where
  rules : List ActiveRule

/-- An analysis on its way: the rules with their states, the compilation with its tables, and the
report so far. -/
structure Analysis where
  rules : List ActiveRule
  compilation : Compilation
  report : Report := {}

/-- A step of the walk through a compilation, in the tree at a place. -/
structure Stage where
  place : Nat
  tree : Tree
  step : Step

namespace Analyzer

/-- The analyzer of all rules of a registry. -/
def ofRegistry (registry : Registry) : Analyzer := ⟨registry.map (·.activate)⟩

/-- The first listed name that no rule of the registry has. -/
def unknownRule? (registry : Registry) (names : List String) : Option String :=
  names.find? fun name => !registry.any (·.name == name)

theorem any_name_eq_true_iff {registry : Registry} {name : String} :
    (registry.any (·.name == name)) = true ↔ name ∈ registry.names := by
  simp [Registry.names]

theorem unknownRule?_eq_none_iff {registry : Registry} {names : List String} :
    unknownRule? registry names = none ↔ ∀ name ∈ names, name ∈ registry.names := by
  simp only [unknownRule?, List.find?_eq_none, Bool.not_eq_true', Bool.not_eq_false,
    any_name_eq_true_iff]

/-- The name that is found unknown is the first one: all those in front of it are known. -/
theorem unknownRule?_eq_some_iff {registry : Registry} {names : List String} {name : String} :
    unknownRule? registry names = some name ↔ ∃ before after, names = before ++ name :: after ∧
      (∀ known ∈ before, known ∈ registry.names) ∧ name ∉ registry.names := by
  simp only [unknownRule?, List.find?_eq_some_iff_append, Bool.not_not, any_name_eq_true_iff,
    Bool.not_eq_true', ← Bool.not_eq_true]
  constructor
  · rintro ⟨hname, before, after, hnames, hbefore⟩
    exact ⟨before, after, hnames, hbefore, hname⟩
  · rintro ⟨before, after, hnames, hbefore, hname⟩
    exact ⟨hname, before, after, hnames, hbefore⟩

/-- The analyzer of the rules of a registry that are not disabled, unless a name among the disabled
ones is no rule's. -/
def withConfig (registry : Registry) (config : Config) : Except Refusal Analyzer :=
  match unknownRule? registry config.disabledRules with
  | some name => .error (.unknownRule name)
  | none => .ok (ofRegistry (registry.filter fun r => !config.disabledRules.contains r.name))

/-- The names of the rules in their order. -/
def ruleNames (a : Analyzer) : List String := a.rules.map (·.rule.name)

end Analyzer

/-- The stages of the walk through a tree at a place. -/
def Tree.stages (place : Nat) (t : Tree) : List Stage := t.steps.map fun step => ⟨place, t, step⟩

/-- The stages of the walk through a compilation, tree by tree. -/
def Compilation.stages (c : Compilation) : List Stage :=
  (c.trees.mapIdx fun place t => t.stages place).flatten

namespace Analysis

/-- The answers of some rules to a visit, given in order from a compilation. -/
def answer (place : Nat) (t : Tree) (v : Visit) :
    List ActiveRule → Compilation → Except Defect Analysis
  | [], c => .ok ⟨[], c, {}⟩
  | r :: rules, c =>
    match r.rule.respond ⟨c, place, t⟩ v r.state with
    | .error d => .error d
    | .ok response =>
      match answer place t v rules (c.consult response.consulted) with
      | .error d => .error d
      | .ok rest =>
        .ok {
          rules := ⟨r.rule, response.state⟩ :: rest.rules
          compilation := rest.compilation
          report := Report.ofList response.reports ++ rest.report }

/-- The analysis after one more stage. -/
def advance (a : Analysis) (stage : Stage) : Except Defect Analysis :=
  match stage.step with
  | .defect d => .error d
  | .visit v =>
    match answer stage.place stage.tree v a.rules a.compilation with
    | .error d => .error d
    | .ok next => .ok { next with report := a.report ++ next.report }

/-- The analysis after some more stages. -/
def follow (a : Analysis) : List Stage → Except Defect Analysis
  | [] => .ok a
  | stage :: stages =>
    match a.advance stage with
    | .error d => .error d
    | .ok a' => a'.follow stages

@[simp] theorem follow_nil (a : Analysis) : a.follow [] = .ok a := rfl

theorem follow_append (a : Analysis) (xs ys : List Stage) :
    a.follow (xs ++ ys) =
      match a.follow xs with
      | .error d => .error d
      | .ok a' => a'.follow ys := by
  induction xs generalizing a with
  | nil => rfl
  | cons x xs ih =>
    rw [List.cons_append, follow, follow]
    split
    · rfl
    · exact ih _

end Analysis

/-- The analysis of a compilation, from the states that the rules are in to the states that they
are left in. -/
def Analyzer.analyze (a : Analyzer) (c : Compilation) : Except Defect Analysis :=
  Analysis.follow ⟨a.rules, c, {}⟩ c.stages

namespace Compilation

/-- The compilation of some trees with the report of an analyzer. Where warnings are taken for
errors, they stand behind the errors. -/
def analyzed (trees : List Tree) (analyzer : Analyzer) (config : Config) :
    Except Defect Compilation :=
  match analyzer.analyze (ofTrees trees) with
  | .error d => .error d
  | .ok a =>
    .ok { a.compilation with
      report := if config.warningsAsErrors then a.report.promoteWarnings else a.report }

/-- The compilation of some trees, checked with the rules of a registry that are not disabled. -/
def withConfig (trees : List Tree) (registry : Registry) (config : Config) :
    Except Refusal (Except Defect Compilation) :=
  match Analyzer.withConfig registry config with
  | .error e => .error e
  | .ok analyzer => .ok (analyzed trees analyzer config)

section WithConfig

variable {trees : List Tree} {registry : Registry} {config : Config}

theorem withConfig_of_ok {analyzer : Analyzer}
    (h : Analyzer.withConfig registry config = .ok analyzer) :
    withConfig trees registry config = .ok (analyzed trees analyzer config) := by
  rw [withConfig, h]

theorem withConfig_of_error {e : Refusal} (h : Analyzer.withConfig registry config = .error e) :
    withConfig trees registry config = .error e := by
  rw [withConfig, h]

end WithConfig

/-- The compilation of some trees, checked with the built-in rules. -/
def check (trees : List Tree) : Except Defect Compilation :=
  analyzed trees (.ofRegistry .builtin) {}

end Compilation

end ProgramCheck
