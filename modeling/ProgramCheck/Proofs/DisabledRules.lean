import ProgramCheck.Proofs.WalkOrder

/-!
# Disabled rules

A configuration disables rules by their names. The names are looked up in the whole registry before
any rule is left out, so it makes no difference how often a name is listed and in which order: either
all listed names are known, and then all instances of the named rules are left out and all others stay
where they are, or the first unknown name is refused. A refused configuration is refused for every
list of trees, also where the walk through them would come to a defect.
-/

namespace ProgramCheck

namespace Analyzer

section Disabled

variable {registry : Registry} {config : Config} {a : Analyzer}

theorem withConfig_of_known (h : ∀ name ∈ config.disabledRules, name ∈ registry.names) :
    withConfig registry config =
      .ok ⟨(registry.map Rule.activate).filter (·.rule.name ∉ config.disabledRules)⟩ := by
  have hkept : registry.filter (fun r => !config.disabledRules.contains r.name) =
      registry.filter (fun r => decide (r.name ∉ config.disabledRules)) :=
    List.filter_congr fun r _ => by simp
  simp only [withConfig, unknownRule?_eq_none_iff.2 h, ofRegistry, hkept, List.filter_map]
  rfl

theorem withConfig_eq_error_iff {e : Refusal} :
    withConfig registry config = .error e ↔
      ∃ name, unknownRule? registry config.disabledRules = some name ∧ e = .unknownRule name := by
  rw [withConfig]
  cases unknownRule? registry config.disabledRules with
  | none => simp
  | some name => simp [eq_comm]

/-- What is left of a registry: the instances of the rules that are not listed, in their order. -/
theorem withConfig_eq_ok_iff_known :
    withConfig registry config = .ok a ↔
      (∀ name ∈ config.disabledRules, name ∈ registry.names) ∧
        a.rules = (registry.map Rule.activate).filter (·.rule.name ∉ config.disabledRules) := by
  constructor
  · intro ha
    have hknown : ∀ name ∈ config.disabledRules, name ∈ registry.names := by
      rw [← unknownRule?_eq_none_iff]
      cases hunknown : unknownRule? registry config.disabledRules with
      | none => rfl
      | some name =>
        rw [withConfig_eq_error_iff.2 ⟨name, hunknown, rfl⟩] at ha
        cases ha
    refine ⟨hknown, ?_⟩
    rw [withConfig_of_known hknown] at ha
    rw [← Except.ok.inj ha]
  · rintro ⟨hknown, hrules⟩
    rw [withConfig_of_known hknown, ← hrules]

/-- The names of a listed rule all go, those of another one all stay. -/
theorem count_ruleNames_of_filter {names : List String}
    (h : a.rules = (registry.map Rule.activate).filter (·.rule.name ∉ names)) (name : String) :
    a.ruleNames.count name = if name ∈ names then 0 else registry.names.count name := by
  have hruleNames : a.ruleNames = registry.names.filter (· ∉ names) := by
    rw [ruleNames, h, Registry.names, List.filter_map, List.filter_map, List.map_map]
    rfl
  rw [hruleNames]
  split
  · next hlisted =>
    refine List.count_eq_zero.2 fun hmem => ?_
    simpa [hlisted] using (List.mem_filter.1 hmem).2
  · next hlisted => exact List.count_filter (by simpa using hlisted)

/-- Only the set of the listed names counts. -/
theorem withConfig_congr_disabledRules {config' : Config}
    (h : ∀ name, name ∈ config'.disabledRules ↔ name ∈ config.disabledRules)
    (ha : withConfig registry config = .ok a) : withConfig registry config' = .ok a := by
  simpa only [withConfig_eq_ok_iff_known, h] using ha

end Disabled

end Analyzer

/-- A compilation is refused by its configuration only, and before its trees are looked at. -/
theorem Compilation.withConfig_eq_error_iff {trees : List Tree} {registry : Registry}
    {config : Config} {e : Refusal} :
    withConfig trees registry config = .error e ↔ Analyzer.withConfig registry config = .error e := by
  cases h : Analyzer.withConfig registry config with
  | error e' =>
    rw [withConfig_of_error h]
    simp
  | ok analyzer =>
    rw [withConfig_of_ok h]
    simp

namespace Analyzer

/-- **Disabled rules are left out, all instances of them and nothing else.** An analyzer is made
exactly if every listed name is the name of a registered rule. It then has the registered rules in
their order without those that are listed: of a listed name no instance is left, of any other name as
many as there were, and another list of the same names makes the same analyzer. Otherwise the first
unknown name of the list is refused and quoted; so is then a compilation with this configuration,
whatever its trees are, and for no other reason. -/
theorem withConfig_disabledRules (registry : Registry) (config : Config) :
    ((∃ a, withConfig registry config = .ok a) ↔
      ∀ name ∈ config.disabledRules, name ∈ registry.names) ∧
    (∀ a, withConfig registry config = .ok a →
      a.rules = (registry.map Rule.activate).filter (·.rule.name ∉ config.disabledRules) ∧
      (∀ name, a.ruleNames.count name =
        if name ∈ config.disabledRules then 0 else registry.names.count name) ∧
      ∀ config' : Config,
        (∀ name, name ∈ config'.disabledRules ↔ name ∈ config.disabledRules) →
          withConfig registry config' = .ok a) ∧
    (∀ e, withConfig registry config = .error e ↔
      ∃ before name after, config.disabledRules = before ++ name :: after ∧
        (∀ known ∈ before, known ∈ registry.names) ∧ name ∉ registry.names ∧
        e = .unknownRule name ∧ e.message = "unknown semantic rule '" ++ name ++ "'") ∧
    ∀ (trees : List Tree) (e : Refusal),
      Compilation.withConfig trees registry config = .error e ↔
        withConfig registry config = .error e := by
  refine ⟨⟨?_, fun h => ⟨_, withConfig_of_known h⟩⟩, fun a ha => ?_, fun e => ?_, fun trees e =>
    Compilation.withConfig_eq_error_iff⟩
  · rintro ⟨a, ha⟩
    exact (withConfig_eq_ok_iff_known.1 ha).1
  · have hrules := (withConfig_eq_ok_iff_known.1 ha).2
    exact ⟨hrules, count_ruleNames_of_filter hrules, fun config' h =>
      withConfig_congr_disabledRules h ha⟩
  · rw [withConfig_eq_error_iff]
    constructor
    · rintro ⟨name, hname, rfl⟩
      obtain ⟨before, after, hnames, hbefore, hunknown⟩ := unknownRule?_eq_some_iff.1 hname
      exact ⟨before, name, after, hnames, hbefore, hunknown, rfl, rfl⟩
    · rintro ⟨before, name, after, hnames, hbefore, hunknown, rfl, -⟩
      exact ⟨name, unknownRule?_eq_some_iff.2 ⟨before, after, hnames, hbefore, hunknown⟩, rfl⟩

/-- The rule on imports twice, with the rule on function bodies between its instances. -/
def repeatingRegistry : Registry :=
  [Builtin.importResolution, .functionBody, .importResolution].map (·.rule)

/-- A name that is listed twice takes out both instances of its rule and is known both times. Of two
unknown names the first is refused, although the walk through the tree comes to a defect. -/
theorem withConfig_disabledRules_brokenTree :
    (∃ a, withConfig repeatingRegistry { disabledRules := ["import", "import"] } = .ok a ∧
      withConfig repeatingRegistry { disabledRules := ["import"] } = .ok a ∧
      a.ruleNames.count "import" = 0 ∧ a.ruleNames.count "function-body" = 1) ∧
    (∃ d, Compilation.withConfig [Tree.brokenTree] repeatingRegistry {} = .ok (.error d)) ∧
    Compilation.withConfig [Tree.brokenTree] repeatingRegistry
        { disabledRules := ["import", "imports", "import", "body"] } =
      .error (.unknownRule "imports") := by
  refine ⟨?_, ?_, ?_⟩
  · obtain ⟨hmade, hkept, -⟩ :=
      withConfig_disabledRules repeatingRegistry { disabledRules := ["import", "import"] }
    obtain ⟨a, ha⟩ := hmade.2 (by decide)
    obtain ⟨-, hcount, hsame⟩ := hkept a ha
    refine ⟨a, ha, hsame _ (by simp), ?_, ?_⟩
    · rw [hcount]
      rfl
    · rw [hcount]
      decide
  · have hdefect : ((Compilation.withConfig [Tree.brokenTree] repeatingRegistry {}).toOption.map
        fun checked => checked.toOption.isNone) = some true := by
      decide +kernel
    cases hcheck : Compilation.withConfig [Tree.brokenTree] repeatingRegistry {} with
    | error e => simp [hcheck, Except.toOption] at hdefect
    | ok checked =>
      cases checked with
      | error d => exact ⟨d, rfl⟩
      | ok c => simp [hcheck, Except.toOption] at hdefect
  · obtain ⟨-, -, hrefused, hcompilation⟩ := withConfig_disabledRules repeatingRegistry
      { disabledRules := ["import", "imports", "import", "body"] }
    refine (hcompilation _ _).2 ((hrefused _).2 ?_)
    exact ⟨["import"], "imports", ["import", "body"], rfl, by decide, by decide, rfl, rfl⟩

end Analyzer

end ProgramCheck
