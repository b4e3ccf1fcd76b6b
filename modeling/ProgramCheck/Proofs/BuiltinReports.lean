import ProgramCheck.Proofs.Along
import ProgramCheck.Proofs.LexicalScope
import ProgramCheck.Proofs.Visited

/-!
# What the built-in rules report

The built-in rules depend on a walk only by what it has visited before. `Builtin.stateAfter` is the
state of a rule after a history of stages, `Builtin.reports` is what it reports at a visit behind a
history, and no rule fails where every function has a module above it, as along every walk. So an
analysis with built-in rules that meets no node out of place comes to its end, and its log is known
from the stages alone.
-/

namespace ProgramCheck

/-- Where a function comes from, if there is a module above it. -/
def Visited.origin? (g : Visited Function) : Option Origin :=
  g.moduleName?.map fun m => ⟨m, g.node.modifiers⟩

/-- The entry that a function makes in a table of origins by name. -/
def Visited.entry? (g : Visited Function) : Option (String × Origin) :=
  g.origin?.map fun o => (g.node.name, o)

/-- Whether every function of a history has a module above it. -/
def Housed (history : List Stage) : Prop :=
  ∀ g ∈ visitedFunctions history, ∃ m, g.moduleName? = some m

theorem housed_append_iff {xs ys : List Stage} : Housed (xs ++ ys) ↔ Housed xs ∧ Housed ys := by
  simp only [Housed, visitedFunctions, List.filterMap_append, List.mem_append, or_imp, forall_and]

/-- Along every walk each function has a module above it. -/
theorem Compilation.housed_stages (c : Compilation) : Housed c.stages := by
  intro g hg
  rw [visitedFunctions_stages] at hg
  obtain ⟨m, hm, hg⟩ := mem_declaredFunctions_iff.1 hg
  exact ⟨m.node.name, Visited.moduleName?_of_mem hm hg⟩

namespace Builtin

theorem name_injective : Function.Injective Builtin.name := by
  intro b b' h
  revert h
  cases b <;> cases b' <;> decide

/-! ### The states of the rules -/

/-- The origins of the functions of a history by name, the latest in front. -/
def origins (history : List Stage) : List (String × Origin) :=
  ((visitedFunctions history).filterMap Visited.entry?).reverse

/-- The names of the modules of a history in lower case, the latest in front. -/
def moduleKeys (history : List Stage) : List String :=
  ((visitedModules history).map fun m => lowercase m.node.name).reverse

theorem mem_moduleKeys_iff {history : List Stage} {key : String} :
    key ∈ moduleKeys history ↔
      key ∈ (visitedModules history).map fun m => lowercase m.node.name :=
  List.mem_reverse

/-- The state of a rule after a history. -/
def stateAfter : (b : Builtin) → List Stage → b.rule.State
  | duplicateModule, history => moduleKeys history
  | callVisibility, history => origins history
  | duplicateParameter, _ => ()
  | duplicateFunction, _ => ()
  | functionBody, _ => ()
  | importResolution, _ => ()
  | valueType, _ => ()

@[simp] theorem stateAfter_nil (b : Builtin) : b.stateAfter [] = b.rule.start := by
  cases b <;> rfl

theorem moduleKeys_concat (history : List Stage) (s : Stage) :
    moduleKeys (history ++ [s]) =
      (s.module?.map fun m => lowercase m.node.name).toList ++ moduleKeys history := by
  rw [moduleKeys, visitedModules_append, visitedModules_singleton, List.map_append,
    List.reverse_append]
  cases s.module? <;> rfl

theorem origins_concat (history : List Stage) (s : Stage) :
    origins (history ++ [s]) =
      (s.function?.bind Visited.entry?).toList ++ origins history := by
  rw [origins, visitedFunctions, List.filterMap_append, List.filterMap_append, List.reverse_append]
  cases h : s.function? with
  | none => simp [h, origins, visitedFunctions]
  | some g => cases he : g.entry? <;> simp [h, he, origins, visitedFunctions]

/-- A call finds the function of its name that was visited last. -/
theorem lookup_origins {history : List Stage} (h : Housed history) (name : String) :
    (origins history).lookup name =
      (latest? (visitedFunctions history) name).bind Visited.origin? := by
  rw [origins, ← List.filterMap_reverse, latest?]
  -- a function without a module makes no entry, and an older one of its name would be found
  have hhoused : ∀ g ∈ (visitedFunctions history).reverse, ∃ m, g.moduleName? = some m :=
    fun g hg => h g (List.mem_reverse.1 hg)
  generalize (visitedFunctions history).reverse = gs at hhoused
  induction gs with
  | nil => rfl
  | cons g gs ih =>
    obtain ⟨m, hm⟩ := hhoused g List.mem_cons_self
    have ho : g.origin? = some ⟨m, g.node.modifiers⟩ := by rw [Visited.origin?, hm, Option.map_some]
    have hentry : g.entry? = some (g.node.name, ⟨m, g.node.modifiers⟩) := by
      rw [Visited.entry?, ho, Option.map_some]
    rw [List.filterMap_cons_some hentry, List.lookup_cons, List.find?_cons,
      ih fun g' hg' => hhoused g' (List.mem_cons_of_mem _ hg')]
    by_cases heq : g.node.name = name
    · simp [heq, ho]
    · have hne : (name == g.node.name) = false := by simpa using Ne.symm heq
      simp [heq, hne]

/-! ### The reports of the rules -/

/-- What is reported on a module behind a history. -/
def moduleReports (history : List Stage) (t : Tree) (id : NodeId) (m : Module) : List Diagnostic :=
  if lowercase m.name ∈ (visitedModules history).map fun m => lowercase m.node.name then
    [t.error id ("Duplicate module '" ++ m.name ++ "'.")]
  else []

/-- What is reported on a call behind a history. -/
def callReports (history : List Stage) (t : Tree) (id : NodeId) (name : String) : List Diagnostic :=
  match (latest? (visitedFunctions history) name).bind Visited.origin? with
  | none => [t.error id ("Tried to call unknown function '" ++ name ++ "'.")]
  | some origin => t.callErrors id name origin

/-- What is reported on a visit behind a history, if some functions were known before it. -/
def callReportsFrom (declared : List (String × Origin)) (history : List Stage) (t : Tree)
    (v : Visit) : List Diagnostic :=
  match v.subject with
  | .expression (.call name _) =>
    match ((latest? (visitedFunctions history) name).bind Visited.origin?).or
      (declared.lookup name) with
    | none => [t.error v.id ("Tried to call unknown function '" ++ name ++ "'.")]
    | some origin => t.callErrors v.id name origin
  | _ => []

/-- What is reported on the imports of a program among some trees. -/
def importReports (trees : List Tree) (t : Tree) (p : Program) : List Diagnostic :=
  t.importsReports ((Compilation.ofTrees trees).moduleNames.map lowercase) [] p.imports

/-- What a rule reports at a visit in one of some trees, behind a history. -/
def reports (b : Builtin) (trees : List Tree) (history : List Stage) (t : Tree) (v : Visit) :
    List Diagnostic :=
  match b, v.subject with
  | duplicateParameter, .functionDecl g => t.duplicateParameters v.id g
  | duplicateFunction, .moduleDecl m => t.duplicateFunctions m
  | duplicateModule, .moduleDecl m => moduleReports history t v.id m
  | callVisibility, .expression (.call name _) => callReports history t v.id name
  | functionBody, .functionDecl g => t.bodyErrors v.id g
  | importResolution, .program p => importReports trees t p
  | valueType, _ => t.valueReports v
  | _, _ => []

section Pick

variable (trees : List Tree) (history : List Stage) (place : Nat) (t : Tree) (v : Visit)

theorem reports_duplicateParameter :
    duplicateParameter.reports trees history t v =
      ((Stage.function? ⟨place, t, .visit v⟩).map fun g =>
        g.tree.duplicateParameters g.id g.node).getD [] := by
  obtain ⟨id, subject⟩ := v
  cases subject <;> rfl

theorem reports_duplicateFunction :
    duplicateFunction.reports trees history t v =
      ((Stage.module? ⟨place, t, .visit v⟩).map fun m =>
        m.tree.duplicateFunctions m.node).getD [] := by
  obtain ⟨id, subject⟩ := v
  cases subject <;> rfl

theorem reports_functionBody :
    functionBody.reports trees history t v =
      ((Stage.function? ⟨place, t, .visit v⟩).map fun g =>
        g.tree.bodyErrors g.id g.node).getD [] := by
  obtain ⟨id, subject⟩ := v
  cases subject <;> rfl

end Pick

theorem moduleNames_ofTrees (c : Compilation) :
    (Compilation.ofTrees c.trees).moduleNames = c.moduleNames := by
  rw [Compilation.moduleNames, Compilation.moduleNames, Compilation.trees_ofTrees]

section Respond

variable {c : Compilation} {history : List Stage} {place : Nat} {t : Tree} {v : Visit}

theorem respond_duplicateModule :
    duplicateModule.rule.respond ⟨c, place, t⟩ v (moduleKeys history) =
      .ok ⟨moduleKeys (history ++ [⟨place, t, .visit v⟩]),
        duplicateModule.reports c.trees history t v, []⟩ := by
  rw [moduleKeys_concat]
  obtain ⟨id, subject⟩ := v
  cases subject with
  | moduleDecl m =>
    simp only [rule, Rule.duplicateModule, reports, moduleReports, mem_moduleKeys_iff]
    rfl
  | _ => rfl

/-- The rule on calls goes on from any table of origins: the functions that it visits come in front,
and hide those of their names. -/
theorem respond_callVisibility_from (declared : List (String × Origin))
    (h : Housed (history ++ [⟨place, t, .visit v⟩])) :
    callVisibility.rule.respond ⟨c, place, t⟩ v (origins history ++ declared) =
      .ok ⟨origins (history ++ [⟨place, t, .visit v⟩]) ++ declared,
        callReportsFrom declared history t v, []⟩ := by
  obtain ⟨hhistory, hstage⟩ := housed_append_iff.1 h
  rw [origins_concat]
  obtain ⟨id, subject⟩ := v
  cases subject with
  | functionDecl g =>
    obtain ⟨m, hm⟩ := hstage ⟨place, t, id, g⟩ (List.mem_singleton.2 rfl)
    have hname : t.moduleNameAbove? id = some m := hm
    have hentry : Visited.entry? ⟨place, t, id, g⟩ = some (g.name, ⟨m, g.modifiers⟩) := by
      rw [Visited.entry?, Visited.origin?, hm, Option.map_some, Option.map_some]
    simp only [rule, Rule.callVisibility, hname, Stage.function?, Option.bind_some, hentry]
    rfl
  | expression e =>
    cases e with
    | call name arguments =>
      simp only [rule, Rule.callVisibility, List.lookup_append, lookup_origins hhistory,
        callReportsFrom]
      rfl
    | _ => rfl
  | _ => rfl

theorem respond_callVisibility (h : Housed (history ++ [⟨place, t, .visit v⟩])) :
    callVisibility.rule.respond ⟨c, place, t⟩ v (origins history) =
      .ok ⟨origins (history ++ [⟨place, t, .visit v⟩]),
        callVisibility.reports c.trees history t v, []⟩ := by
  have hfrom := respond_callVisibility_from (c := c) [] h
  have hreports : callReportsFrom [] history t v = callVisibility.reports c.trees history t v := by
    obtain ⟨id, subject⟩ := v
    cases subject with
    | expression e =>
      cases e with
      | call name arguments => simp only [callReportsFrom, List.lookup_nil, Option.or_none]; rfl
      | _ => rfl
    | _ => rfl
  rwa [List.append_nil, List.append_nil, hreports] at hfrom

/-- At a visit whose history has a module above every function each rule gives an answer, and the
answer depends on the history alone. -/
theorem respond_eq (b : Builtin) (h : Housed (history ++ [⟨place, t, .visit v⟩])) :
    ∃ consulted, b.rule.respond ⟨c, place, t⟩ v (b.stateAfter history) =
      .ok ⟨b.stateAfter (history ++ [⟨place, t, .visit v⟩]), b.reports c.trees history t v,
        consulted⟩ := by
  cases b with
  | duplicateModule => exact ⟨[], respond_duplicateModule⟩
  | callVisibility => exact ⟨[], respond_callVisibility h⟩
  | valueType => exact Rule.respond_valueType ⟨c, place, t⟩ v
  | importResolution =>
    obtain ⟨id, subject⟩ := v
    cases subject with
    | program p =>
      refine ⟨c.allNodes, ?_⟩
      simp only [rule, Rule.importResolution, reports, importReports, moduleNames_ofTrees]
      rfl
    | _ => exact ⟨[], rfl⟩
  | _ =>
    obtain ⟨id, subject⟩ := v
    cases subject <;> exact ⟨[], rfl⟩

end Respond

/-- A rule in its state after a history. -/
def activeAfter (b : Builtin) (history : List Stage) : ActiveRule := ⟨b.rule, b.stateAfter history⟩

end Builtin

/-! ### The log of an analysis with built-in rules -/

/-- What a rule reports at a visit in the tree at a place. -/
structure Finding where
  rule : String
  place : Nat
  visit : Visit
  reports : List Diagnostic

/-- The finding of a reply. -/
def Reply.finding (x : Reply) : Finding := ⟨x.name, x.context.place, x.visit, x.reports⟩

/-- The findings of some built-in rules at a visit behind a history. -/
def findingsAt (bs : List Builtin) (trees : List Tree) (history : List Stage) (place : Nat)
    (t : Tree) (v : Visit) : List Finding :=
  bs.map fun b => ⟨b.name, place, v, b.reports trees history t v⟩

/-- What one of some rules reports, read off the replies to a visit. -/
theorem exists_reply_iff {bs : List Builtin} {trees : List Tree} {history : List Stage}
    {place : Nat} {t : Tree} {v : Visit} {replies : List Reply}
    (h : replies.map Reply.finding = findingsAt bs trees history place t v) {b : Builtin}
    (hb : b ∈ bs) {d : Diagnostic} :
    (∃ x ∈ replies, x.name = b.name ∧ d ∈ x.reports) ↔ d ∈ b.reports trees history t v := by
  have hfindings : (∃ x ∈ replies, x.name = b.name ∧ d ∈ x.reports) ↔
      ∃ y ∈ replies.map Reply.finding, y.rule = b.name ∧ d ∈ y.reports := by
    simp only [List.mem_map, exists_exists_and_eq_and]
    exact Iff.rfl
  rw [hfindings, h]
  simp only [findingsAt, List.mem_map, exists_exists_and_eq_and]
  constructor
  · rintro ⟨b', -, hname, hd⟩
    obtain rfl := Builtin.name_injective hname
    exact hd
  · exact fun hd => ⟨b, hb, rfl, hd⟩

/-- The findings of some built-in rules along some stages behind a history. -/
def findings (bs : List Builtin) (trees : List Tree) : List Stage → List Stage → List Finding
  | _, [] => []
  | history, s :: stages =>
    match s.step with
    | .defect _ => []
    | .visit v =>
      findingsAt bs trees history s.place s.tree v ++ findings bs trees (history ++ [s]) stages

/-- Whether no stage is a node out of place. -/
def AllVisits (stages : List Stage) : Prop := ∀ s ∈ stages, ∃ v, s.step = .visit v

theorem allVisits_of_analyze {a : Analyzer} {c : Compilation} {result : Analysis}
    (h : a.analyze c = .ok result) : AllVisits c.stages :=
  fun _ hs => Analysis.exists_visit_of_follow h hs

/-- The walk through some trees meets no node out of place if it meets none in any of them. -/
theorem Compilation.allVisits_iff {c : Compilation} :
    AllVisits c.stages ↔ ∀ t ∈ c.trees, ∀ step ∈ t.steps, ∃ v, step = .visit v := by
  constructor
  · intro h t ht step hstep
    obtain ⟨place, hplace⟩ := List.getElem?_of_mem ht
    exact h ⟨place, t, step⟩ (Compilation.mem_stages_iff.2 ⟨hplace, hstep⟩)
  · intro h s hs
    obtain ⟨hplace, hstep⟩ := Compilation.mem_stages_iff.1 hs
    exact h s.tree (List.mem_of_getElem? hplace) s.step hstep

/-- The walk through well-kinded trees meets no node out of place. -/
theorem allVisits_of_wellKinded {c : Compilation} (h : ∀ t ∈ c.trees, t.WellKinded) :
    AllVisits c.stages :=
  Compilation.allVisits_iff.2 fun t ht _ hstep => Tree.exists_visit_of_wellKinded (h t ht) hstep

/-- The findings along some stages are those at each of the stages, behind the stages before it. -/
theorem mem_findings_iff {bs : List Builtin} {trees : List Tree} {history stages : List Stage}
    (h : AllVisits stages) {x : Finding} :
    x ∈ findings bs trees history stages ↔
      ∃ before place t v after, stages = before ++ ⟨place, t, .visit v⟩ :: after ∧
        x ∈ findingsAt bs trees (history ++ before) place t v := by
  induction stages generalizing history with
  | nil => simp [findings]
  | cons s stages ih =>
    obtain ⟨v, hv⟩ := h s List.mem_cons_self
    obtain ⟨place, t, step⟩ := s
    obtain rfl : step = .visit v := hv
    rw [findings, List.mem_append, ih fun s hs => h s (List.mem_cons_of_mem _ hs)]
    constructor
    · rintro (hx | ⟨before, place', t', v', after, rfl, hx⟩)
      · exact ⟨[], place, t, v, stages, rfl, by rwa [List.append_nil]⟩
      · refine ⟨⟨place, t, .visit v⟩ :: before, place', t', v', after, rfl, ?_⟩
        rwa [List.append_assoc, List.singleton_append] at hx
    · rintro ⟨before, place', t', v', after, hstages, hx⟩
      cases before with
      | nil =>
        cases hstages
        rw [List.append_nil] at hx
        exact Or.inl hx
      | cons s before =>
        cases hstages
        refine Or.inr ⟨before, place', t', v', after, rfl, ?_⟩
        rwa [List.append_assoc, List.singleton_append]

/-- Whether no diagnostic is an error. -/
def NoErrors (ds : List Diagnostic) : Prop := ∀ d ∈ ds, d.isError = false

instance (ds : List Diagnostic) : Decidable (NoErrors ds) :=
  inferInstanceAs (Decidable (∀ d ∈ ds, d.isError = false))

theorem Report.errors_ofList_eq_nil_iff {ds : List Diagnostic} :
    (Report.ofList ds).errors = [] ↔ NoErrors ds := by
  simp [Report.ofList, NoErrors]

theorem noErrors_flatMap_iff {α : Type} {as : List α} {g : α → List Diagnostic} :
    NoErrors (as.flatMap g) ↔ ∀ a ∈ as, NoErrors (g a) := by
  constructor
  · exact fun h a ha d hd => h d (List.mem_flatMap.2 ⟨a, ha, hd⟩)
  · intro h d hd
    obtain ⟨a, ha, hd⟩ := List.mem_flatMap.1 hd
    exact h a ha d hd

/-- Whether a rule finds no error at a stage behind a history. -/
def Builtin.Accepts (b : Builtin) (trees : List Tree) (history : List Stage) (s : Stage) : Prop :=
  ∀ v, s.step = .visit v → NoErrors (b.reports trees history s.tree v)

/-- A rule finds no error if it accepts every stage behind the stages before it. -/
theorem noErrors_findings_of_rule_iff {bs : List Builtin} {trees : List Tree}
    {history stages : List Stage} (h : AllVisits stages) {b : Builtin} (hb : b ∈ bs) :
    (∀ x ∈ findings bs trees history stages, x.rule = b.name → NoErrors x.reports) ↔
      Along (b.Accepts trees) history stages := by
  constructor
  · intro hall
    refine along_iff.2 fun before s after heq v hv => ?_
    obtain ⟨place, t, step⟩ := s
    obtain rfl : step = .visit v := hv
    exact hall ⟨b.name, place, v, _⟩
      ((mem_findings_iff h).2 ⟨before, place, t, v, after, heq, List.mem_map_of_mem hb⟩) rfl
  · intro halong x hx hrule
    obtain ⟨before, place, t, v, after, heq, hx⟩ := (mem_findings_iff h).1 hx
    obtain ⟨b', -, rfl⟩ := List.mem_map.1 hx
    obtain rfl := Builtin.name_injective hrule
    exact along_iff.1 halong before _ after heq v rfl

/-- Some rules find no error if each of them accepts every stage behind the stages before it. -/
theorem noErrors_findings_iff {bs : List Builtin} {trees : List Tree} {history stages : List Stage}
    (h : AllVisits stages) :
    (∀ x ∈ findings bs trees history stages, NoErrors x.reports) ↔
      ∀ b ∈ bs, Along (b.Accepts trees) history stages := by
  constructor
  · exact fun hall b hb => (noErrors_findings_of_rule_iff h hb).1 fun x hx _ => hall x hx
  · intro hall x hx
    obtain ⟨before, place, t, v, after, -, hat⟩ := (mem_findings_iff h).1 hx
    obtain ⟨b, hb, rfl⟩ := List.mem_map.1 hat
    exact (noErrors_findings_of_rule_iff h hb).2 (hall b hb) _ hx rfl

/-- Whether a rule reports no error in a log. -/
def Builtin.ErrorFree (b : Builtin) (log : List Reply) : Prop :=
  ∀ x ∈ log, x.name = b.name → NoErrors x.reports

instance (b : Builtin) (log : List Reply) : Decidable (b.ErrorFree log) :=
  inferInstanceAs (Decidable (∀ x ∈ log, x.name = b.name → NoErrors x.reports))

namespace Analysis

open Builtin

variable {bs : List Builtin} {history : List Stage}

/-- The built-in rules all answer at a visit, and go over to their next states. -/
theorem answer_builtin (bs : List Builtin) {c : Compilation} {place : Nat} {t : Tree} {v : Visit}
    (h : Housed (history ++ [⟨place, t, .visit v⟩])) :
    ∃ a, answer place t v (bs.map (activeAfter · history)) c = .ok a ∧
      a.rules = bs.map (activeAfter · (history ++ [⟨place, t, .visit v⟩])) ∧
      a.compilation.trees = c.trees ∧
      (replies place t v (bs.map (activeAfter · history)) c).map Reply.finding =
        findingsAt bs c.trees history place t v := by
  -- each rule sees the symbol tables as the rules before it leave them, hence any compilation
  induction bs generalizing c with
  | nil => exact ⟨⟨[], c, {}⟩, rfl, rfl, rfl, rfl⟩
  | cons b bs ih =>
    obtain ⟨consulted, hb⟩ := b.respond_eq (c := c) h
    obtain ⟨rest, hrest, hrules, htrees, hreplies⟩ := ih (c := c.consult consulted)
    rw [Compilation.trees_consult] at htrees hreplies
    rw [List.map_cons, answer, replies]
    simp only [activeAfter] at hb hrest hreplies ⊢
    simp only [hb, hrest]
    refine ⟨_, rfl, ?_, htrees, ?_⟩
    · rw [hrules]
      rfl
    · rw [List.map_cons, hreplies]
      rfl

/-- One more stage of an analysis with built-in rules. -/
theorem advance_builtin (bs : List Builtin) {c : Compilation} {r : Report} {place : Nat} {t : Tree}
    {v : Visit} (h : Housed (history ++ [⟨place, t, .visit v⟩])) :
    ∃ c' r', advance ⟨bs.map (activeAfter · history), c, r⟩ ⟨place, t, .visit v⟩ =
        .ok ⟨bs.map (activeAfter · (history ++ [⟨place, t, .visit v⟩])), c', r'⟩ ∧
      c'.trees = c.trees ∧
      (repliesAt ⟨bs.map (activeAfter · history), c, r⟩ ⟨place, t, .visit v⟩).map Reply.finding =
        findingsAt bs c.trees history place t v := by
  obtain ⟨next, hnext, hrules, htrees, hreplies⟩ := answer_builtin bs (c := c) h
  refine ⟨next.compilation, r ++ next.report, ?_, htrees, hreplies⟩
  simp only [advance, hnext, hrules]

/-- An analysis with built-in rules that meets no node out of place comes to its end, and its log is
known from the stages. -/
theorem follow_builtin (bs : List Builtin) {c : Compilation} {r : Report} {stages : List Stage}
    (hvisits : AllVisits stages) (hhoused : Housed (history ++ stages)) :
    ∃ a, follow ⟨bs.map (activeAfter · history), c, r⟩ stages = .ok a ∧
      a.rules = bs.map (activeAfter · (history ++ stages)) ∧
      a.compilation.trees = c.trees ∧
      (log ⟨bs.map (activeAfter · history), c, r⟩ stages).map Reply.finding =
        findings bs c.trees history stages := by
  induction stages generalizing history c r with
  | nil => exact ⟨_, rfl, by rw [List.append_nil], rfl, rfl⟩
  | cons s stages ih =>
    obtain ⟨v, hv⟩ := hvisits s List.mem_cons_self
    obtain ⟨place, t, step⟩ := s
    obtain rfl : step = .visit v := hv
    have hsplit : history ++ ⟨place, t, .visit v⟩ :: stages =
        history ++ [⟨place, t, .visit v⟩] ++ stages := by simp
    rw [hsplit] at hhoused ⊢
    obtain ⟨c', r', hadvance, htrees, hreplies⟩ :=
      advance_builtin bs (c := c) (r := r) (housed_append_iff.1 hhoused).1
    obtain ⟨a, ha, harules, hatrees, hlog⟩ := ih (c := c') (r := r')
      (fun s hs => hvisits s (List.mem_cons_of_mem _ hs)) hhoused
    refine ⟨a, ?_, harules, hatrees.trans htrees, ?_⟩
    · rw [follow, hadvance]
      exact ha
    · simp only [log, hadvance]
      rw [List.map_append, hlog, htrees, findings]
      exact congrArg (· ++ _) hreplies

end Analysis

namespace Analyzer

/-- The analyzer of some built-in rules in their order. -/
def ofBuiltin (bs : List Builtin) : Analyzer := ofRegistry (bs.map (·.rule))

theorem rules_ofBuiltin (bs : List Builtin) :
    (ofBuiltin bs).rules = bs.map (·.activeAfter []) := by
  simp [ofBuiltin, ofRegistry, Rule.activate, Builtin.activeAfter]

/-- What built-in rules report in a walk that meets no node out of place. -/
theorem analyze_builtin (bs : List Builtin) {c : Compilation} (h : AllVisits c.stages) :
    ∃ a, (ofBuiltin bs).analyze c = .ok a ∧
      a.report = Report.ofList ((findings bs c.trees [] c.stages).flatMap Finding.reports) ∧
      ((ofBuiltin bs).log c).map Reply.finding = findings bs c.trees [] c.stages := by
  have hhoused : Housed ([] ++ c.stages) := c.housed_stages
  obtain ⟨a, ha, -, -, hlog⟩ := Analysis.follow_builtin bs (c := c) (r := {}) h hhoused
  rw [← rules_ofBuiltin bs] at ha hlog
  refine ⟨a, ha, ?_, hlog⟩
  rw [Analysis.report_follow ha, Report.empty_append, ← hlog, List.flatMap_map]
  rfl

/-- A rule has no error in the log if it accepts every stage behind the stages before it. -/
theorem errorFree_log_iff {bs : List Builtin} {c : Compilation} (h : AllVisits c.stages)
    {b : Builtin} (hb : b ∈ bs) :
    b.ErrorFree ((ofBuiltin bs).log c) ↔ Along (b.Accepts c.trees) [] c.stages := by
  obtain ⟨-, -, -, hlog⟩ := analyze_builtin bs h
  rw [← noErrors_findings_of_rule_iff h hb, ← hlog, List.forall_mem_map]
  exact Iff.rfl

end Analyzer

end ProgramCheck
