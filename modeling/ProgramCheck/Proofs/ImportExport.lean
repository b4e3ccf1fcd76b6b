import ProgramCheck.Proofs.CallVerdicts
import ProgramCheck.Proofs.EditedTrees

/-!
# Imports and exports clear errors of their own

One more import clears the errors about functions of modules that were not imported, at the calls of
its own program and for modules of its name. One more export clears the errors about a function that
was not exported, wherever it is called. Either leaves every other error as it is: the faults of the
calls of an edited tree are those of the tree, without the faults that the edit clears.
-/

namespace ProgramCheck

namespace Tree

variable {t t' : Tree} {σ : NodeId → NodeId}

/-! ### The imports of edited trees -/

theorem map_import?_edited {E : Edit} (h : E.Of t) (ids : List NodeId) :
    (ids.map E.number).filterMap E.tree.import? = ids.filterMap t.import? := by
  rw [List.filterMap_map]
  exact List.filterMap_congr fun id _ => h.import? id

theorem AddsImport.importsModule {name : String} (h : t.AddsImport t' name σ) (home : String) :
    t'.importsModule home = (t.importsModule home || sameIgnoringAsciiCase name home) := by
  obtain ⟨front, back, added, position, hbefore, hafter, hadded⟩ := h.imports
  have himport : t'.import? added = some ⟨name⟩ :=
    Forest.import?_eq_some_iff.2 (by rw [Forest.kind?, hadded, Option.map_some])
  have hold : ∀ ids : List NodeId, (ids.map σ).filterMap t'.import? = ids.filterMap t.import? :=
    map_import?_edited h.toOf
  rw [Tree.importsModule, Tree.importsModule, hbefore, hafter, List.filterMap_append,
    List.filterMap_append, List.filterMap_cons_some himport, hold, hold, List.any_append,
    List.any_append, List.any_cons]
  simp only [Bool.or_comm, Bool.or_left_comm]

theorem AddsExport.importsModule {fid : NodeId} (h : t.AddsExport t' fid σ) (home : String) :
    t'.importsModule home = t.importsModule home := by
  have hold : (t.program.imports.map σ).filterMap t'.import? =
      t.program.imports.filterMap t.import? :=
    map_import?_edited h.toOf t.program.imports
  rw [Tree.importsModule, Tree.importsModule, h.imports, hold]

end Tree

/-! ### Edited stages -/

namespace Edit

variable (E : Edit) (place : Nat)

/-- The stage that is in the place of a stage, if the tree at a place is edited. -/
def stage (s : Stage) : Stage := if s.place = place then ⟨place, E.tree, E.step s.step⟩ else s

/-- The visited function that is in the place of one, if the tree at a place is edited. -/
def visited (g : Visited Function) : Visited Function :=
  if g.place = place then ⟨place, E.tree, E.number g.id, E.function g.id g.node⟩ else g

@[simp] theorem name_visited (g : Visited Function) :
    (E.visited place g).node.name = g.node.name := by
  unfold visited
  split <;> rfl

theorem exported_visited (g : Visited Function) :
    (E.visited place g).node.modifiers.exported =
      (g.node.modifiers.exported || (g.place == place && E.granted g.id)) := by
  unfold visited
  split
  · next hplace => simp [hplace, function, Function.renumber, Function.grant]
  · next hplace => simp [hplace]

theorem function?_stage (s : Stage) :
    (E.stage place s).function? = s.function?.map (E.visited place) := by
  obtain ⟨place', t, step⟩ := s
  unfold stage
  split
  · next hplace =>
    obtain rfl : place' = place := hplace
    rcases step with ⟨id, subject⟩ | d
    · cases subject with
      | functionDecl f => simp [Stage.function?, Edit.step, Edit.visit, visited]
      | _ => rfl
    · rfl
  · next hplace =>
    cases hg : (⟨place', t, step⟩ : Stage).function? with
    | none => rfl
    | some g =>
      have hstage := Stage.function?_eq_some_iff.1 hg
      have hg' : g.place = place' := by rw [Stage.mk.injEq] at hstage; exact hstage.1.symm
      rw [Option.map_some, visited, if_neg (hg' ▸ hplace)]

theorem visitedFunctions_map_stage (stages : List Stage) :
    visitedFunctions (stages.map (E.stage place)) =
      (visitedFunctions stages).map (E.visited place) := by
  rw [visitedFunctions, List.filterMap_map, visitedFunctions, List.map_filterMap]
  exact List.filterMap_congr fun s _ => E.function?_stage place s

variable {E place} {t : Tree}

/-- An edited call: at the same position, below a module of the same name, and in a program with the
added imports. -/
theorem stage_call (h : E.Of t) {imported : String → Bool}
    (himported : ∀ home, E.tree.importsModule home = (t.importsModule home || imported home))
    {place' : Nat} {u : Tree} {id : NodeId} {name : String} {arguments : List NodeId}
    (hplace : place' = place →
      u = t ∧ .visit ⟨id, .expression (.call name arguments)⟩ ∈ t.steps) :
    ∃ u' id' arguments',
      E.stage place ⟨place', u, .visit ⟨id, .expression (.call name arguments)⟩⟩ =
        ⟨place', u', .visit ⟨id', .expression (.call name arguments')⟩⟩ ∧
      u'.moduleNameAbove? id' = u.moduleNameAbove? id ∧
      (∀ message, u'.error id' message = u.error id message) ∧
      ∀ home, u'.Imports home ↔ u.Imports home ∨ (place' == place && imported home) = true := by
  unfold stage
  split
  · next heq =>
    obtain rfl : place' = place := heq
    obtain ⟨rfl, hmem⟩ := hplace rfl
    refine ⟨E.tree, E.number id, arguments.map E.number, rfl, h.moduleNameAbove?_expression hmem,
      fun message => ?_, fun home => ?_⟩
    · rw [Tree.error, Tree.error, h.position hmem]
    · rw [← Tree.importsModule_iff, ← Tree.importsModule_iff, himported, Bool.or_eq_true,
        beq_self_eq_true, Bool.true_and]
  · next hne =>
    have hne' : (place' == place) = false := by simpa using hne
    exact ⟨u, id, arguments, rfl, rfl, fun _ => rfl, fun home => by simp [hne']⟩

end Edit

/-! ### Edited faults -/

/-- Whether some stages in the tree at a place are steps through a tree. -/
def StepsThrough (place : Nat) (t : Tree) (stages : List Stage) : Prop :=
  ∀ s ∈ stages, s.place = place → s.tree = t ∧ s.step ∈ t.steps

theorem Compilation.stepsThrough_stages {c : Compilation} {place : Nat} {t : Tree}
    (h : c.trees[place]? = some t) : StepsThrough place t c.stages := by
  rintro s hs rfl
  obtain ⟨htree, hstep⟩ := Compilation.mem_stages_iff.1 hs
  obtain rfl : t = s.tree := Option.some.inj (h.symm.trans htree)
  exact ⟨rfl, hstep⟩

/-- Whether a fault is cleared by imports of the tree at a place and by exports there. -/
def CallFault.cleared (place : Nat) (imported : String → Bool) (granted : NodeId → Bool)
    (f : CallFault) : Bool :=
  match f.cause with
  | .unknown => false
  | .notImported _ home => f.place == place && imported home
  | .notExported callee => callee.place == place && granted callee.id

/-- Whether a fault is that a module of a name is not imported, at a call in the tree at a place. -/
def CallFault.lacksImport (place : Nat) (name : String) (f : CallFault) : Bool :=
  match f.cause with
  | .notImported _ home => f.place == place && sameIgnoringAsciiCase name home
  | _ => false

/-- Whether a fault is that a function of the tree at a place is not exported. -/
def CallFault.lacksExport (place : Nat) (fid : NodeId) (f : CallFault) : Bool :=
  match f.cause with
  | .notExported callee => callee.place == place && callee.id == fid
  | _ => false

theorem CallFault.cleared_import (place : Nat) (name : String) (f : CallFault) :
    f.cleared place (sameIgnoringAsciiCase name) (fun _ => false) = f.lacksImport place name := by
  rw [cleared, lacksImport]
  cases f.cause with
  | notExported callee => exact Bool.and_false _
  | _ => rfl

theorem CallFault.cleared_export (place : Nat) (fid : NodeId) (f : CallFault) :
    f.cleared place (fun _ => false) (· == fid) = f.lacksExport place fid := by
  rw [cleared, lacksExport]
  cases f.cause with
  | notImported callee home => exact Bool.and_false _
  | _ => rfl

theorem map_filter_ite {α β : Type*} {p : Prop} [Decidable p] (keep : α → Bool) (f : α → β)
    (a : α) :
    ((if p then [a] else []).filter keep).map f = if p ∧ keep a = true then [f a] else [] := by
  by_cases hp : p <;> cases hk : keep a <;> simp [hp, hk]

/-- The errors about some of the faults of a call. -/
theorem map_filter_accessFaults {place : Nat} {t : Tree} {id : NodeId} {name caller home : String}
    {callee : Visited Function} (keep : CallFault → Bool) :
    ((accessFaults place t id name caller callee home).filter keep).map CallFault.diagnostic =
      (if (caller ≠ home ∧ ¬ t.Imports home) ∧
          keep ⟨place, t, id, name, .notImported callee home⟩ = true then
        [t.notImported id name home] else []) ++
      (if (caller ≠ home ∧ callee.node.modifiers.exported = false) ∧
          keep ⟨place, t, id, name, .notExported callee⟩ = true then
        [t.notExported id name] else []) := by
  rw [accessFaults, List.filter_append, List.map_append, map_filter_ite, map_filter_ite]
  rfl

theorem map_accessFaults {place : Nat} {t : Tree} {id : NodeId} {name caller home : String}
    {callee : Visited Function} :
    (accessFaults place t id name caller callee home).map CallFault.diagnostic =
      (if caller ≠ home ∧ ¬ t.Imports home then [t.notImported id name home] else []) ++
      (if caller ≠ home ∧ callee.node.modifiers.exported = false then [t.notExported id name]
        else []) := by
  simpa using map_filter_accessFaults fun _ => true

namespace Edit.Of

variable {E : Edit} {place : Nat} {t : Tree} (h : E.Of t)
include h

theorem moduleName?_visited {stages : List Stage} (hstages : StepsThrough place t stages)
    {g : Visited Function} (hg : g ∈ visitedFunctions stages) :
    (E.visited place g).moduleName? = g.moduleName? := by
  obtain ⟨s, hs, hfunction⟩ := List.mem_filterMap.1 hg
  obtain rfl := Stage.function?_eq_some_iff.1 hfunction
  unfold Edit.visited
  split
  · next hplace =>
    obtain ⟨htree, hstep⟩ := hstages _ hs hplace
    rw [Visited.moduleName?, Visited.moduleName?, show g.tree = t from htree]
    exact h.moduleNameAbove?_function hstep
  · rfl

/-- At a stage of an edited walk the errors are those that were there, without the cleared ones. -/
theorem callFaultsAt_stage {imported : String → Bool}
    (himported : ∀ home, E.tree.importsModule home = (t.importsModule home || imported home))
    {history : List Stage} {s : Stage} (hhistory : StepsThrough place t history)
    (hs : StepsThrough place t [s]) :
    (callFaultsAt (history.map (E.stage place)) (E.stage place s)).map CallFault.diagnostic =
      ((callFaultsAt history s).filter fun f => !f.cleared place imported E.granted).map
        CallFault.diagnostic := by
  obtain ⟨place', u, step⟩ := s
  rcases step with ⟨id, subject⟩ | d
  · cases subject with
    | expression e =>
      cases e with
      | call name arguments =>
        obtain ⟨u', id', arguments', hstage, hcaller, herror, himports⟩ :=
          Edit.stage_call h himported fun hplace => hs _ List.mem_cons_self hplace
        rw [hstage]
        simp only [callFaultsAt]
        rw [E.visitedFunctions_map_stage, latest?_map (E.name_visited place)]
        cases hlatest : latest? (visitedFunctions history) name with
        | none => simp [CallFault.diagnostic, CallFault.cleared, herror]
        | some callee =>
          have hhome := h.moduleName?_visited hhistory (mem_of_latest? hlatest)
          simp only [Option.map_some, hcaller, hhome]
          cases u.moduleNameAbove? id with
          | none => rfl
          | some caller =>
            cases callee.moduleName? with
            | none => rfl
            | some home =>
              rw [map_filter_accessFaults, map_accessFaults]
              simp only [Tree.notImported, Tree.notExported, herror, himports, E.exported_visited,
                CallFault.cleared]
              congr 1
              · refine if_congr ?_ rfl rfl
                rw [not_or, and_assoc, Bool.not_eq_true, Bool.not_eq_true']
              · refine if_congr ?_ rfl rfl
                rw [Bool.or_eq_false_iff, and_assoc, Bool.not_eq_true']
      | _ =>
        unfold Edit.stage
        split <;> rfl
    | _ =>
      unfold Edit.stage
      split <;> rfl
  · unfold Edit.stage
    split <;> rfl

/-- **The faults along an edited walk** are those along the walk, without the cleared ones. -/
theorem callFaults_stages {imported : String → Bool}
    (himported : ∀ home, E.tree.importsModule home = (t.importsModule home || imported home))
    {history stages : List Stage} (hall : StepsThrough place t (history ++ stages)) :
    (callFaults (history.map (E.stage place)) (stages.map (E.stage place))).map
        CallFault.diagnostic =
      ((callFaults history stages).filter fun f => !f.cleared place imported E.granted).map
        CallFault.diagnostic := by
  induction stages generalizing history with
  | nil => rfl
  | cons s stages ih =>
    have hsplit : history ++ s :: stages = history ++ [s] ++ stages := by simp
    have hhistory : StepsThrough place t history :=
      fun s' hs' => hall s' (List.mem_append_left _ hs')
    have hs : StepsThrough place t [s] := fun s' hs' =>
      hall s' (List.mem_append_right _ (List.mem_singleton.1 hs' ▸ List.mem_cons_self))
    have hlater := ih (hsplit ▸ hall)
    rw [List.map_append] at hlater
    rw [List.map_cons, callFaults, callFaults, List.map_append, List.filter_append, List.map_append,
      h.callFaultsAt_stage himported hhistory hs, ← hlater]
    rfl

end Edit.Of

/-- In the walk through other trees nothing is edited. -/
theorem map_stage_stagesFrom {E : Edit} {place place' : Nat} {ts : List Tree}
    (h : place < place' ∨ place' + ts.length ≤ place) :
    (stagesFrom place' ts).map (E.stage place) = stagesFrom place' ts := by
  refine (List.map_congr_left fun s hs => ?_).trans (List.map_id _)
  have hbounds := mem_stagesFrom hs
  exact if_neg (by omega)

/-- The walk through trees of which one is edited. -/
theorem Compilation.stages_edit {E : Edit} {t : Tree} (h : E.Of t) {c c' : Compilation}
    {xs ys : List Tree} (hc : c.trees = xs ++ t :: ys) (hc' : c'.trees = xs ++ E.tree :: ys) :
    c'.stages = c.stages.map (E.stage xs.length) := by
  have hown : (t.stages xs.length).map (E.stage xs.length) = E.tree.stages xs.length := by
    rw [Tree.stages, Tree.stages, h.steps, List.map_map, List.map_map]
    exact List.map_congr_left fun step _ => if_pos rfl
  rw [c.stages_eq, c'.stages_eq, hc, hc', stagesFrom_append, stagesFrom_append, stagesFrom_cons,
    stagesFrom_cons, List.map_append, List.map_append, Nat.zero_add, hown,
    map_stage_stagesFrom (Or.inr (by omega)), map_stage_stagesFrom (Or.inl (by omega))]

/-! ### The rule on its own -/

theorem CallFault.isError_diagnostic (f : CallFault) : f.diagnostic.isError = true := by
  obtain ⟨place, t, id, name, cause⟩ := f
  cases cause <;> rfl

/-- The replies of a single rule are in one column. -/
theorem flatten_eq_column {rows : List (List Reply)} (h : ∀ row ∈ rows, row.length = 1) :
    rows.flatten = Analysis.column 0 rows := by
  induction rows with
  | nil => rfl
  | cons row rows ih =>
    obtain ⟨hrow, hrows⟩ := List.forall_mem_cons.1 h
    obtain ⟨x, rfl⟩ := List.length_eq_one_iff.1 hrow
    rw [List.flatten_cons, ih hrows, Analysis.column_cons_some rfl]
    rfl

namespace Analyzer

/-- The rule on calls, run alone on trees that the walk comes through, reports the faults of the
calls. -/
theorem analyze_callVisibility {c : Compilation} (h : AllVisits c.stages) :
    ∃ a, (ofBuiltin [.callVisibility]).analyze c = .ok a ∧
      a.report.errors = (callFaults [] c.stages).map CallFault.diagnostic := by
  obtain ⟨a, ha, -, -⟩ := analyze_builtin [.callVisibility] h
  have hrule : (ofBuiltin [.callVisibility]).rules[0]? = some Rule.callVisibility.activate := rfl
  obtain ⟨htells, hstages⟩ := tells_rows ha (b := .callVisibility) hrule
  have hreports := reports_of_tells_run htells hstages housed_nil
  have hrecorded := recorded_rows ha
  have hsingle : ∀ row ∈ (ofBuiltin [.callVisibility]).rows c, row.length = 1 := by
    intro row hrow
    have hcalls : row.map Reply.call ∈ _ := hrecorded.calls ▸ List.mem_map_of_mem hrow
    obtain ⟨s, -, hs⟩ := List.mem_map.1 hcalls
    have hlength := congrArg List.length hs
    simp only [List.length_map] at hlength
    exact hlength.symm
  refine ⟨a, ha, ?_⟩
  rw [hrecorded.errors, flatten_eq_column hsingle, hreports, List.filter_eq_self,
    List.forall_mem_map]
  exact fun f _ => f.isError_diagnostic

/-- **An edit clears errors and leaves the others**: in the order in which they were. -/
theorem analyze_edit {E : Edit} {t : Tree} (h : E.Of t) {imported : String → Bool}
    (himported : ∀ home, E.tree.importsModule home = (t.importsModule home || imported home))
    {c c' : Compilation} (hvisits : AllVisits c.stages) {xs ys : List Tree}
    (hc : c.trees = xs ++ t :: ys) (hc' : c'.trees = xs ++ E.tree :: ys) :
    ∃ a', (ofBuiltin [.callVisibility]).analyze c' = .ok a' ∧
      a'.report.errors =
        ((callFaults [] c.stages).filter fun f => !f.cleared xs.length imported E.granted).map
          CallFault.diagnostic := by
  have hstages := Compilation.stages_edit h hc hc'
  have hvisits' : AllVisits c'.stages := by
    rw [hstages]
    intro s' hs'
    obtain ⟨s, hs, rfl⟩ := List.mem_map.1 hs'
    obtain ⟨v, hv⟩ := hvisits s hs
    unfold Edit.stage
    split
    · exact ⟨E.visit v, by rw [hv]; rfl⟩
    · exact ⟨v, hv⟩
  have hthrough : StepsThrough xs.length t ([] ++ c.stages) :=
    c.stepsThrough_stages (by rw [hc]; simp)
  obtain ⟨a', ha', herrors⟩ := analyze_callVisibility hvisits'
  refine ⟨a', ha', ?_⟩
  rw [herrors, hstages, ← h.callFaults_stages himported hthrough]
  rfl

/-- **Imports and exports are independent.** In one of several trees, one more import clears exactly
the errors about functions of modules of its name that were not imported, at the calls of that tree;
and one more export clears exactly the errors about that function not being exported, at the calls
that find it. All other errors stay, at their positions and in their order. -/
theorem imports_exports_independent {c : Compilation} (hvisits : AllVisits c.stages)
    {xs ys : List Tree} {t : Tree} (hc : c.trees = xs ++ t :: ys) :
    ∃ a, (ofBuiltin [.callVisibility]).analyze c = .ok a ∧
      a.report.errors = (callFaults [] c.stages).map CallFault.diagnostic ∧
      (∀ t' name σ c', t.AddsImport t' name σ → c'.trees = xs ++ t' :: ys →
        ∃ a', (ofBuiltin [.callVisibility]).analyze c' = .ok a' ∧
          a'.report.errors =
            ((callFaults [] c.stages).filter fun f => !f.lacksImport xs.length name).map
              CallFault.diagnostic) ∧
      ∀ t' fid σ c', t.AddsExport t' fid σ → c'.trees = xs ++ t' :: ys →
        ∃ a', (ofBuiltin [.callVisibility]).analyze c' = .ok a' ∧
          a'.report.errors =
            ((callFaults [] c.stages).filter fun f => !f.lacksExport xs.length fid).map
              CallFault.diagnostic := by
  obtain ⟨a, ha, herrors⟩ := analyze_callVisibility hvisits
  refine ⟨a, ha, herrors, fun t' name σ c' hadds hc' => ?_, fun t' fid σ c' hadds hc' => ?_⟩
  · obtain ⟨a', ha', herrors'⟩ := analyze_edit hadds.toOf hadds.importsModule hvisits hc hc'
    refine ⟨a', ha', herrors'.trans ?_⟩
    simp only [CallFault.cleared_import]
  · have himports : ∀ home, t'.importsModule home = (t.importsModule home || false) := fun home =>
      (hadds.importsModule home).trans (Bool.or_false _).symm
    obtain ⟨a', ha', herrors'⟩ := analyze_edit hadds.toOf himports hvisits hc hc'
    refine ⟨a', ha', herrors'.trans ?_⟩
    simp only [CallFault.cleared_export]

/-- The call of the second module has two faults. The import clears one of them, whatever the case
of its letters, and the export clears the other one. -/
theorem imports_exports_independent_pairTree :
    AllVisits (Compilation.ofTrees [pairTree {}]).stages ∧
    ∃ a a' a'', (ofBuiltin [.callVisibility]).analyze (.ofTrees [pairTree {}]) = .ok a ∧
      (ofBuiltin [.callVisibility]).analyze (.ofTrees [(pairTree {}).withImport "a"]) = .ok a' ∧
      (ofBuiltin [.callVisibility]).analyze (.ofTrees [(pairTree {}).withExport 0]) = .ok a'' ∧
      a.report.errors =
        [⟨.error, ⟨6, 1⟩, "Cannot call function 'f' from module 'A' because it is not imported."⟩,
          ⟨.error, ⟨6, 1⟩, "Tried to call inaccessible function 'f' (not exported)."⟩] ∧
      a'.report.errors =
        [⟨.error, ⟨6, 1⟩, "Tried to call inaccessible function 'f' (not exported)."⟩] ∧
      a''.report.errors =
        [⟨.error, ⟨6, 1⟩,
          "Cannot call function 'f' from module 'A' because it is not imported."⟩] := by
  have hkinded : ∀ t ∈ (Compilation.ofTrees [pairTree {}]).trees, t.WellKinded := by decide +kernel
  have hvisits := allVisits_of_wellKinded hkinded
  have htrees : (Compilation.ofTrees [pairTree {}]).trees = [] ++ pairTree {} :: [] := rfl
  obtain ⟨a, ha, herrors, himport, hexport⟩ := imports_exports_independent hvisits htrees
  obtain ⟨a', ha', herrors'⟩ := himport _ "a" (· + 1)
    (.ofTrees [(pairTree {}).withImport "a"]) ((pairTree {}).addsImport_withImport "a") rfl
  obtain ⟨a'', ha'', herrors''⟩ := hexport _ 0 id
    (.ofTrees [(pairTree {}).withExport 0]) ((pairTree {}).addsExport_withExport 0) rfl
  refine ⟨hvisits, a, a', a'', ha, ha', ha'', ?_, ?_, ?_⟩
  · rw [herrors]
    decide +kernel
  · rw [herrors']
    decide +kernel
  · rw [herrors'']
    decide +kernel

end Analyzer

end ProgramCheck
