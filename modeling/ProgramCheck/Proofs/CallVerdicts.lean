import ProgramCheck.Proofs.BuiltinColumns
import ProgramCheck.Proofs.CallSites

/-!
# The errors on calls, run after run

What is wrong with a call depends on the function of its name that was visited last, in the run of
the call or in an earlier one. `callFaults` lists what is wrong with the calls of a walk behind a
history, and the rule on calls reports just that, in every run of an analyzer that holds it,
whatever its other rules do.
-/

namespace ProgramCheck

/-! ### What is wrong with calls -/

/-- What is wrong with a call: no function of its name was visited before it, or the function that
was visited last is of a module, by name, that the program of the call does not import, or that
function is not exported. -/
inductive CallFault.Cause
  | unknown
  | notImported (callee : Visited Function) (home : String)
  | notExported (callee : Visited Function)

/-- A fault of a call in the tree at a place. -/
structure CallFault where
  place : Nat
  tree : Tree
  id : NodeId
  name : String
  cause : CallFault.Cause

/-- The error about a fault, at the position of the call. -/
def CallFault.diagnostic (f : CallFault) : Diagnostic :=
  match f.cause with
  | .unknown => f.tree.error f.id ("Tried to call unknown function '" ++ f.name ++ "'.")
  | .notImported _ home => f.tree.notImported f.id f.name home
  | .notExported _ => f.tree.notExported f.id f.name

/-- What is wrong with a call from a module of the name `caller`, if the function `callee` of a
module of the name `home` was visited last. The two conditions do not depend on each other. -/
def accessFaults (place : Nat) (t : Tree) (id : NodeId) (name caller : String)
    (callee : Visited Function) (home : String) : List CallFault :=
  (if caller ≠ home ∧ ¬ t.Imports home then [⟨place, t, id, name, .notImported callee home⟩]
    else []) ++
  (if caller ≠ home ∧ callee.node.modifiers.exported = false then
    [⟨place, t, id, name, .notExported callee⟩] else [])

/-- What is wrong at a stage behind a history. -/
def callFaultsAt (history : List Stage) (s : Stage) : List CallFault :=
  match s.step with
  | .visit ⟨id, .expression (.call name _)⟩ =>
    match latest? (visitedFunctions history) name with
    | none => [⟨s.place, s.tree, id, name, .unknown⟩]
    | some callee =>
      match s.tree.moduleNameAbove? id, callee.moduleName? with
      | some caller, some home => accessFaults s.place s.tree id name caller callee home
      | _, _ => []
  | _ => []

/-- What is wrong with the calls of a walk behind a history, in the order of the walk. -/
def callFaults : List Stage → List Stage → List CallFault
  | _, [] => []
  | history, s :: stages => callFaultsAt history s ++ callFaults (history ++ [s]) stages

/-- Whether every expression of some stages has a module above it, as along every walk. -/
def ExpressionsHoused (stages : List Stage) : Prop :=
  ∀ place t id e, ⟨place, t, .visit ⟨id, .expression e⟩⟩ ∈ stages →
    ∃ caller, t.moduleNameAbove? id = some caller

theorem Compilation.expressionsHoused_stages (c : Compilation) : ExpressionsHoused c.stages :=
  fun _ _ _ _ h =>
    let ⟨m, _, _, _, _, hm⟩ := exists_moduleNameAbove h
    ⟨m.node.name, hm⟩

/-- The rule on calls reports at a visit what is wrong there. -/
theorem reports_callVisibility (trees : List Tree) {history : List Stage} (place : Nat) {t : Tree}
    {v : Visit} (hhistory : Housed history) (hv : ExpressionsHoused [⟨place, t, .visit v⟩]) :
    Builtin.callVisibility.reports trees history t v =
      (callFaultsAt history ⟨place, t, .visit v⟩).map CallFault.diagnostic := by
  obtain ⟨id, subject⟩ := v
  cases subject with
  | expression e =>
    cases e with
    | call name arguments =>
      obtain ⟨caller, hcaller⟩ := hv place t id _ (List.mem_singleton.2 rfl)
      simp only [Builtin.reports, Builtin.callReports, callFaultsAt]
      cases hlatest : latest? (visitedFunctions history) name with
      | none => rfl
      | some callee =>
        obtain ⟨home, hhome⟩ := hhistory callee (mem_of_latest? hlatest)
        have horigin : callee.origin? = some ⟨home, callee.node.modifiers⟩ := by
          rw [Visited.origin?, hhome, Option.map_some]
        simp only [Option.bind_some, horigin, hcaller, hhome, Tree.callErrors_eq hcaller,
          accessFaults, ← Tree.importsModule_iff]
        by_cases hsame : caller = home
        · simp [hsame]
        · cases t.importsModule home <;> cases callee.node.modifiers.exported <;>
            simp [hsame, CallFault.diagnostic]
    | _ => rfl
  | _ => rfl

/-- Replies of the rule on calls report what is wrong at their stages. -/
theorem reports_of_tells {trees : List Tree} {history : List Stage} {before xs : List Reply}
    (h : Builtin.callVisibility.Tells trees history before xs)
    (hhoused : Housed (history ++ before.map Reply.stage ++ xs.map Reply.stage))
    (hexpressions : ExpressionsHoused (xs.map Reply.stage)) :
    xs.flatMap Reply.reports =
      (callFaults (history ++ before.map Reply.stage) (xs.map Reply.stage)).map
        CallFault.diagnostic := by
  induction xs generalizing before with
  | nil => rfl
  | cons x xs ih =>
    obtain ⟨hx, hrest⟩ := along_cons.1 h
    have hreports : x.reports =
        (callFaultsAt (history ++ before.map Reply.stage) x.stage).map CallFault.diagnostic := by
      rw [hx]
      refine reports_callVisibility trees x.context.place (housed_append_iff.1 hhoused).1 ?_
      intro place t id e hmem
      exact hexpressions place t id e (List.mem_singleton.1 hmem ▸ List.mem_cons_self)
    have hbefore : history ++ (before ++ [x]).map Reply.stage =
        history ++ before.map Reply.stage ++ [x.stage] := by simp
    have hlater := ih hrest (by rwa [hbefore, List.append_assoc, List.singleton_append])
      fun place t id e hmem => hexpressions place t id e (List.mem_cons_of_mem _ hmem)
    rw [List.flatMap_cons, hreports, hlater, hbefore, ← List.map_append]
    rfl

/-- In a run behind a history the rule on calls reports what is wrong with the calls of the run. -/
theorem reports_of_tells_run {c : Compilation} {history : List Stage} {xs : List Reply}
    (h : Builtin.callVisibility.Tells c.trees history [] xs) (hstages : xs.map Reply.stage = c.stages)
    (hhistory : Housed history) :
    xs.flatMap Reply.reports = (callFaults history c.stages).map CallFault.diagnostic := by
  have hreports := reports_of_tells h
  rw [hstages, List.map_nil, List.append_nil] at hreports
  exact hreports (housed_append_iff.2 ⟨hhistory, c.housed_stages⟩) c.expressionsHoused_stages

namespace Analyzer

open Analysis

/-- In each of several runs the rule on calls reports what is wrong with the calls of this run
behind the walks of the runs before. -/
theorem column_of_analyzeEach {a : Analyzer} {cs : List Compilation} {results : List Analysis}
    (h : a.analyzeEach cs = .ok results) {i : Nat} {earlier : List Stage}
    (hi : a.rules[i]? = some (Builtin.callVisibility.activeAfter earlier))
    (hearlier : Housed earlier) {k : Nat} {c : Compilation} {rows : List (List Reply)}
    (hc : cs[k]? = some c) (hrows : (a.history cs)[k]? = some rows) :
    (column i rows).flatMap Reply.reports =
      (callFaults (earlier ++ (cs.take k).flatMap Compilation.stages) c.stages).map
        CallFault.diagnostic := by
  obtain ⟨htells, hstages⟩ := tells_history_from h hi hearlier hc hrows
  exact reports_of_tells_run htells hstages
    (housed_append_iff.2 ⟨hearlier, housed_flatMap_stages _⟩)

/-- **The errors on calls in successive runs.** The rule on calls never ends a run. In each run that
comes to its end it reports the faults of the calls behind the walks of the runs before, in the
order of the walk. A walk visits the functions that the modules of the programs list, each below its
module, and no others; in front of a call the last of them is the function that the call stands in,
and the module above the call is the one that lists it. -/
theorem callVisibility_reports {a : Analyzer} {i : Nat}
    (hi : a.rules[i]? = some Rule.callVisibility.activate) (cs : List Compilation) :
    ((∀ c ∈ cs, AllVisits c.stages) →
      (∀ x ∈ a.rules, x.rule = .callVisibility ∨
        ∀ c ∈ cs, ∀ s ∈ c.stages, x.rule.Answers s) →
      ∃ results, a.analyzeEach cs = .ok results) ∧
    (∀ results, a.analyzeEach cs = .ok results → ∀ k c, cs[k]? = some c →
      ∃ rows result, (a.history cs)[k]? = some rows ∧ results[k]? = some result ∧
        Recorded (a.rules.map ActiveRule.rule) c rows result.report ∧
        (column i rows).flatMap Reply.reports =
          (callFaults ((cs.take k).flatMap Compilation.stages) c.stages).map
            CallFault.diagnostic) ∧
    ∀ c : Compilation,
      visitedFunctions c.stages = (declaredModules c.trees).flatMap Visited.functions ∧
      (∀ m ∈ declaredModules c.trees, ∀ g ∈ m.functions, g.moduleName? = some m.node.name) ∧
      ∀ before place t id e after,
        c.stages = before ++ ⟨place, t, .visit ⟨id, .expression e⟩⟩ :: after →
        ∃ m ∈ declaredModules c.trees, ∃ g ∈ m.functions, m.place = place ∧ m.tree = t ∧
          id ∈ t.preorder g.id ∧ t.moduleNameAbove? id = some m.node.name ∧
          (visitedFunctions before).getLast? = some g := by
  refine ⟨fun hvisits hanswers => exists_analyzeEach_of_answers hvisits fun x hx c hc s hs => ?_,
    fun results h k c hc => ?_, fun c => ⟨c.visitedFunctions_stages, fun m hm g hg =>
      Visited.moduleName?_of_mem hm hg, fun before place t id e after hsplit => ?_⟩⟩
  · rcases hanswers x hx with hrule | hothers
    · rw [hrule]
      exact Builtin.callVisibility.answers hs
    · exact hothers c hc s hs
  · obtain ⟨-, -, hruns⟩ := recorded_history h
    obtain ⟨rows, result, hrows, hresult, hrecorded⟩ := hruns k c hc
    have hhoused : Housed [] := fun g hg => absurd hg List.not_mem_nil
    exact ⟨rows, result, hrows, hresult, hrecorded, column_of_analyzeEach h hi hhoused hc hrows⟩
  · obtain ⟨m, hm, g, hg, rfl, rfl, ⟨s, hs, hv⟩, fs, fs', front, -, hfront⟩ :=
      exists_callSite hsplit
    obtain ⟨hplace, htree, hid, hnode⟩ := Visited.mem_functions_iff.1 hg
    obtain ⟨-, -, hmodule⟩ := mem_declaredModules_iff.1 hm
    refine ⟨m, hm, g, hg, rfl, rfl, Tree.mem_preorder_of_mem_body hnode hs hv,
      Tree.moduleNameAbove?_body hmodule hid hnode hs hv, ?_⟩
    rw [hfront, List.getLast?_concat]

end Analyzer

/-! ### A call with two faults -/

/-- The nodes of a program of two modules, of which the second calls a function of the first. -/
def pairNodes (m : Modifiers) : List Node :=
  [⟨.functionDecl ⟨"f", .void, m, [], some []⟩, ⟨3, 1⟩⟩,
   ⟨.moduleDecl ⟨"A", [0], []⟩, ⟨2, 1⟩⟩,
   ⟨.expression (.call "f" []), ⟨6, 1⟩⟩,
   ⟨.statement (.evaluation 2), ⟨6, 1⟩⟩,
   ⟨.functionDecl ⟨"g", .void, {}, [], some [3]⟩, ⟨5, 1⟩⟩,
   ⟨.moduleDecl ⟨"B", [4], []⟩, ⟨4, 1⟩⟩,
   ⟨.program ⟨[], [1, 5]⟩, ⟨1, 1⟩⟩]

theorem isSome_pairTree (m : Modifiers) :
    (Tree.ofNodes "pair.tw" (pairNodes m) 6).toOption.isSome := by
  rcases m with ⟨_ | _, _ | _⟩ <;> decide +kernel

/-- A program that calls a function with some modifiers from another one of its modules. -/
def pairTree (m : Modifiers) : Tree :=
  (Tree.ofNodes "pair.tw" (pairNodes m) 6).toOption.get (isSome_pairTree m)

namespace Analyzer

/-- The main program before the library calls an unknown function; the third run knows the function
of its own first module, which the second module neither imports nor may see. -/
theorem callVisibility_reports_pairTree :
    (ofBuiltin Builtin.all).rules[3]? = some Rule.callVisibility.activate ∧
    ∃ results, (ofBuiltin Builtin.all).analyzeEach
        [.ofTrees [mainTree], .ofTrees [libraryTree], .ofTrees [pairTree {}]] = .ok results ∧
      ∃ first third, ((ofBuiltin Builtin.all).history
          [.ofTrees [mainTree], .ofTrees [libraryTree], .ofTrees [pairTree {}]])[0]? = some first ∧
        ((ofBuiltin Builtin.all).history
          [.ofTrees [mainTree], .ofTrees [libraryTree], .ofTrees [pairTree {}]])[2]? = some third ∧
        (Analysis.column 3 first).flatMap Reply.reports =
          [⟨.error, ⟨4, 1⟩, "Tried to call unknown function 'twice'."⟩] ∧
        (Analysis.column 3 third).flatMap Reply.reports =
          [⟨.error, ⟨6, 1⟩, "Cannot call function 'f' from module 'A' because it is not imported."⟩,
            ⟨.error, ⟨6, 1⟩, "Tried to call inaccessible function 'f' (not exported)."⟩] := by
  have hrule : (ofBuiltin Builtin.all).rules[3]? = some Rule.callVisibility.activate := rfl
  have hkinded : ∀ c ∈ [Compilation.ofTrees [mainTree], .ofTrees [libraryTree],
      .ofTrees [pairTree {}]], ∀ t ∈ c.trees, t.WellKinded := by decide +kernel
  obtain ⟨hruns, hreports, -⟩ := callVisibility_reports hrule
    [.ofTrees [mainTree], .ofTrees [libraryTree], .ofTrees [pairTree {}]]
  obtain ⟨results, hresults⟩ := hruns (fun c hc => allVisits_of_wellKinded (hkinded c hc)) (by
    rw [rules_ofBuiltin, List.forall_mem_map]
    exact fun b _ => Or.inr fun c _ s hs => b.answers hs)
  obtain ⟨first, -, hfirst, -, -, hfirstReports⟩ := hreports results hresults 0 _ rfl
  obtain ⟨third, -, hthird, -, -, hthirdReports⟩ := hreports results hresults 2 _ rfl
  refine ⟨hrule, results, hresults, first, third, hfirst, hthird, ?_, ?_⟩
  · rw [hfirstReports]
    decide +kernel
  · rw [hthirdReports]
    decide +kernel

end Analyzer

end ProgramCheck
