import ProgramCheck.Proofs.SuccessiveRuns

/-!
# One built-in rule among other rules

What a built-in rule reports does not depend on the rules that it works with, whatever these are. Its
column in the table of replies is known from the stages alone, in every run of an analyzer that holds
it. A run ends early only where a rule that is not built in fails, or at a node out of place.
-/

namespace ProgramCheck

/-! ### Rules that answer -/

/-- Whether a rule answers at a stage, whatever its state is and whatever the compilation holds. -/
def Rule.Answers (r : Rule) (s : Stage) : Prop :=
  ∀ v, s.step = .visit v → ∀ (c : Compilation) (state : r.State),
    ∃ response, r.respond ⟨c, s.place, s.tree⟩ v state = .ok response

/-- The built-in rules answer at every stage of a walk. -/
theorem Builtin.answers (b : Builtin) {c : Compilation} {s : Stage} (hs : s ∈ c.stages) :
    b.rule.Answers s := by
  obtain ⟨place, t, step⟩ := s
  rintro v rfl c' state
  cases b with
  | callVisibility =>
    obtain ⟨id, subject⟩ := v
    cases subject with
    | functionDecl g =>
      obtain ⟨m, hm⟩ := c.housed_stages ⟨place, t, id, g⟩ (List.mem_filterMap.2 ⟨_, hs, rfl⟩)
      have hname : t.moduleNameAbove? id = some m := hm
      simp only [rule, Rule.callVisibility, hname]
      exact ⟨_, rfl⟩
    | expression e => cases e <;> exact ⟨_, rfl⟩
    | _ => exact ⟨_, rfl⟩
  | valueType =>
    obtain ⟨consulted, hrespond⟩ := Rule.respond_valueType ⟨c', place, t⟩ v
    exact ⟨_, hrespond⟩
  | duplicateModule =>
    obtain ⟨id, subject⟩ := v
    cases subject with
    | moduleDecl m =>
      simp only [rule, Rule.duplicateModule]
      exact ⟨_, rfl⟩
    | _ => exact ⟨_, rfl⟩
  | _ =>
    obtain ⟨id, subject⟩ := v
    cases subject <;> exact ⟨_, rfl⟩

namespace Analysis

theorem exists_answer_of_answers {place : Nat} {t : Tree} {v : Visit} {rules : List ActiveRule}
    (h : ∀ x ∈ rules, x.rule.Answers ⟨place, t, .visit v⟩) (c : Compilation) :
    ∃ next, answer place t v rules c = .ok next := by
  induction rules generalizing c with
  | nil => exact ⟨_, rfl⟩
  | cons x rules ih =>
    rw [List.forall_mem_cons] at h
    obtain ⟨response, hresponse⟩ := h.1 v rfl c x.state
    obtain ⟨rest, hrest⟩ := ih h.2 (c.consult response.consulted)
    simp only at hresponse
    simp only [answer, hresponse, hrest]
    exact ⟨_, rfl⟩

/-- If every rule answers at every stage, an analysis ends early only at a node out of place. -/
theorem exists_stage_of_follow_error {a : Analysis} {stages : List Stage} {d : Defect}
    (hrules : ∀ x ∈ a.rules, ∀ s ∈ stages, x.rule.Answers s) (h : a.follow stages = .error d) :
    ∃ s ∈ stages, s.step = .defect d := by
  induction stages generalizing a with
  | nil => cases h
  | cons stage stages ih =>
    rw [follow] at h
    cases hs : a.advance stage with
    | error d' =>
      simp only [hs, Except.error.injEq] at h
      subst h
      refine ⟨stage, List.mem_cons_self, ?_⟩
      obtain ⟨place, t, step⟩ := stage
      cases step with
      | defect d' => simpa [advance] using hs
      | visit v =>
        obtain ⟨next, hnext⟩ :=
          exists_answer_of_answers (fun x hx => hrules x hx _ List.mem_cons_self) a.compilation
        simp [advance, hnext] at hs
    | ok next =>
      rw [hs] at h
      have hrules' : ∀ x ∈ next.rules, ∀ s ∈ stages, x.rule.Answers s := by
        intro x hx s hs'
        -- the rules of the next analysis are those of this one, in other states
        obtain ⟨y, hy, heq⟩ :=
          List.mem_map.1 (map_rule_advance hs ▸ List.mem_map_of_mem (f := ActiveRule.rule) hx)
        exact heq ▸ hrules y hy s (List.mem_cons_of_mem _ hs')
      obtain ⟨s, hmem, hstep⟩ := ih hrules' h
      exact ⟨s, List.mem_cons_of_mem _ hmem, hstep⟩

/-- An analysis comes to its end if it meets no node out of place and every rule answers at every
stage. -/
theorem exists_follow_of_answers {a : Analysis} {stages : List Stage} (hvisits : AllVisits stages)
    (h : ∀ x ∈ a.rules, ∀ s ∈ stages, x.rule.Answers s) : ∃ a', a.follow stages = .ok a' := by
  cases hfollow : a.follow stages with
  | ok a' => exact ⟨a', rfl⟩
  | error d =>
    obtain ⟨s, hs, hdefect⟩ := exists_stage_of_follow_error h hfollow
    obtain ⟨v, hv⟩ := hvisits s hs
    cases hv.symm.trans hdefect

end Analysis

theorem Analyzer.exists_analyzeEach_of_answers {a : Analyzer} {cs : List Compilation}
    (hvisits : ∀ c ∈ cs, AllVisits c.stages)
    (h : ∀ x ∈ a.rules, ∀ c ∈ cs, ∀ s ∈ c.stages, x.rule.Answers s) :
    ∃ results, a.analyzeEach cs = .ok results := by
  induction cs generalizing a with
  | nil => exact ⟨[], rfl⟩
  | cons c cs ih =>
    obtain ⟨result, hresult⟩ := Analysis.exists_follow_of_answers (a := ⟨a.rules, c, {}⟩)
      (hvisits c List.mem_cons_self) fun x hx => h x hx c List.mem_cons_self
    have hanalyze : a.analyze c = .ok result := hresult
    have hrules := map_rule_analyze hanalyze
    obtain ⟨results, hresults⟩ := ih (a := ⟨result.rules⟩)
      (fun c hc => hvisits c (List.mem_cons_of_mem _ hc)) (by
        intro x hx c' hc'
        obtain ⟨y, hy, heq⟩ :=
          List.mem_map.1 (hrules ▸ List.mem_map_of_mem (f := ActiveRule.rule) hx)
        exact heq ▸ h y hy c' (List.mem_cons_of_mem _ hc'))
    rw [analyzeEach, hanalyze]
    simp only [hresults]
    exact ⟨_, rfl⟩

/-- Runs that come to their ends meet no node out of place. -/
theorem Analyzer.allVisits_of_analyzeEach {a : Analyzer} {cs : List Compilation}
    {results : List Analysis} (h : a.analyzeEach cs = .ok results) :
    ∀ c ∈ cs, AllVisits c.stages := by
  induction cs generalizing a results with
  | nil => exact nofun
  | cons c cs ih =>
    obtain ⟨result, rest, hresult, hrest, -, -⟩ := analyzeEach_cons_eq_ok h
    exact List.forall_mem_cons.2 ⟨allVisits_of_analyze hresult, ih hrest⟩

/-! ### What a rule tells -/

theorem housed_nil : Housed [] := fun _ hg => absurd hg List.not_mem_nil

theorem housed_flatMap_stages (cs : List Compilation) : Housed (cs.flatMap Compilation.stages) := by
  induction cs with
  | nil => exact housed_nil
  | cons c cs ih =>
    rw [List.flatMap_cons]
    exact housed_append_iff.2 ⟨c.housed_stages, ih⟩

namespace Builtin

@[simp] theorem activeAfter_nil (b : Builtin) : b.activeAfter [] = b.rule.activate := by
  rw [activeAfter, stateAfter_nil]
  rfl

/-- Whether some replies report what a built-in rule reports in some trees, each of them behind a
history and the stages of the replies before it. -/
def Tells (b : Builtin) (trees : List Tree) (history : List Stage) : List Reply → List Reply → Prop :=
  Along fun before (x : Reply) =>
    x.reports = b.reports trees (history ++ before.map Reply.stage) x.context.tree x.visit

/-- The reports of a rule that looks at some of the stages, at each on its own. -/
theorem Tells.reports_of_pick {α : Type} {b : Builtin} {trees : List Tree} {history : List Stage}
    {before xs : List Reply} (h : b.Tells trees history before xs) (pick : Stage → Option α)
    (r : α → List Diagnostic)
    (hvisit : ∀ history place t v,
      b.reports trees history t v = ((pick ⟨place, t, .visit v⟩).map r).getD []) :
    xs.flatMap Reply.reports = ((xs.map Reply.stage).filterMap pick).flatMap r := by
  induction xs generalizing before with
  | nil => rfl
  | cons x xs ih =>
    obtain ⟨hx, hxs⟩ := along_cons.1 h
    have hreports : x.reports = ((pick x.stage).map r).getD [] :=
      hx.trans (hvisit _ x.context.place _ _)
    rw [List.flatMap_cons, ih hxs, hreports, List.map_cons]
    cases hpick : pick x.stage with
    | none => rw [List.filterMap_cons_none hpick]; rfl
    | some a => rw [List.filterMap_cons_some hpick, List.flatMap_cons]; rfl

/-- A reply of a rule in its state after a history, and the state that it leaves the rule in. -/
theorem of_valid {b : Builtin} {history : List Stage} {x : Reply}
    (hrule : x.rule = b.activeAfter history) (hvalid : x.Valid)
    (hhoused : Housed (history ++ [x.stage])) :
    x.reports = b.reports x.context.compilation.trees history x.context.tree x.visit ∧
      x.next = b.activeAfter (history ++ [x.stage]) := by
  obtain ⟨rule, ⟨c, place, t⟩, v, response⟩ := x
  obtain rfl : rule = b.activeAfter history := hrule
  obtain ⟨consulted, hrespond⟩ : ∃ consulted,
      b.rule.respond ⟨c, place, t⟩ v (b.stateAfter history) =
        .ok ⟨b.stateAfter (history ++ [⟨place, t, .visit v⟩]), b.reports c.trees history t v,
          consulted⟩ := b.respond_eq hhoused
  obtain rfl := Except.ok.inj (hrespond.symm.trans hvalid)
  exact ⟨rfl, rfl⟩

end Builtin

namespace Analysis

theorem trees_advance {a a' : Analysis} {stage : Stage} (h : a.advance stage = .ok a') :
    a'.compilation.trees = a.compilation.trees := by
  obtain ⟨v, next, -, hnext, rfl, -⟩ := advance_eq_ok h
  have htrees := congrArg Compilation.trees (compilation_answer hnext)
  rwa [Compilation.trees_consult] at htrees

/-- One stage: the rule reports what it does behind its history, and has the stage in its history
from then on. -/
theorem reply_builtin {a a' : Analysis} {stage : Stage} (h : a.advance stage = .ok a') {i : Nat}
    {b : Builtin} {history : List Stage} (hi : a.rules[i]? = some (b.activeAfter history))
    (hhoused : Housed (history ++ [stage])) :
    ∃ x, (a.repliesAt stage)[i]? = some x ∧ x.stage = stage ∧
      x.reports = b.reports a.compilation.trees history x.context.tree x.visit ∧
      a'.rules[i]? = some (b.activeAfter (history ++ [stage])) := by
  obtain ⟨x, hx, hrule, hvalid, hnext⟩ := getElem?_repliesAt h hi
  obtain ⟨-, -, rfl⟩ := of_getElem?_repliesAt hx
  have hlog : x ∈ a.log [x.stage] := List.mem_append_left _ (List.mem_of_getElem? hx)
  obtain ⟨hreports, hstate⟩ := Builtin.of_valid hrule hvalid hhoused
  rw [trees_of_mem_log hlog] at hreports
  exact ⟨x, hx, rfl, hreports, hstate ▸ hnext⟩

/-- A run: the rule tells at every stage what it reports behind the stages before. -/
theorem tells_column {a a' : Analysis} {stages : List Stage} (h : a.follow stages = .ok a') {i : Nat}
    {b : Builtin} {history : List Stage} (before : List Reply)
    (hi : a.rules[i]? = some (b.activeAfter (history ++ before.map Reply.stage)))
    (hhoused : Housed (history ++ before.map Reply.stage ++ stages)) :
    b.Tells a.compilation.trees history before (column i (a.rows stages)) ∧
      (column i (a.rows stages)).map Reply.stage = stages ∧
      a'.rules[i]? = some (b.activeAfter (history ++ before.map Reply.stage ++ stages)) := by
  -- the replies so far say which state the rule is in
  induction stages generalizing a before with
  | nil =>
    cases h
    exact ⟨along_nil, rfl, by rwa [List.append_nil]⟩
  | cons stage stages ih =>
    rw [follow] at h
    cases hs : a.advance stage with
    | error d => simp [hs] at h
    | ok next =>
      rw [hs] at h
      rw [List.append_cons] at hhoused ⊢
      obtain ⟨x, hx, rfl, hreports, hnext⟩ := reply_builtin hs hi (housed_append_iff.1 hhoused).1
      have hbefore : history ++ before.map Reply.stage ++ [x.stage] =
          history ++ (before ++ [x]).map Reply.stage := by simp
      rw [hbefore] at hnext hhoused ⊢
      obtain ⟨htells, hstages, hlast⟩ := ih h _ hnext hhoused
      rw [trees_advance hs] at htells
      simp only [rows, hs, column_cons_some hx, List.map_cons, hstages]
      exact ⟨⟨hreports, htells⟩, trivial, hlast⟩

end Analysis

namespace Analyzer

open Analysis

/-- The rules of an analyzer of built-in rules answer at every stage of a walk. -/
theorem answers_of_mem {bs : List Builtin} {x : ActiveRule} (hx : x ∈ (ofBuiltin bs).rules)
    {c : Compilation} {s : Stage} (hs : s ∈ c.stages) : x.rule.Answers s := by
  rw [rules_ofBuiltin] at hx
  obtain ⟨b, -, rfl⟩ := List.mem_map.1 hx
  exact b.answers hs

/-- A run of an analyzer with a built-in rule that meets no node out of place comes to its end, if
the other rules answer at every stage. -/
theorem exists_analyze_of_builtin {a : Analyzer} {c : Compilation} (b : Builtin)
    (hvisits : AllVisits c.stages)
    (h : ∀ x ∈ a.rules, x.rule = b.rule ∨ ∀ s ∈ c.stages, x.rule.Answers s) :
    ∃ result, a.analyze c = .ok result := by
  refine exists_follow_of_answers hvisits fun x hx s hs => ?_
  rcases h x hx with hrule | hothers
  · exact hrule ▸ b.answers hs
  · exact hothers s hs

/-- So do several runs. -/
theorem exists_analyzeEach_of_builtin {a : Analyzer} {cs : List Compilation} (b : Builtin)
    (hvisits : ∀ c ∈ cs, AllVisits c.stages)
    (h : ∀ x ∈ a.rules, x.rule = b.rule ∨ ∀ c ∈ cs, ∀ s ∈ c.stages, x.rule.Answers s) :
    ∃ results, a.analyzeEach cs = .ok results := by
  refine exists_analyzeEach_of_answers hvisits fun x hx c hc s hs => ?_
  rcases h x hx with hrule | hothers
  · exact hrule ▸ b.answers hs
  · exact hothers c hc s hs

/-- A built-in rule in a run that begins with it in its state after a history. -/
theorem tells_rows_from {a : Analyzer} {c : Compilation} {result : Analysis}
    (h : a.analyze c = .ok result) {i : Nat} {b : Builtin} {history : List Stage}
    (hi : a.rules[i]? = some (b.activeAfter history)) (hhistory : Housed history) :
    b.Tells c.trees history [] (column i (a.rows c)) ∧
      (column i (a.rows c)).map Reply.stage = c.stages ∧
      result.rules[i]? = some (b.activeAfter (history ++ c.stages)) := by
  have hhoused : Housed (history ++ c.stages) := housed_append_iff.2 ⟨hhistory, c.housed_stages⟩
  obtain ⟨htells, hstages, hlast⟩ :=
    tells_column h [] (by simpa using hi) (by simpa using hhoused)
  exact ⟨htells, hstages, by simpa using hlast⟩

/-- A built-in rule in a run that begins with it in its first state. -/
theorem tells_rows {a : Analyzer} {c : Compilation} {result : Analysis}
    (h : a.analyze c = .ok result) {i : Nat} {b : Builtin}
    (hi : a.rules[i]? = some b.rule.activate) :
    b.Tells c.trees [] [] (column i (a.rows c)) ∧
      (column i (a.rows c)).map Reply.stage = c.stages := by
  rw [← b.activeAfter_nil] at hi
  obtain ⟨htells, hstages, -⟩ := tells_rows_from h hi housed_nil
  exact ⟨htells, hstages⟩

theorem tells_history_from {a : Analyzer} {cs : List Compilation} {results : List Analysis}
    (h : a.analyzeEach cs = .ok results) {i : Nat} {b : Builtin} {earlier : List Stage}
    (hi : a.rules[i]? = some (b.activeAfter earlier)) (hearlier : Housed earlier) {k : Nat}
    {c : Compilation} {rows : List (List Reply)} (hc : cs[k]? = some c)
    (hrows : (a.history cs)[k]? = some rows) :
    b.Tells c.trees (earlier ++ (cs.take k).flatMap Compilation.stages) [] (column i rows) ∧
      (column i rows).map Reply.stage = c.stages := by
  induction cs generalizing a results earlier k with
  | nil => cases hc
  | cons c' cs ih =>
    obtain ⟨result, rest, hresult, hrest, rfl, hhistory⟩ := analyzeEach_cons_eq_ok h
    obtain ⟨htells, hstages, hnext⟩ := tells_rows_from hresult hi hearlier
    rw [hhistory] at hrows
    cases k with
    | zero =>
      obtain rfl : c' = c := by simpa using hc
      obtain rfl : a.rows c' = rows := by simpa using hrows
      rw [List.take_zero, List.flatMap_nil, List.append_nil]
      exact ⟨htells, hstages⟩
    | succ k =>
      rw [List.take_succ_cons, List.flatMap_cons, ← List.append_assoc]
      exact ih hrest hnext (housed_append_iff.2 ⟨hearlier, c'.housed_stages⟩) (by simpa using hc)
        (by simpa using hrows)

/-- **A built-in rule in successive runs**, among any other rules: in each run it replies at every
stage, and tells there what it reports behind the stages of the run and of the runs before. -/
theorem tells_history {a : Analyzer} {cs : List Compilation} {results : List Analysis}
    (h : a.analyzeEach cs = .ok results) {i : Nat} {b : Builtin}
    (hi : a.rules[i]? = some b.rule.activate) {k : Nat} {c : Compilation}
    {rows : List (List Reply)} (hc : cs[k]? = some c) (hrows : (a.history cs)[k]? = some rows) :
    b.Tells c.trees ((cs.take k).flatMap Compilation.stages) [] (column i rows) ∧
      (column i rows).map Reply.stage = c.stages := by
  rw [← b.activeAfter_nil] at hi
  exact tells_history_from h hi housed_nil hc hrows

end Analyzer

end ProgramCheck
