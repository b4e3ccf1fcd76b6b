import ProgramCheck.Analyzer

/-!
# Replies

The answers that rules give, one by one. `Rule.run` asks a single rule about a list of visits, and
`Analysis.log` lists the replies that the rules of an analysis give along a walk, stage by stage and
at each stage rule by rule, up to the first defect. The report of an analysis holds what these
replies report, in their order.
-/

namespace ProgramCheck

/-- The answers of a rule to some visits, each in its own context: the state in which they leave the
rule, and what it reports. -/
def Rule.run (r : Rule) (state : r.State) :
    List (Context × Visit) → Except Defect (r.State × List Diagnostic)
  | [] => .ok (state, [])
  | (cx, v) :: visits =>
    match r.respond cx v state with
    | .error d => .error d
    | .ok response =>
      match r.run response.state visits with
      | .error d => .error d
      | .ok (state', reports) => .ok (state', response.reports ++ reports)

/-- What a rule reports that stays in its state and never fails. -/
theorem Rule.run_eq_ok {r : Rule} {state : r.State} (reports : Context → Visit → List Diagnostic)
    {visits : List (Context × Visit)}
    (h : ∀ x ∈ visits, ∃ consulted,
      r.respond x.1 x.2 state = .ok ⟨state, reports x.1 x.2, consulted⟩) :
    r.run state visits = .ok (state, visits.flatMap fun x => reports x.1 x.2) := by
  induction visits with
  | nil => rfl
  | cons x visits ih =>
    obtain ⟨consulted, hx⟩ := h x List.mem_cons_self
    simp only [Rule.run, hx, ih fun y hy => h y (List.mem_cons_of_mem _ hy), List.flatMap_cons]

/-! ### The log of an analysis -/

/-- The reply of a rule to a visit: the rule in the state in which it was asked, what it saw, and
its response. -/
structure Reply where
  rule : ActiveRule
  context : Context
  visit : Visit
  response : Response rule.rule.State

namespace Reply

/-- The name of the rule that replied. -/
def name (x : Reply) : String := x.rule.rule.name

/-- What the rule reported. -/
def reports (x : Reply) : List Diagnostic := x.response.reports

end Reply

namespace Analysis

/-- The replies of some rules to a visit, given in order from a compilation up to the first
defect. -/
def replies (place : Nat) (t : Tree) (v : Visit) : List ActiveRule → Compilation → List Reply
  | [], _ => []
  | r :: rules, c =>
    match r.rule.respond ⟨c, place, t⟩ v r.state with
    | .error _ => []
    | .ok response =>
      ⟨r, ⟨c, place, t⟩, v, response⟩ :: replies place t v rules (c.consult response.consulted)

/-- The replies to one stage. -/
def repliesAt (a : Analysis) (stage : Stage) : List Reply :=
  match stage.step with
  | .defect _ => []
  | .visit v => replies stage.place stage.tree v a.rules a.compilation

/-- The replies to some stages, up to the first defect. -/
def log (a : Analysis) : List Stage → List Reply
  | [] => []
  | stage :: stages =>
    a.repliesAt stage ++
      match a.advance stage with
      | .error _ => []
      | .ok a' => a'.log stages

theorem log_append (a : Analysis) (xs ys : List Stage) :
    a.log (xs ++ ys) =
      a.log xs ++
        match a.follow xs with
        | .error _ => []
        | .ok a' => a'.log ys := by
  induction xs generalizing a with
  | nil => rfl
  | cons x xs ih =>
    rw [List.cons_append, log, log, follow, List.append_assoc]
    cases a.advance x with
    | error d => rfl
    | ok next => exact congrArg (_ ++ ·) (ih next)

theorem report_answer {place : Nat} {t : Tree} {v : Visit} {rules : List ActiveRule}
    {c : Compilation} {a : Analysis} (h : answer place t v rules c = .ok a) :
    a.report = Report.ofList ((replies place t v rules c).flatMap Reply.reports) := by
  induction rules generalizing c a with
  | nil =>
    cases h
    rfl
  | cons r rules ih =>
    rw [answer] at h
    rw [replies]
    cases hr : r.rule.respond ⟨c, place, t⟩ v r.state with
    | error d => simp [hr] at h
    | ok response =>
      rw [hr] at h
      cases hrest : answer place t v rules (c.consult response.consulted) with
      | error d => simp [hrest] at h
      | ok rest =>
        simp only [hrest, Except.ok.injEq] at h
        subst h
        rw [List.flatMap_cons, Report.ofList_append, ih hrest]
        rfl

/-- A stage adds to the report what the replies to it report. -/
theorem report_advance {a a' : Analysis} {stage : Stage} (h : a.advance stage = .ok a') :
    a'.report = a.report ++ Report.ofList ((a.repliesAt stage).flatMap Reply.reports) := by
  rw [advance] at h
  rw [repliesAt]
  cases hs : stage.step with
  | defect d => simp [hs] at h
  | visit v =>
    rw [hs] at h
    cases hv : answer stage.place stage.tree v a.rules a.compilation with
    | error d => simp [hv] at h
    | ok next =>
      simp only [hv, Except.ok.injEq] at h
      subst h
      rw [← report_answer hv]

/-- **The report of an analysis is what the replies of its log report**, in their order. -/
theorem report_follow {a a' : Analysis} {stages : List Stage} (h : a.follow stages = .ok a') :
    a'.report = a.report ++ Report.ofList ((a.log stages).flatMap Reply.reports) := by
  induction stages generalizing a with
  | nil =>
    cases h
    simp [log, Report.append_empty]
  | cons stage stages ih =>
    rw [follow] at h
    rw [log]
    cases hs : a.advance stage with
    | error d => simp [hs] at h
    | ok next =>
      rw [hs] at h
      rw [ih h, report_advance hs, List.flatMap_append, Report.ofList_append, Report.append_assoc]

/-- An analysis that comes to its end has met no node out of place. -/
theorem exists_visit_of_follow {a a' : Analysis} {stages : List Stage}
    (h : a.follow stages = .ok a') {stage : Stage} (hmem : stage ∈ stages) :
    ∃ v, stage.step = .visit v := by
  induction stages generalizing a with
  | nil => cases hmem
  | cons first rest ih =>
    rw [follow] at h
    cases hfirst : a.advance first with
    | error d => simp [hfirst] at h
    | ok next =>
      rw [hfirst] at h
      rcases List.mem_cons.1 hmem with rfl | hmem
      · cases hs : stage.step with
        | visit v => exact ⟨v, rfl⟩
        | defect d => simp [advance, hs] at hfirst
      · exact ih h hmem

end Analysis

/-- The replies of the rules of an analyzer along the walk through a compilation. -/
def Analyzer.log (a : Analyzer) (c : Compilation) : List Reply :=
  Analysis.log ⟨a.rules, c, {}⟩ c.stages

end ProgramCheck
