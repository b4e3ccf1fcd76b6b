import ProgramCheck.Proofs.Along
import ProgramCheck.Proofs.Replies

/-!
# The log by stages and by rules

The log of an analysis is a table: a row for each stage of the walk, and in each row a reply of every
rule in their order. Read by rows it says who was asked what, and in which compilation; read by
columns it says what became of one rule. A rule is at each of its replies in the state in which the
replies before it leave it, and it sees the symbol tables as all replies before, of whichever rule,
leave them.
-/

namespace ProgramCheck

theorem Rule.run_append {r : Rule} {state : r.State} {xs ys : List (Context × Visit)} :
    r.run state (xs ++ ys) =
      match r.run state xs with
      | .error d => .error d
      | .ok (state', reports) =>
        match r.run state' ys with
        | .error d => .error d
        | .ok (state'', reports') => .ok (state'', reports ++ reports') := by
  induction xs generalizing state with
  | nil =>
    simp only [List.nil_append, Rule.run]
    cases r.run state ys <;> rfl
  | cons x xs ih =>
    obtain ⟨cx, v⟩ := x
    rw [List.cons_append, Rule.run, Rule.run]
    cases r.respond cx v state with
    | error d => rfl
    | ok response =>
      simp only [ih]
      cases r.run response.state xs with
      | error d => rfl
      | ok result =>
        simp only
        cases r.run result.1 ys with
        | error d => rfl
        | ok result' => simp only [List.append_assoc]

/-- The rule after some questions. -/
def ActiveRule.after (r : ActiveRule) (questions : List (Context × Visit)) :
    Except Defect ActiveRule :=
  (r.rule.run r.state questions).map fun result => ⟨r.rule, result.1⟩

@[simp] theorem ActiveRule.after_nil (r : ActiveRule) : r.after [] = .ok r := rfl

namespace Reply

/-- The stage at which the rule replied. -/
def stage (x : Reply) : Stage := ⟨x.context.place, x.context.tree, .visit x.visit⟩

/-- The rule with the stage at which it replied. -/
def call (x : Reply) : Rule × Stage := (x.rule.rule, x.stage)

/-- What the rule was asked. -/
def question (x : Reply) : Context × Visit := (x.context, x.visit)

/-- The nodes that the rule consulted. -/
def consulted (x : Reply) : List (Nat × NodeId) := x.response.consulted

/-- The rule in the state in which the reply leaves it. -/
def next (x : Reply) : ActiveRule := ⟨x.rule.rule, x.response.state⟩

/-- Whether the response is the one that the rule gives. -/
def Valid (x : Reply) : Prop :=
  x.rule.rule.respond x.context x.visit x.rule.state = .ok x.response

end Reply

theorem ActiveRule.after_concat {r : ActiveRule} {questions : List (Context × Visit)} {x : Reply}
    (h : r.after questions = .ok x.rule) (hx : x.Valid) :
    r.after (questions ++ [x.question]) = .ok x.next := by
  obtain ⟨rule, state⟩ := r
  obtain ⟨⟨rule', state'⟩, context, visit, response⟩ := x
  unfold Reply.Valid at hx
  unfold ActiveRule.after at h ⊢
  rw [Rule.run_append]
  cases hrun : rule.run state questions with
  | error d => simp [hrun, Except.map] at h
  | ok result =>
    simp only [hrun, Except.map, Except.ok.injEq] at h
    cases h
    simp only at hx
    simp [Rule.run, Reply.question, hx, Except.map, Reply.next]

/-- Whether some replies are those of one rule that is asked again and again: at each of them the
rule is in the state in which the replies before leave it, and the response is the one it gives. -/
def ActiveRule.Gives (r : ActiveRule) : List Reply → List Reply → Prop :=
  Along fun before (x : Reply) => r.after (before.map Reply.question) = .ok x.rule ∧ x.Valid

/-- Whether some replies are given from a compilation on: each sees it as the nodes that were
consulted before leave it. -/
def Compilation.Seen (c : Compilation) : List Reply → List Reply → Prop :=
  Along fun before (x : Reply) => x.context.compilation = c.consult (before.flatMap Reply.consulted)

theorem Compilation.consult_append (c : Compilation) (xs ys : List (Nat × NodeId)) :
    c.consult (xs ++ ys) = (c.consult xs).consult ys := by
  simp [Compilation.consult, List.foldl_append]

@[simp] theorem Compilation.consult_nil (c : Compilation) : c.consult [] = c := rfl

namespace Analysis

/-! ### One row -/

section Row

variable {place : Nat} {t : Tree} {v : Visit} {rules : List ActiveRule} {c : Compilation}
  {next : Analysis}

/-- The rules that answer a visit at all answer it in their order, each of them once. -/
theorem map_rule_replies (h : answer place t v rules c = .ok next) :
    (replies place t v rules c).map Reply.rule = rules := by
  induction rules generalizing c next with
  | nil => rfl
  | cons r rules ih =>
    rw [answer] at h
    rw [replies]
    cases hr : r.rule.respond ⟨c, place, t⟩ v r.state with
    | error d => simp [hr] at h
    | ok response =>
      rw [hr] at h
      cases hrest : answer place t v rules (c.consult response.consulted) with
      | error d => simp [hrest] at h
      | ok rest => rw [List.map_cons, ih hrest]

theorem map_next_replies (h : answer place t v rules c = .ok next) :
    (replies place t v rules c).map Reply.next = next.rules := by
  induction rules generalizing c next with
  | nil =>
    cases h
    rfl
  | cons r rules ih =>
    rw [answer] at h
    rw [replies]
    cases hr : r.rule.respond ⟨c, place, t⟩ v r.state with
    | error d => simp [hr] at h
    | ok response =>
      rw [hr] at h
      cases hrest : answer place t v rules (c.consult response.consulted) with
      | error d => simp [hrest] at h
      | ok rest =>
        simp only [hrest, Except.ok.injEq] at h
        subst h
        rw [List.map_cons, ih hrest]
        rfl

/-- Every reply to a visit is what its rule answers to it. -/
theorem of_mem_replies {x : Reply} (h : x ∈ replies place t v rules c) :
    x.Valid ∧ x.stage = ⟨place, t, .visit v⟩ := by
  induction rules generalizing c with
  | nil => cases h
  | cons r rules ih =>
    rw [replies] at h
    cases hr : r.rule.respond ⟨c, place, t⟩ v r.state with
    | error d => simp [hr] at h
    | ok response =>
      rw [hr] at h
      rcases List.mem_cons.1 h with rfl | h
      · exact ⟨hr, rfl⟩
      · exact ih h

/-- The rules answer from the compilation as the rules before them leave it. -/
theorem seen_replies {c₀ : Compilation} {before : List Reply}
    (h : c = c₀.consult (before.flatMap Reply.consulted)) :
    c₀.Seen before (replies place t v rules c) := by
  induction rules generalizing c before with
  | nil => exact along_nil
  | cons r rules ih =>
    rw [replies]
    cases r.rule.respond ⟨c, place, t⟩ v r.state with
    | error d => exact along_nil
    | ok response =>
      refine ⟨h, ih ?_⟩
      rw [List.flatMap_append, Compilation.consult_append, ← h, List.flatMap_singleton]
      rfl

theorem compilation_answer (h : answer place t v rules c = .ok next) :
    next.compilation = c.consult ((replies place t v rules c).flatMap Reply.consulted) := by
  induction rules generalizing c next with
  | nil =>
    cases h
    rfl
  | cons r rules ih =>
    rw [answer] at h
    rw [replies]
    cases hr : r.rule.respond ⟨c, place, t⟩ v r.state with
    | error d => simp [hr] at h
    | ok response =>
      rw [hr] at h
      cases hrest : answer place t v rules (c.consult response.consulted) with
      | error d => simp [hrest] at h
      | ok rest =>
        simp only [hrest, Except.ok.injEq] at h
        subst h
        have hlast := ih hrest
        rw [List.flatMap_cons, Compilation.consult_append]
        exact hlast

/-- The rules that answer a visit come first among all of them. -/
theorem prefix_map_rule_replies (place : Nat) (t : Tree) (v : Visit) (rules : List ActiveRule)
    (c : Compilation) : (replies place t v rules c).map Reply.rule <+: rules := by
  induction rules generalizing c with
  | nil => exact List.nil_prefix
  | cons r rules ih =>
    rw [replies]
    cases r.rule.respond ⟨c, place, t⟩ v r.state with
    | error d => exact List.nil_prefix
    | ok response => exact List.cons_prefix_cons.2 ⟨rfl, ih _⟩

theorem prefix_map_call_replies (place : Nat) (t : Tree) (v : Visit) (rules : List ActiveRule)
    (c : Compilation) :
    (replies place t v rules c).map Reply.call <+:
      rules.map fun r => (r.rule, ⟨place, t, .visit v⟩) := by
  have hcalls : (replies place t v rules c).map Reply.call =
      ((replies place t v rules c).map Reply.rule).map fun r => (r.rule, ⟨place, t, .visit v⟩) := by
    rw [List.map_map]
    exact List.map_congr_left fun x hx => congrArg (x.rule.rule, ·) (of_mem_replies hx).2
  rw [hcalls]
  exact (prefix_map_rule_replies place t v rules c).map _

theorem exists_rule_of_answer_error {d : Defect} (h : answer place t v rules c = .error d) :
    ∃ r ∈ rules, ∃ cx v state, r.rule.respond cx v state = .error d := by
  induction rules generalizing c with
  | nil => cases h
  | cons r rules ih =>
    rw [answer] at h
    cases hr : r.rule.respond ⟨c, place, t⟩ v r.state with
    | error d' =>
      simp only [hr, Except.error.injEq] at h
      subst h
      exact ⟨r, List.mem_cons_self, _, v, r.state, hr⟩
    | ok response =>
      rw [hr] at h
      cases hrest : answer place t v rules (c.consult response.consulted) with
      | ok rest => simp [hrest] at h
      | error d' =>
        simp only [hrest, Except.error.injEq] at h
        subst h
        obtain ⟨r', hr', hfail⟩ := ih hrest
        exact ⟨r', List.mem_cons_of_mem _ hr', hfail⟩

end Row

/-! ### The table -/

/-- The replies to some stages, up to the first defect, in a row for each stage. -/
def rows (a : Analysis) : List Stage → List (List Reply)
  | [] => []
  | stage :: stages =>
    a.repliesAt stage ::
      match a.advance stage with
      | .error _ => []
      | .ok a' => a'.rows stages

theorem log_eq_flatten_rows (a : Analysis) (stages : List Stage) :
    a.log stages = (a.rows stages).flatten := by
  induction stages generalizing a with
  | nil => rfl
  | cons stage stages ih =>
    rw [log, rows, List.flatten_cons]
    cases a.advance stage with
    | error d => rfl
    | ok a' => simp only [ih]

theorem advance_eq_ok {a a' : Analysis} {stage : Stage} (h : a.advance stage = .ok a') :
    ∃ v next, stage.step = .visit v ∧
      answer stage.place stage.tree v a.rules a.compilation = .ok next ∧
      a' = { next with report := a.report ++ next.report } ∧
      a.repliesAt stage = replies stage.place stage.tree v a.rules a.compilation := by
  rw [advance] at h
  cases hs : stage.step with
  | defect d => simp [hs] at h
  | visit v =>
    rw [hs] at h
    cases hv : answer stage.place stage.tree v a.rules a.compilation with
    | error d => simp [hv] at h
    | ok next =>
      simp only [hv, Except.ok.injEq] at h
      exact ⟨v, next, rfl, hv, h.symm, by rw [repliesAt, hs]⟩

/-- The calls at a stage are those of all rules, in their order. -/
theorem map_call_repliesAt {a a' : Analysis} {stage : Stage} (h : a.advance stage = .ok a') :
    (a.repliesAt stage).map Reply.call = a.rules.map fun r => (r.rule, stage) := by
  obtain ⟨v, next, hs, hnext, -, hreplies⟩ := advance_eq_ok h
  have hstage : stage = ⟨stage.place, stage.tree, .visit v⟩ := by rw [← hs]
  conv_rhs => rw [← map_rule_replies hnext, List.map_map]
  rw [hreplies]
  refine List.map_congr_left fun x hx => ?_
  rw [Reply.call, (of_mem_replies hx).2, ← hstage]
  rfl

theorem prefix_map_call_repliesAt (a : Analysis) (stage : Stage) :
    (a.repliesAt stage).map Reply.call <+: a.rules.map fun r => (r.rule, stage) := by
  obtain ⟨place, t, step⟩ := stage
  cases step with
  | defect d => exact List.nil_prefix
  | visit v => exact prefix_map_call_replies place t v a.rules a.compilation

/-- A stage leaves the rules themselves as they are. -/
theorem map_rule_advance {a a' : Analysis} {stage : Stage} (h : a.advance stage = .ok a') :
    a'.rules.map ActiveRule.rule = a.rules.map ActiveRule.rule := by
  obtain ⟨v, next, -, hnext, rfl, -⟩ := advance_eq_ok h
  change next.rules.map ActiveRule.rule = _
  conv_rhs => rw [← map_rule_replies hnext, List.map_map]
  rw [← map_next_replies hnext, List.map_map]
  rfl

/-- An analysis leaves the rules themselves as they are. -/
theorem map_rule_follow {a a' : Analysis} {stages : List Stage} (h : a.follow stages = .ok a') :
    a'.rules.map ActiveRule.rule = a.rules.map ActiveRule.rule := by
  induction stages generalizing a with
  | nil =>
    cases h
    rfl
  | cons stage stages ih =>
    rw [follow] at h
    cases hs : a.advance stage with
    | error d => simp [hs] at h
    | ok next =>
      rw [hs] at h
      exact (ih h).trans (map_rule_advance hs)

/-- Which rules are called at a stage does not depend on the states that they are in. -/
theorem map_call_congr {rules rules' : List ActiveRule}
    (h : rules'.map ActiveRule.rule = rules.map ActiveRule.rule) (s : Stage) :
    (rules'.map fun r => (r.rule, s)) = rules.map fun r => (r.rule, s) := by
  have := congrArg (List.map fun r : Rule => (r, s)) h
  rwa [List.map_map, List.map_map] at this

/-- **The calls of an analysis** that comes to its end: stage by stage each rule once, in order. -/
theorem map_call_rows {a a' : Analysis} {stages : List Stage} (h : a.follow stages = .ok a') :
    (a.rows stages).map (·.map Reply.call) =
      stages.map fun s => a.rules.map fun r => (r.rule, s) := by
  induction stages generalizing a with
  | nil => rfl
  | cons stage stages ih =>
    rw [follow] at h
    rw [rows]
    cases hs : a.advance stage with
    | error d => simp [hs] at h
    | ok next =>
      rw [hs] at h
      rw [List.map_cons, List.map_cons, map_call_repliesAt hs, ih h]
      simp only [map_call_congr (map_rule_advance hs)]

/-- The calls of an analysis at some stages that all rules answer: at each stage each rule once, in
order. -/
def calls (a : Analysis) (stages : List Stage) : List (Rule × Stage) :=
  stages.flatMap fun s => a.rules.map fun r => (r.rule, s)

theorem calls_congr {a a' : Analysis}
    (h : a'.rules.map ActiveRule.rule = a.rules.map ActiveRule.rule) (stages : List Stage) :
    a'.calls stages = a.calls stages :=
  List.flatMap_congr fun s _ => map_call_congr h s

theorem map_call_log {a a' : Analysis} {stages : List Stage} (h : a.follow stages = .ok a') :
    (a.log stages).map Reply.call = a.calls stages := by
  rw [log_eq_flatten_rows, List.map_flatten, map_call_rows h, calls, List.flatMap_def]

/-- An analysis that ends early has called the rules up to some point, and made no other calls. -/
theorem prefix_map_call_log (a : Analysis) (stages : List Stage) :
    (a.log stages).map Reply.call <+: a.calls stages := by
  induction stages generalizing a with
  | nil => exact List.nil_prefix
  | cons stage stages ih =>
    rw [log, calls, List.flatMap_cons, List.map_append]
    cases hs : a.advance stage with
    | error d =>
      rw [List.map_nil, List.append_nil]
      exact (prefix_map_call_repliesAt a stage).trans (List.prefix_append _ _)
    | ok next =>
      rw [map_call_repliesAt hs, List.prefix_append_right_inj]
      change _ <+: a.calls stages
      rw [← calls_congr (map_rule_advance hs)]
      exact ih next

/-- If an analysis ends early at visits, then because a rule failed. -/
theorem exists_rule_of_follow_error {a : Analysis} {stages : List Stage} {d : Defect}
    (hvisits : ∀ s ∈ stages, ∃ v, s.step = .visit v) (h : a.follow stages = .error d) :
    ∃ r ∈ a.rules, ∃ cx v state, r.rule.respond cx v state = .error d := by
  induction stages generalizing a with
  | nil => cases h
  | cons stage stages ih =>
    rw [follow] at h
    cases hs : a.advance stage with
    | error d' =>
      simp only [hs, Except.error.injEq] at h
      subst h
      obtain ⟨v, hv⟩ := hvisits stage List.mem_cons_self
      rw [advance, hv] at hs
      cases hanswer : answer stage.place stage.tree v a.rules a.compilation with
      | ok next => simp [hanswer] at hs
      | error d =>
        simp only [hanswer, Except.error.injEq] at hs
        subst hs
        exact exists_rule_of_answer_error hanswer
    | ok next =>
      rw [hs] at h
      obtain ⟨r, hr, cx, v, state, hfail⟩ :=
        ih (fun s hs => hvisits s (List.mem_cons_of_mem _ hs)) h
      -- the rules of the next analysis are those of this one, in other states
      have hrule : r.rule ∈ a.rules.map ActiveRule.rule := by
        rw [← map_rule_advance hs]
        exact List.mem_map_of_mem hr
      obtain ⟨r', hr', heq⟩ := List.mem_map.1 hrule
      refine ⟨r', hr', cx, v, ?_⟩
      rw [heq]
      exact ⟨state, hfail⟩

/-- A rule sees the compilation as all replies before leave it. -/
theorem seen_rows {a : Analysis} {stages : List Stage} {c : Compilation} {before : List Reply}
    (h : a.compilation = c.consult (before.flatMap Reply.consulted)) :
    c.Seen before (a.rows stages).flatten := by
  induction stages generalizing a before with
  | nil => exact along_nil
  | cons stage stages ih =>
    rw [rows, List.flatten_cons]
    refine along_append.2 ⟨?_, ?_⟩
    · unfold repliesAt
      cases stage.step with
      | defect d => exact along_nil
      | visit v => exact seen_replies h
    · cases hs : a.advance stage with
      | error d => exact along_nil
      | ok next =>
        refine ih ?_
        obtain ⟨v, next, -, hnext, rfl, hreplies⟩ := advance_eq_ok hs
        have hlast := compilation_answer hnext
        rw [List.flatMap_append, Compilation.consult_append, ← h, hreplies]
        exact hlast

/-- Every reply of a log is what its rule answers at one of the stages. -/
theorem of_mem_log {a : Analysis} {stages : List Stage} {x : Reply} (h : x ∈ a.log stages) :
    x.Valid ∧ x.stage ∈ stages := by
  induction stages generalizing a with
  | nil => cases h
  | cons stage stages ih =>
    rw [log, List.mem_append] at h
    rcases h with h | h
    · obtain ⟨place, t, step⟩ := stage
      cases step with
      | defect d => cases h
      | visit v =>
        obtain ⟨hvalid, hstage⟩ := of_mem_replies h
        exact ⟨hvalid, hstage ▸ List.mem_cons_self⟩
    · cases hs : a.advance stage with
      | error d => simp [hs] at h
      | ok next =>
        rw [hs] at h
        obtain ⟨hvalid, hstage⟩ := ih h
        exact ⟨hvalid, List.mem_cons_of_mem _ hstage⟩

/-- Every reply of a log sees the trees of the compilation that the analysis is of. -/
theorem trees_of_mem_log {a : Analysis} {stages : List Stage} {x : Reply} (h : x ∈ a.log stages) :
    x.context.compilation.trees = a.compilation.trees := by
  rw [log_eq_flatten_rows] at h
  have hseen : a.compilation.Seen [] (a.rows stages).flatten := seen_rows rfl
  obtain ⟨before, after, hsplit⟩ := List.append_of_mem h
  rw [along_iff.1 hseen before x after hsplit, Compilation.trees_consult]

/-! ### One column -/

/-- The replies of the rule with a number. -/
def column (i : Nat) (rows : List (List Reply)) : List Reply := rows.filterMap (·[i]?)

theorem column_cons_some {i : Nat} {row : List Reply} {x : Reply} (h : row[i]? = some x)
    (rows : List (List Reply)) : column i (row :: rows) = x :: column i rows :=
  List.filterMap_cons_some h

theorem column_cons_none {i : Nat} {row : List Reply} (h : row[i]? = none)
    (rows : List (List Reply)) : column i (row :: rows) = column i rows :=
  List.filterMap_cons_none h

/-- The reply of a rule to a stage, with the rule before and behind it. -/
theorem getElem?_repliesAt {a a' : Analysis} {stage : Stage} (h : a.advance stage = .ok a')
    {i : Nat} {r : ActiveRule} (hr : a.rules[i]? = some r) :
    ∃ x, (a.repliesAt stage)[i]? = some x ∧ x.rule = r ∧ x.Valid ∧ a'.rules[i]? = some x.next := by
  obtain ⟨v, next, -, hnext, rfl, hreplies⟩ := advance_eq_ok h
  rw [hreplies]
  have hrule := hr
  rw [← map_rule_replies hnext, List.getElem?_map, Option.map_eq_some_iff] at hrule
  obtain ⟨x, hx, rfl⟩ := hrule
  refine ⟨x, hx, rfl, (of_mem_replies (List.mem_of_getElem? hx)).1, ?_⟩
  change next.rules[i]? = _
  rw [← map_next_replies hnext, List.getElem?_map, hx, Option.map_some]

/-- What the rule with a number replied to a stage, whether or not a later rule failed there. -/
theorem of_getElem?_repliesAt {a : Analysis} {stage : Stage} {i : Nat} {x : Reply}
    (h : (a.repliesAt stage)[i]? = some x) :
    a.rules[i]? = some x.rule ∧ x.Valid ∧ x.stage = stage := by
  obtain ⟨place, t, step⟩ := stage
  cases step with
  | defect d => cases h
  | visit v =>
    have hx : (replies place t v a.rules a.compilation)[i]? = some x := h
    refine ⟨?_, of_mem_replies (List.mem_of_getElem? hx)⟩
    obtain ⟨hi, -⟩ := List.getElem?_eq_some_iff.1 hx
    obtain ⟨rest, hrest⟩ := prefix_map_rule_replies place t v a.rules a.compilation
    rw [← hrest, List.getElem?_append_left (by rwa [List.length_map]), List.getElem?_map, hx,
      Option.map_some]

/-- The replies of a rule go on from those it gave before, up to a defect, and they follow the
stages. -/
theorem gives_column {a : Analysis} {stages : List Stage} {i : Nat} {r r' : ActiveRule}
    {before : List Reply} (hr : a.rules[i]? = some r)
    (hbefore : r'.after (before.map Reply.question) = .ok r) :
    r'.Gives before (column i (a.rows stages)) ∧
      (column i (a.rows stages)).map Reply.stage <+: stages := by
  induction stages generalizing a r before with
  | nil => exact ⟨along_nil, List.nil_prefix⟩
  | cons stage stages ih =>
    rw [rows]
    cases hx : (a.repliesAt stage)[i]? with
    | none =>
      rw [column_cons_none hx]
      -- without a reply of this rule the analysis ends here
      cases hs : a.advance stage with
      | error d => exact ⟨along_nil, List.nil_prefix⟩
      | ok next =>
        obtain ⟨x, hx', -⟩ := getElem?_repliesAt hs hr
        rw [hx] at hx'
        cases hx'
    | some x =>
      obtain ⟨hrule, hvalid, hstage⟩ := of_getElem?_repliesAt hx
      obtain rfl : r = x.rule := Option.some.inj (hr.symm.trans hrule)
      rw [column_cons_some hx, List.map_cons, hstage, List.cons_prefix_cons]
      cases hs : a.advance stage with
      | error d => exact ⟨⟨⟨hbefore, hvalid⟩, along_nil⟩, rfl, List.nil_prefix⟩
      | ok next =>
        obtain ⟨x', hx', -, -, hnext⟩ := getElem?_repliesAt hs hr
        obtain rfl : x = x' := Option.some.inj (hx.symm.trans hx')
        have hafter : r'.after ((before ++ [x]).map Reply.question) = .ok x.next := by
          rw [List.map_append]
          exact ActiveRule.after_concat hbefore hvalid
        obtain ⟨hgives, hprefix⟩ := ih hnext hafter
        exact ⟨⟨⟨hbefore, hvalid⟩, hgives⟩, rfl, hprefix⟩

/-- **What becomes of a rule** in an analysis that comes to its end: it replies at every stage, and
its replies go on from those it gave before. -/
theorem gives_column_rows {a a' : Analysis} {stages : List Stage} (h : a.follow stages = .ok a')
    {i : Nat} {r r' : ActiveRule} {before : List Reply} (hr : a.rules[i]? = some r)
    (hbefore : r'.after (before.map Reply.question) = .ok r) :
    r'.Gives before (column i (a.rows stages)) ∧
      (column i (a.rows stages)).map Reply.stage = stages ∧
      ∃ r'', a'.rules[i]? = some r'' ∧
        r'.after ((before ++ column i (a.rows stages)).map Reply.question) = .ok r'' := by
  refine ⟨(gives_column hr hbefore).1, ?_⟩
  induction stages generalizing a r before with
  | nil =>
    cases h
    exact ⟨rfl, r, hr, by simpa [rows, column] using hbefore⟩
  | cons stage stages ih =>
    rw [follow] at h
    rw [rows]
    cases hs : a.advance stage with
    | error d => simp [hs] at h
    | ok next =>
      rw [hs] at h
      obtain ⟨x, hx, rfl, hvalid, hnext⟩ := getElem?_repliesAt hs hr
      have hafter : r'.after ((before ++ [x]).map Reply.question) = .ok x.next := by
        rw [List.map_append]
        exact ActiveRule.after_concat hbefore hvalid
      obtain ⟨hstages, hlast⟩ := ih h hnext hafter
      simp only [column_cons_some hx]
      refine ⟨by rw [List.map_cons, hstages, (of_getElem?_repliesAt hx).2.2], ?_⟩
      rwa [List.append_assoc, List.singleton_append] at hlast

end Analysis

end ProgramCheck
