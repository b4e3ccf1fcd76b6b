import ProgramCheck.Proofs.SuccessiveRuns

/-!
# The table of the rule on calls

The rule on calls keeps a table of functions by name, from visit to visit and from run to run. From
whatever table it starts, behind some replies it has the functions in front that it was asked about,
the latest first. So what it replies to a call depends on these functions and on the table that it
started from.
-/

namespace ProgramCheck

open Builtin

variable {declared : List (String × Origin)} {history : List Stage}

/-- The answers of a rule to a visit and to the visits behind it. -/
theorem Rule.run_cons_eq_ok {r : Rule} {state state' : r.State} {cx : Context} {v : Visit}
    {response : Response r.State} {visits : List (Context × Visit)} {reports : List Diagnostic}
    (hv : r.respond cx v state = .ok response)
    (hvisits : r.run response.state visits = .ok (state', reports)) :
    r.run state ((cx, v) :: visits) = .ok (state', response.reports ++ reports) := by
  rw [run, hv]
  simp only [hvisits]

/-- The rule on calls, in the state that some functions and the visits of a history leave it in. -/
def callRule (declared : List (String × Origin)) (history : List Stage) : ActiveRule :=
  ⟨.callVisibility, origins history ++ declared⟩

theorem run_callVisibility (declared : List (String × Origin)) {xs : List Reply}
    (h : Housed (history ++ xs.map Reply.stage)) :
    ∃ reports, Rule.callVisibility.run (origins history ++ declared) (xs.map Reply.question) =
      .ok (origins (history ++ xs.map Reply.stage) ++ declared, reports) := by
  induction xs generalizing history with
  | nil => exact ⟨[], by rw [List.map_nil, List.map_nil, List.append_nil]; rfl⟩
  | cons x xs ih =>
    have hsplit : history ++ (x :: xs).map Reply.stage =
        history ++ [x.stage] ++ xs.map Reply.stage := by simp
    rw [hsplit] at h ⊢
    have hx : Rule.callVisibility.respond x.context x.visit (origins history ++ declared) =
        .ok ⟨origins (history ++ [x.stage]) ++ declared,
          callReportsFrom declared history x.context.tree x.visit, []⟩ :=
      respond_callVisibility_from declared (housed_append_iff.1 h).1
    obtain ⟨reports, hreports⟩ := ih h
    exact ⟨_, Rule.run_cons_eq_ok hx hreports⟩

/-- **The table behind some replies**: the functions that the rule was asked about are in front. -/
theorem after_callRule {xs : List Reply} (h : Housed (history ++ xs.map Reply.stage)) :
    (callRule declared history).after (xs.map Reply.question) =
      .ok (callRule declared (history ++ xs.map Reply.stage)) := by
  obtain ⟨reports, hrun⟩ := run_callVisibility declared h
  rw [ActiveRule.after, callRule]
  simp only [hrun, Except.map]
  rfl

/-- What a reply of the rule reports depends on the functions that it was asked about before, and on
the table that it started from. -/
theorem reports_of_after {before : List Reply} {x : Reply}
    (h : Housed (history ++ before.map Reply.stage ++ [x.stage]))
    (hafter : (callRule declared history).after (before.map Reply.question) = .ok x.rule)
    (hx : x.Valid) :
    x.reports = callReportsFrom declared (history ++ before.map Reply.stage) x.context.tree
      x.visit := by
  rw [after_callRule (housed_append_iff.1 h).1] at hafter
  obtain ⟨rule, ⟨c, place, t⟩, v, response⟩ := x
  obtain rfl : callRule declared (history ++ before.map Reply.stage) = rule :=
    Except.ok.inj hafter
  have hrespond := respond_callVisibility_from (c := c) declared h
  have hvalid : Rule.callVisibility.respond ⟨c, place, t⟩ v
      (origins (history ++ before.map Reply.stage) ++ declared) = .ok response := hx
  have hresponse := Except.ok.inj (hvalid.symm.trans hrespond)
  rw [Reply.reports, hresponse]

/-- A reply of the rule stands behind the stages in front of its own, and reports what is reported
on the visit behind them, even if the analysis ends before its time. -/
theorem exists_split_of_mem_column {a : Analyzer} {c : Compilation} {i : Nat}
    (hi : a.rules[i]? = some (callRule declared [])) {x : Reply}
    (hx : x ∈ Analysis.column i (a.rows c)) :
    ∃ before after, c.stages = before ++ x.stage :: after ∧
      x.reports = callReportsFrom declared before x.context.tree x.visit := by
  obtain ⟨before, behind, hcolumn⟩ := List.append_of_mem hx
  obtain ⟨hgives, hprefix⟩ : (callRule declared []).Gives [] (Analysis.column i (a.rows c)) ∧
      (Analysis.column i (a.rows c)).map Reply.stage <+: c.stages :=
    Analysis.gives_column hi (ActiveRule.after_nil _)
  rw [hcolumn] at hgives hprefix
  obtain ⟨hafter, hvalid⟩ := along_iff.1 hgives before x behind rfl
  obtain ⟨rest, hrest⟩ := hprefix
  have hsplit : c.stages =
      before.map Reply.stage ++ x.stage :: (behind.map Reply.stage ++ rest) := by
    rw [← hrest, List.map_append, List.append_assoc]
    rfl
  have hhoused : Housed (before.map Reply.stage ++ [x.stage]) := by
    have hall := c.housed_stages
    rw [hsplit, List.append_cons, housed_append_iff] at hall
    exact hall.1
  exact ⟨_, _, hsplit, reports_of_after hhoused hafter hvalid⟩

end ProgramCheck
