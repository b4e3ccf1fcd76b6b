import ProgramCheck.Proofs.CallReports
import ProgramCheck.Proofs.WalkedNodes

/-!
# The order of a walk

A walk visits the walked nodes of its tree one by one. If all of them are of the sorts that their
places call for, the rules are called at each of them, in this order and nowhere else; otherwise the
analysis ends with a defect at the first that is not, after the rules have been called at all nodes
in front of it.
-/

namespace ProgramCheck

/-- The sort of the visited subject with the number of the node. -/
def Visit.slot (v : Visit) : NodeSort × NodeId := (v.subject.sort, v.id)

/-- Some steps up to the first defect among them. -/
def upToDefect : List Step → List Step
  | [] => []
  | .visit v :: steps => .visit v :: upToDefect steps
  | .defect d :: _ => [.defect d]

@[simp] theorem upToDefect_nil : upToDefect [] = [] := rfl

@[simp] theorem upToDefect_visit (v : Visit) (steps : List Step) :
    upToDefect (.visit v :: steps) = .visit v :: upToDefect steps := rfl

@[simp] theorem upToDefect_defect (d : Defect) (steps : List Step) :
    upToDefect (.defect d :: steps) = [.defect d] := rfl

/-- Only the parts up to their first defects count for the first defect of the whole. -/
theorem upToDefect_append (xs ys : List Step) :
    upToDefect (xs ++ ys) = upToDefect (upToDefect xs ++ upToDefect ys) := by
  induction xs with
  | nil =>
    rw [List.nil_append, upToDefect_nil, List.nil_append]
    induction ys with
    | nil => rfl
    | cons y ys ih =>
      cases y with
      | visit v => rw [upToDefect_visit, upToDefect_visit, ← ih]
      | defect d => rfl
  | cons x xs ih =>
    cases x with
    | visit v =>
      rw [List.cons_append, upToDefect_visit, upToDefect_visit, List.cons_append, upToDefect_visit,
        ih]
    | defect d => rfl

theorem upToDefect_flatMap_congr {α : Type} {as : List α} {g h : α → List Step}
    (heq : ∀ a ∈ as, upToDefect (g a) = upToDefect (h a)) :
    upToDefect (as.flatMap g) = upToDefect (as.flatMap h) := by
  induction as with
  | nil => rfl
  | cons a as ih =>
    rw [List.flatMap_cons, List.flatMap_cons, upToDefect_append, heq a List.mem_cons_self,
      ih fun b hb => heq b (List.mem_cons_of_mem _ hb), ← upToDefect_append]

theorem upToDefect_visits (visits : List Visit) (steps : List Step) :
    upToDefect (visits.map .visit ++ steps) = visits.map .visit ++ upToDefect steps := by
  induction visits with
  | nil => rfl
  | cons v visits ih => exact congrArg (.visit v :: ·) ih

theorem mem_of_mem_upToDefect {steps : List Step} {step : Step} (h : step ∈ upToDefect steps) :
    step ∈ steps := by
  induction steps with
  | nil => cases h
  | cons first steps ih =>
    cases first with
    | visit v =>
      rcases List.mem_cons.1 h with rfl | h
      · exact List.mem_cons_self
      · exact List.mem_cons_of_mem _ (ih h)
    | defect d =>
      rw [List.mem_singleton.1 h]
      exact List.mem_cons_self

/-- Steps without a defect up to the first defect are all of the steps. -/
theorem eq_visits_of_upToDefect {steps : List Step} {visits : List Visit}
    (h : upToDefect steps = visits.map .visit) : steps = visits.map .visit := by
  induction steps generalizing visits with
  | nil => exact h
  | cons step steps ih =>
    cases visits with
    | nil => cases step <;> cases h
    | cons v visits =>
      cases step with
      | defect d => cases h
      | visit v' =>
        obtain ⟨hv, hsteps⟩ := List.cons.inj h
        rw [hv, ih hsteps]
        rfl

namespace Analysis

variable {place : Nat} {t : Tree}

/-- What comes behind a defect does not count for an analysis. -/
theorem follow_upToDefect (a : Analysis) (steps : List Step) :
    a.follow (t.stagesOf place (upToDefect steps)) = a.follow (t.stagesOf place steps) := by
  induction steps generalizing a with
  | nil => rfl
  | cons step steps ih =>
    cases step with
    | defect d => rfl
    | visit v =>
      simp only [upToDefect_visit, Tree.stagesOf, List.map_cons, follow]
      cases a.advance ⟨place, t, .visit v⟩ with
      | error d => rfl
      | ok next => exact ih next

theorem log_upToDefect (a : Analysis) (steps : List Step) :
    a.log (t.stagesOf place (upToDefect steps)) = a.log (t.stagesOf place steps) := by
  induction steps generalizing a with
  | nil => rfl
  | cons step steps ih =>
    cases step with
    | defect d => rfl
    | visit v =>
      simp only [upToDefect_visit, Tree.stagesOf, List.map_cons, log]
      cases a.advance ⟨place, t, .visit v⟩ with
      | error d => rfl
      | ok next => exact congrArg (_ ++ ·) (ih next)

end Analysis

namespace Tree

variable {t : Tree} {id : NodeId} {s : NodeSort}

/-! ### Step by step -/

/-- The step at a walked node: its visit if it is of the sort that its place calls for, and a defect
otherwise. -/
def stepAt (t : Tree) (slot : NodeSort × NodeId) : Step :=
  match (t.visit? slot.2).filter fun v => v.subject.sort = slot.1 with
  | some v => .visit v
  | none => .defect (t.misplaced slot.1 slot.2)

theorem stepAt_of_kind? {k : NodeKind} {x : Subject} (hk : t.kind? id = some k)
    (hx : k.subject? = some x) : t.stepAt (k.sort, id) = .visit ⟨id, x⟩ := by
  have hsort : (⟨id, x⟩ : Visit).subject.sort = k.sort := NodeKind.sort_of_subject? hx
  rw [stepAt, visit?_of_kind? hk hx, Option.filter_some, if_pos (decide_eq_true hsort)]

theorem stepAt_of_misplaced (h : ¬ t.Fits (s, id)) :
    t.stepAt (s, id) = .defect (t.misplaced s id) := by
  have hnone : ((t.visit? id).filter fun v => v.subject.sort = s) = none := by
    refine Option.filter_eq_none_iff.2 fun v hv => ?_
    obtain ⟨x, hx, rfl⟩ := Option.map_eq_some_iff.1 hv
    obtain ⟨k, hk, hx⟩ := Option.bind_eq_some_iff.1 hx
    intro hsort
    refine h ?_
    rw [Forest.Fits, Forest.sort?, hk, Option.map_some, ← NodeKind.sort_of_subject? hx,
      of_decide_eq_true hsort]
  rw [stepAt, hnone]

/-- A node that is visited, with its parts. -/
theorem upToDefect_of_visit {k : NodeKind} {x : Subject} {parts : List Step}
    (hk : t.kind? id = some k) (hx : k.subject? = some x)
    (hparts : upToDefect parts = upToDefect ((k.walkedSlots.flatMap t.walked).map t.stepAt)) :
    upToDefect (.visit ⟨id, x⟩ :: parts) = upToDefect ((t.walked (k.sort, id)).map t.stepAt) := by
  rw [Forest.walked_eq, Forest.walkedSlots_of_kind? hk, List.map_cons, stepAt_of_kind? hk hx,
    upToDefect_visit, upToDefect_visit, hparts]

/-- A node that is out of place, as it cannot be read as what its place calls for. -/
theorem upToDefect_of_none {α : Type} {node? : Option α}
    (hfits : t.Fits (s, id) → ∃ a, node? = some a) (h : node? = none) :
    upToDefect [.defect (t.misplaced s id)] = upToDefect ((t.walked (s, id)).map t.stepAt) := by
  have hmisplaced : ¬ t.Fits (s, id) := by
    intro hfit
    obtain ⟨a, ha⟩ := hfits hfit
    rw [h] at ha
    cases ha
  rw [Forest.walked_eq, List.map_cons, stepAt_of_misplaced hmisplaced]
  rfl

/-- Parts in places of one sort. -/
theorem upToDefect_parts {ids : List NodeId} {steps : NodeId → List Step}
    (h : ∀ id ∈ ids, upToDefect (steps id) = upToDefect ((t.walked (s, id)).map t.stepAt)) :
    upToDefect (ids.flatMap steps) =
      upToDefect (((ids.map (s, ·)).flatMap t.walked).map t.stepAt) := by
  rw [List.flatMap_map, List.map_flatMap]
  exact upToDefect_flatMap_congr h

theorem upToDefect_expressionSteps (t : Tree) (id : NodeId) :
    upToDefect (t.expressionSteps id) =
      upToDefect ((t.walked (.expression, id)).map t.stepAt) := by
  induction id using Nat.strongRecOn with
  | ind id ih =>
    rw [expressionSteps_eq]
    cases he : t.expression? id with
    | none => exact upToDefect_of_none Forest.exists_expression he
    | some e =>
      refine upToDefect_of_visit (Forest.expression?_eq_some_iff.1 he) rfl ?_
      exact upToDefect_parts fun child hchild => ih child (Forest.lt_of_mem_expression he hchild)

theorem upToDefect_statementSteps (t : Tree) (id : NodeId) :
    upToDefect (t.statementSteps id) = upToDefect ((t.walked (.statement, id)).map t.stepAt) := by
  induction id using Nat.strongRecOn with
  | ind id ih =>
    rw [statementSteps_eq]
    cases hs : t.statement? id with
    | none => exact upToDefect_of_none Forest.exists_statement hs
    | some s =>
      refine upToDefect_of_visit (Forest.statement?_eq_some_iff.1 hs) rfl ?_
      have hoperands := upToDefect_parts fun child (_ : child ∈ s.operands) =>
        t.upToDefect_expressionSteps child
      have hnested := upToDefect_parts fun child (hchild : child ∈ s.nested) =>
        ih child (Forest.lt_of_mem_nested hs hchild)
      rw [upToDefect_append, hoperands, hnested, ← upToDefect_append, ← List.map_append,
        ← List.flatMap_append]
      rfl

theorem upToDefect_functionSteps (t : Tree) (id : NodeId) :
    upToDefect (t.functionSteps id) =
      upToDefect ((t.walked (.functionDecl, id)).map t.stepAt) := by
  rw [functionSteps]
  cases hg : t.function? id with
  | none => exact upToDefect_of_none Forest.exists_function hg
  | some g =>
    refine upToDefect_of_visit (Forest.function?_eq_some_iff.1 hg) rfl ?_
    exact upToDefect_parts fun child _ => t.upToDefect_statementSteps child

theorem upToDefect_moduleSteps (t : Tree) (id : NodeId) :
    upToDefect (t.moduleSteps id) = upToDefect ((t.walked (.moduleDecl, id)).map t.stepAt) := by
  rw [moduleSteps]
  cases hm : t.module? id with
  | none => exact upToDefect_of_none Forest.exists_module hm
  | some m =>
    refine upToDefect_of_visit (Forest.module?_eq_some_iff.1 hm) rfl ?_
    exact upToDefect_parts fun child _ => t.upToDefect_functionSteps child

/-- The walk goes through the walked nodes, up to the first that is out of place. -/
theorem upToDefect_steps (t : Tree) :
    upToDefect t.steps = upToDefect (t.walkedNodes.map t.stepAt) := by
  rw [steps]
  refine upToDefect_of_visit t.kind?_root rfl ?_
  exact upToDefect_parts fun child _ => t.upToDefect_moduleSteps child

/-! ### The visits -/

theorem exists_kind_of_mem_walkedNodes {slot : NodeSort × NodeId} (h : slot ∈ t.walkedNodes) :
    ∃ k, t.kind? slot.2 = some k := by
  have hmem := (t.map_snd_walked_sublist (.program, t.root)).subset (List.mem_map_of_mem h)
  have hroot : t.root < t.nodes.size := Forest.lt_size_of_kind? t.kind?_root
  have hlt := Nat.lt_of_le_of_lt (Forest.le_of_mem_preorder hmem) hroot
  exact ⟨_, by rw [Forest.kind?, Array.getElem?_eq_getElem hlt, Option.map_some]⟩

/-- Nodes of visited sorts that are in place, as visits. -/
theorem exists_visits (slots : List (NodeSort × NodeId)) (hfits : ∀ slot ∈ slots, t.Fits slot)
    (hvisited : ∀ slot ∈ slots, slot.1.visited = true) :
    ∃ visits : List Visit, visits.map Visit.slot = slots ∧
      (∀ v ∈ visits, t.visit? v.id = some v) ∧ slots.map t.stepAt = visits.map .visit := by
  induction slots with
  | nil => exact ⟨[], rfl, by simp, rfl⟩
  | cons slot slots ih =>
    rw [List.forall_mem_cons] at hfits hvisited
    obtain ⟨visits, hslots, hvisits, hsteps⟩ := ih hfits.2 hvisited.2
    obtain ⟨s, id⟩ := slot
    obtain ⟨k, hk, rfl⟩ := Option.map_eq_some_iff.1 hfits.1
    obtain ⟨x, hx, hsort⟩ := NodeKind.subject?_eq_some hvisited.1
    refine ⟨⟨id, x⟩ :: visits, ?_, ?_, ?_⟩
    · rw [List.map_cons, hslots, Visit.slot, hsort]
    · exact List.forall_mem_cons.2 ⟨visit?_of_kind? hk hx, hvisits⟩
    · rw [List.map_cons, hsteps, stepAt_of_kind? hk hx, List.map_cons]

/-- If all walked nodes are in place, the walk visits each of them in their order. -/
theorem steps_of_fits (h : ∀ slot ∈ t.walkedNodes, t.Fits slot) :
    ∃ visits : List Visit, visits.map Visit.slot = t.walkedNodes ∧
      (∀ v ∈ visits, t.visit? v.id = some v) ∧ t.steps = visits.map .visit := by
  obtain ⟨visits, hslots, hvisits, hsteps⟩ := exists_visits _ h t.visited_of_mem_walkedNodes
  refine ⟨visits, hslots, hvisits, eq_visits_of_upToDefect ?_⟩
  have hall := upToDefect_visits visits []
  rw [List.append_nil, upToDefect_nil, List.append_nil] at hall
  rw [upToDefect_steps, hsteps, hall]

/-- If a walked node is out of place, the walk visits the nodes in front of the first such, and has a
defect there. -/
theorem steps_of_misplaced (h : (t.walkedNodes.find? fun slot => ¬ t.Fits slot) = some (s, id)) :
    ∃ (visits : List Visit) (k : NodeKind),
      visits.map Visit.slot = t.walkedNodes.takeWhile (t.Fits ·) ∧
      (∀ v ∈ visits, t.visit? v.id = some v) ∧ t.kind? id = some k ∧ k.sort ≠ s ∧
      upToDefect t.steps =
        visits.map .visit ++ [.defect (.wrongSort s id t.name k.sort)] := by
  obtain ⟨hnot, before, after, hsplit, hbefore⟩ := List.find?_eq_some_iff_append.1 h
  have hmisplaced : ¬ t.Fits (s, id) := of_decide_eq_true hnot
  have hfits : ∀ slot ∈ before, t.Fits slot := fun slot hslot => by simpa using hbefore slot hslot
  have hmem : ∀ slot ∈ before ++ (s, id) :: after, slot ∈ t.walkedNodes := fun _ h => hsplit ▸ h
  obtain ⟨visits, rfl, hvisits, hsteps⟩ := exists_visits before hfits fun slot hslot =>
    t.visited_of_mem_walkedNodes slot (hmem slot (List.mem_append_left _ hslot))
  obtain ⟨k, hk⟩ := exists_kind_of_mem_walkedNodes
    (hmem (s, id) (List.mem_append_right _ List.mem_cons_self))
  have hsort : k.sort ≠ s := by
    rintro rfl
    exact hmisplaced (by rw [Forest.Fits, Forest.sort?, hk, Option.map_some])
  have hdefect : t.misplaced s id = .wrongSort s id t.name k.sort := by rw [misplaced, hk]
  refine ⟨visits, k, ?_, hvisits, hk, hsort, ?_⟩
  · rw [hsplit, List.takeWhile_append_of_pos fun slot hslot => decide_eq_true (hfits slot hslot),
      List.takeWhile_cons_of_neg (by simpa using hmisplaced), List.append_nil]
  · rw [upToDefect_steps, hsplit, List.map_append, hsteps, List.map_cons,
      stepAt_of_misplaced hmisplaced, hdefect, upToDefect_visits, upToDefect_defect]

/-- If the walk meets no defect, all walked nodes are of the sorts that their places call for. -/
theorem fits_of_visits (h : ∀ step ∈ t.steps, ∃ v, step = .visit v) :
    ∀ slot ∈ t.walkedNodes, t.Fits slot := by
  intro slot hslot
  by_contra hnot
  have hfound : (t.walkedNodes.find? fun slot => ¬ t.Fits slot).isSome :=
    List.find?_isSome.2 ⟨slot, hslot, decide_eq_true hnot⟩
  obtain ⟨⟨s, id⟩, hfind⟩ := Option.isSome_iff_exists.1 hfound
  obtain ⟨visits, k, -, -, -, -, hsteps⟩ := steps_of_misplaced hfind
  have hdefect : Step.defect (.wrongSort s id t.name k.sort) ∈ upToDefect t.steps := by
    rw [hsteps]
    exact List.mem_append_right _ List.mem_cons_self
  obtain ⟨v, hv⟩ := h _ (mem_of_mem_upToDefect hdefect)
  cases hv

end Tree

/-! ### The calls along a walk -/

/-- Whether an analysis along some stages calls its rules at given ones and nowhere else, each rule
once at each of them in order: all of them if no rule fails there, and otherwise those up to the
failure, with which the analysis ends. -/
structure Analysis.CallsAt (a : Analysis) (visited stages : List Stage) : Prop where
  prefix_calls : (a.log stages).map Reply.call <+: a.calls visited
  calls_eq : ∀ a', a.follow visited = .ok a' → (a.log stages).map Reply.call = a.calls visited
  rule_failed : ∀ d, a.follow visited = .error d →
    a.follow stages = .error d ∧ ∃ r ∈ a.rules, ∃ cx v state, r.rule.respond cx v state = .error d

theorem Tree.visit_of_mem_stagesOf {t : Tree} {place : Nat} {visits : List Visit} {s : Stage}
    (h : s ∈ t.stagesOf place (visits.map .visit)) : ∃ v, s.step = .visit v := by
  obtain ⟨step, hstep, rfl⟩ := List.mem_map.1 h
  obtain ⟨v, -, rfl⟩ := List.mem_map.1 hstep
  exact ⟨v, rfl⟩

namespace Analysis

/-- Visits without a defect. -/
theorem callsAt_visits (a : Analysis) (place : Nat) (t : Tree) (visits : List Visit) :
    a.CallsAt (t.stagesOf place (visits.map .visit)) (t.stagesOf place (visits.map .visit)) where
  prefix_calls := a.prefix_map_call_log _
  calls_eq _ := map_call_log
  rule_failed _ hd := ⟨hd, exists_rule_of_follow_error (fun _ => Tree.visit_of_mem_stagesOf) hd⟩

/-- Visits in front of a defect, with which the analysis ends unless a rule fails before. -/
theorem callsAt_defect (a : Analysis) (place : Nat) (t : Tree) {visits : List Visit}
    {steps : List Step} {d : Defect}
    (h : upToDefect steps = visits.map .visit ++ [.defect d]) :
    a.CallsAt (t.stagesOf place (visits.map .visit)) (t.stagesOf place steps) ∧
      ∀ a', a.follow (t.stagesOf place (visits.map .visit)) = .ok a' →
        a.follow (t.stagesOf place steps) = .error d := by
  have hsteps : t.stagesOf place (upToDefect steps) =
      t.stagesOf place (visits.map .visit) ++ [⟨place, t, .defect d⟩] := by
    rw [h, Tree.stagesOf, List.map_append]
    rfl
  have hlog : a.log (t.stagesOf place steps) = a.log (t.stagesOf place (visits.map .visit)) := by
    -- no rule replies to a defect
    have hnone : ∀ a' : Analysis, a'.log [⟨place, t, .defect d⟩] = [] := fun _ => rfl
    rw [← log_upToDefect, hsteps, log_append]
    cases a.follow (t.stagesOf place (visits.map .visit)) with
    | error d' => exact List.append_nil _
    | ok a' => exact (congrArg (_ ++ ·) (hnone a')).trans (List.append_nil _)
  have hcalls := a.callsAt_visits place t visits
  refine ⟨⟨hlog ▸ hcalls.prefix_calls, hlog ▸ hcalls.calls_eq, fun d' hd' => ⟨?_, ?_⟩⟩,
    fun a' ha' => ?_⟩
  · rw [← follow_upToDefect, hsteps, follow_append, hd']
  · exact (hcalls.rule_failed d' hd').2
  · rw [← follow_upToDefect, hsteps, follow_append, ha']
    rfl

end Analysis

namespace Tree

/-- The nodes of a program with an expression in place of the statement of a function. -/
def brokenNodes : List Node :=
  [⟨.expression (.boolean true), ⟨3, 1⟩⟩,
   ⟨.functionDecl ⟨"main", .void, {}, [], some [0]⟩, ⟨2, 1⟩⟩,
   ⟨.moduleDecl ⟨"Main", [1], []⟩, ⟨1, 1⟩⟩,
   ⟨.program ⟨[], [2]⟩, ⟨1, 1⟩⟩]

theorem isSome_brokenTree : (Tree.ofNodes "broken.tw" brokenNodes 3).toOption.isSome = true := by
  decide +kernel

/-- The program with an expression in place of a statement. -/
def brokenTree : Tree := (Tree.ofNodes "broken.tw" brokenNodes 3).toOption.get isSome_brokenTree

end Tree

end ProgramCheck
