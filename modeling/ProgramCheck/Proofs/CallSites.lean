import ProgramCheck.Proofs.CallReports
import ProgramCheck.Proofs.NodeReports

/-!
# What is visited in front of a call

A call stands in the body of a function that a module lists. In front of the call the walk has gone
through everything in front of this module, through the functions that the module lists in front of
the function, and through a part of the function; of what the module lists behind the function
nothing is visited yet. So the functions that a call can find are known, and the last of them is the
function that it stands in.
-/

namespace ProgramCheck

/-- A list that is made of pieces is split inside one of its pieces. -/
theorem exists_of_flatMap_eq {α β : Type*} {g : α → List β} {as : List α} {before after : List β}
    {b : β} (h : as.flatMap g = before ++ b :: after) :
    ∃ front a behind inner rest, as = front ++ a :: behind ∧ g a = inner ++ b :: rest ∧
      before = front.flatMap g ++ inner := by
  induction as generalizing before with
  | nil => simp at h
  | cons a as ih =>
    rw [List.flatMap_cons] at h
    rcases List.append_eq_append_iff.1 h with ⟨later, rfl, hlater⟩ | ⟨inner, ha, hinner⟩
    · obtain ⟨front, a', behind, inner, rest, rfl, ha', rfl⟩ := ih hlater
      exact ⟨a :: front, a', behind, inner, rest, rfl, ha', by simp⟩
    · cases inner with
      | nil =>
        -- the element is the first one behind the piece of `a`
        have hfirst : as.flatMap g = [] ++ b :: after := hinner.symm
        obtain ⟨front, a', behind, inner, rest, rfl, ha', hnil⟩ := ih hfirst
        refine ⟨a :: front, a', behind, inner, rest, rfl, ha', ?_⟩
        rw [List.flatMap_cons, List.append_assoc, ← hnil, ha, List.append_nil, List.append_nil]
      | cons b' inner =>
        cases hinner
        exact ⟨[], a, as, before, inner, rfl, ha, rfl⟩

/-- A list is split behind its first member, at any other element. -/
theorem exists_of_cons_eq {α : Type*} {x y : α} {xs before after : List α} (hne : y ≠ x)
    (h : x :: xs = before ++ y :: after) :
    ∃ inner, before = x :: inner ∧ xs = inner ++ y :: after := by
  cases before with
  | nil =>
    cases h
    exact absurd rfl hne
  | cons b before =>
    cases h
    exact ⟨before, rfl, rfl⟩

theorem visitedFunctions_append (xs ys : List Stage) :
    visitedFunctions (xs ++ ys) = visitedFunctions xs ++ visitedFunctions ys :=
  List.filterMap_append

/-! ### In one tree -/

namespace Tree

variable {t : Tree} {place : Nat}

theorem visitedFunctions_stagesOf_append (xs ys : List Step) :
    visitedFunctions (t.stagesOf place (xs ++ ys)) =
      visitedFunctions (t.stagesOf place xs) ++ visitedFunctions (t.stagesOf place ys) := by
  rw [stagesOf, List.map_append, visitedFunctions_append]
  rfl

theorem visitedFunctions_of_body {pre post : List Step} {ids : List NodeId}
    (h : ids.flatMap t.statementSteps = pre ++ post) :
    visitedFunctions (t.stagesOf place pre) = [] := by
  have hall : visitedFunctions (t.stagesOf place (ids.flatMap t.statementSteps)) = [] :=
    visitedFunctions_body ids
  rw [h, visitedFunctions_stagesOf_append] at hall
  exact (List.append_eq_nil_iff.1 hall).1

/-! ### Below a function -/

theorem mem_preorder_of_mem_expressionSteps {id : NodeId} {v : Visit}
    (h : .visit v ∈ t.expressionSteps id) : v.id ∈ t.preorder id := by
  induction id, h using expressionSteps_induction with
  | misplaced id _ h => cases h
  | visit id _ e he h =>
    cases h
    exact t.mem_preorder_self id
  | part id _ e child _ he hchild ih => exact Forest.mem_preorder_of_mem_children hchild ih

theorem mem_preorder_of_mem_statementSteps {id : NodeId} {v : Visit}
    (h : .visit v ∈ t.statementSteps id) : v.id ∈ t.preorder id := by
  induction id, h using statementSteps_induction with
  | misplaced id _ h => cases h
  | visit id _ s hs h =>
    cases h
    exact t.mem_preorder_self id
  | operand id _ s child hs hchild h =>
    exact Forest.mem_preorder_of_mem_children hchild (mem_preorder_of_mem_expressionSteps h)
  | nested id _ s child _ hs hchild ih => exact Forest.mem_preorder_of_mem_children hchild ih

/-- What is visited in the body of a function stands below the function. -/
theorem mem_preorder_of_mem_body {fid s : NodeId} {g : Function} (hg : t.function? fid = some g)
    (hs : s ∈ g.body.getD []) {v : Visit} (hv : .visit v ∈ t.statementSteps s) :
    v.id ∈ t.preorder fid :=
  Forest.mem_preorder_of_mem_children (mem_children_of_body hg hs)
    (mem_preorder_of_mem_statementSteps hv)

/-! ### The site of an expression -/

/-- An expression is visited in the body of a function of a module, behind the function and the
functions that the module lists in front of it. -/
theorem exists_site (place : Nat) {pre post : List Step} {id : NodeId} {e : Expression}
    (h : t.steps = pre ++ .visit ⟨id, .expression e⟩ :: post) :
    ∃ mid ∈ t.program.modules, ∃ m, t.module? mid = some m ∧
      ∃ fs fid fs', m.functions = fs ++ fid :: fs' ∧ ∃ g, t.function? fid = some g ∧
        (∃ s ∈ g.body.getD [], .visit ⟨id, .expression e⟩ ∈ t.statementSteps s) ∧
        ∃ front, visitedFunctions (t.stagesOf place pre) =
          front ++ t.functionsAmong place fs ++ [⟨place, t, fid, g⟩] := by
  -- the walk is split at the program, in a module, in a function of it and in its body
  rw [steps] at h
  obtain ⟨inProgram, rfl, hprogram⟩ := exists_of_cons_eq (by simp) h
  obtain ⟨ms, mid, ms', inModule, rest, hms, hmid, rfl⟩ := exists_of_flatMap_eq hprogram
  rw [moduleSteps] at hmid
  cases hm : t.module? mid with
  | none => simp [hm, List.cons_eq_append_iff] at hmid
  | some m =>
    rw [hm] at hmid
    obtain ⟨inModule, rfl, hmodule⟩ := exists_of_cons_eq (by simp) hmid
    obtain ⟨fs, fid, fs', inFunction, rest', hfs, hfid, rfl⟩ := exists_of_flatMap_eq hmodule
    rw [functionSteps] at hfid
    cases hg : t.function? fid with
    | none => simp [hg, List.cons_eq_append_iff] at hfid
    | some g =>
      rw [hg] at hfid
      obtain ⟨inBody, rfl, hbody⟩ := exists_of_cons_eq (by simp) hfid
      have hmem : .visit ⟨id, .expression e⟩ ∈ (g.body.getD []).flatMap t.statementSteps := by
        rw [hbody]
        simp
      have hown : visitedFunctions (t.stagesOf place (fs.flatMap t.functionSteps ++
          .visit ⟨fid, .functionDecl g⟩ :: inBody)) =
          t.functionsAmong place fs ++ [⟨place, t, fid, g⟩] := by
        have hlast : visitedFunctions (t.stagesOf place (.visit ⟨fid, .functionDecl g⟩ :: inBody)) =
            ⟨place, t, fid, g⟩ :: visitedFunctions (t.stagesOf place inBody) := rfl
        rw [visitedFunctions_stagesOf_append, visitedFunctions_flatMap_functionSteps, hlast,
          visitedFunctions_of_body hbody]
      refine ⟨mid, by simp [hms], m, hm, fs, fid, fs', hfs, g, hg, List.mem_flatMap.1 hmem,
        visitedFunctions (t.stagesOf place (ms.flatMap t.moduleSteps)), ?_⟩
      rw [List.append_assoc, ← hown]
      exact visitedFunctions_stagesOf_append _ (.visit ⟨mid, .moduleDecl m⟩ :: _)

end Tree

/-! ### In a compilation -/

/-- A visited expression stands in the body of a function of a declared module, and the functions
that were visited last in front of it are those that the module lists up to this function. -/
theorem exists_callSite {c : Compilation} {before after : List Stage} {place : Nat} {t : Tree}
    {id : NodeId} {e : Expression}
    (h : c.stages = before ++ ⟨place, t, .visit ⟨id, .expression e⟩⟩ :: after) :
    ∃ m ∈ declaredModules c.trees, ∃ g ∈ m.functions, m.place = place ∧ m.tree = t ∧
      (∃ s ∈ g.node.body.getD [], .visit ⟨id, .expression e⟩ ∈ t.statementSteps s) ∧
      ∃ fs fs' front, m.node.functions = fs ++ g.id :: fs' ∧
        visitedFunctions before = front ++ t.functionsAmong place fs ++ [g] := by
  rw [c.stages_eq, stagesFrom] at h
  obtain ⟨front, ⟨t', place'⟩, behind, inner, rest, hzip, hstages, rfl⟩ := exists_of_flatMap_eq h
  obtain ⟨pre, post, hsteps, rfl, hpost⟩ := List.map_eq_append_iff.1 hstages
  obtain ⟨step, post, rfl, hstage, rfl⟩ := List.map_eq_cons_iff.1 hpost
  obtain ⟨rfl, rfl, rfl⟩ : place' = place ∧ t' = t ∧ step = .visit ⟨id, .expression e⟩ := by
    simpa using hstage
  obtain ⟨mid, hmid, m, hm, fs, fid, fs', hfs, g, hg, hbody, own, hown⟩ :=
    Tree.exists_site place' hsteps
  have htree : c.trees[place']? = some t' := by
    have hmem : (t', place') ∈ c.trees.zipIdx := by simp [hzip]
    simpa using List.mem_zipIdx_iff_getElem?.1 hmem
  refine ⟨⟨place', t', mid, m⟩, mem_declaredModules_iff.2 ⟨htree, hmid, hm⟩, ⟨place', t', fid, g⟩,
    Visited.mem_functions_iff.2 ⟨rfl, rfl, by simp [hfs], hg⟩, rfl, rfl, hbody, fs, fs',
    visitedFunctions (front.flatMap fun x => x.1.stages x.2) ++ own, hfs, ?_⟩
  rw [visitedFunctions_append, List.append_assoc, List.append_assoc, ← List.append_assoc own,
    ← hown]
  rfl

end ProgramCheck
