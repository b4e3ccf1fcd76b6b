import ProgramCheck.Proofs.CallSites

/-!
# Where a walk is

A walk goes into the modules of its program one after the other, and in a module into its functions;
`whereabouts` says which of them it is in after some steps. The rules do not know where the walk is:
they look for the nearest module and the nearest function above the node that they are asked about.
On the way up from a visited node there are only statements and expressions in front of the function
that the walk is in, so what is found above is where the walk is, in trees with nodes out of place
too.
-/

namespace ProgramCheck

/-- Where a walk is: the module that it is in, and in this module the function. -/
structure Whereabouts where
  module? : Option NodeId := none
  function? : Option NodeId := none
  deriving DecidableEq

/-- Where a walk is after one more step. It is in the module that it visited last and in the
function that it visited last in this module. -/
def Whereabouts.after (w : Whereabouts) : Step → Whereabouts
  | .visit ⟨_, .program _⟩ => {}
  | .visit ⟨id, .moduleDecl _⟩ => ⟨some id, none⟩
  | .visit ⟨id, .functionDecl _⟩ => ⟨w.module?, some id⟩
  | _ => w

/-- Where a walk is after some steps. -/
def whereabouts (steps : List Step) : Whereabouts := steps.foldl Whereabouts.after {}

namespace Whereabouts

/-- What no step of some changes, all of them together do not. -/
theorem foldl_after {α : Type*} (p : Whereabouts → α) {steps : List Step}
    (h : ∀ step ∈ steps, ∀ w, p (after w step) = p w) (w : Whereabouts) :
    p (steps.foldl after w) = p w := by
  induction steps generalizing w with
  | nil => rfl
  | cons step steps ih =>
    rw [List.forall_mem_cons] at h
    rw [List.foldl_cons, ih h.2, h.1]

end Whereabouts

namespace Tree

variable {t : Tree} {id mid fid : NodeId} {m : Module} {g : Function} {v : Visit} {step : Step}
  {before behind : List Step}

/-! ### Where a walk stays -/

/-- In a body a walk stays in its function. -/
theorem after_of_mem_statementSteps (h : step ∈ t.statementSteps id) (w : Whereabouts) :
    w.after step = w := by
  cases step with
  | defect d => rfl
  | visit v =>
    obtain ⟨id', subject⟩ := v
    obtain ⟨⟨s, hs⟩ | ⟨e, he⟩, -⟩ := of_mem_statementSteps h
    · cases hs
      rfl
    · cases he
      rfl

/-- In a function a walk stays in its module. -/
theorem module?_after_of_mem_functionSteps (h : step ∈ t.functionSteps id) (w : Whereabouts) :
    (w.after step).module? = w.module? := by
  rw [functionSteps] at h
  cases hg : t.function? id with
  | none =>
    simp only [hg, List.mem_singleton] at h
    rw [h]
    rfl
  | some g =>
    simp only [hg, List.mem_cons, List.mem_flatMap] at h
    rcases h with rfl | ⟨s, -, h⟩
    · rfl
    · rw [after_of_mem_statementSteps h]

/-- What a walk visits, and where it is then. It is in a module when it comes to a function of the
module, and in both when it comes to what stands in the body of the function. -/
inductive VisitedIn (t : Tree) : Whereabouts → Visit → Prop
  | program : VisitedIn t {} ⟨t.root, .program t.program⟩
  | module {w : Whereabouts} {mid : NodeId} {m : Module} (hmid : mid ∈ t.program.modules)
    (hm : t.module? mid = some m) : VisitedIn t w ⟨mid, .moduleDecl m⟩
  | function {w : Whereabouts} {mid fid : NodeId} {m : Module} {g : Function}
    (hmid : mid ∈ t.program.modules) (hm : t.module? mid = some m) (hfid : fid ∈ m.functions)
    (hg : t.function? fid = some g) (hw : w.module? = some mid) :
    VisitedIn t w ⟨fid, .functionDecl g⟩
  | body {mid fid s : NodeId} {m : Module} {g : Function} {v : Visit}
    (hmid : mid ∈ t.program.modules) (hm : t.module? mid = some m) (hfid : fid ∈ m.functions)
    (hg : t.function? fid = some g) (hs : s ∈ g.body.getD []) (hv : .visit v ∈ t.statementSteps s) :
    VisitedIn t ⟨some mid, some fid⟩ v

theorem visitedIn_of_functionSteps_eq {w : Whereabouts} (hmid : mid ∈ t.program.modules)
    (hm : t.module? mid = some m) (hfid : fid ∈ m.functions) (hw : w.module? = some mid)
    (h : t.functionSteps fid = before ++ .visit v :: behind) :
    t.VisitedIn (before.foldl Whereabouts.after w) v := by
  rw [functionSteps] at h
  cases hg : t.function? fid with
  | none => simp [hg, List.cons_eq_append_iff] at h
  | some g =>
    rw [hg] at h
    cases before with
    | nil =>
      cases h
      exact .function hmid hm hfid hg hw
    | cons first inBody =>
      obtain ⟨rfl, hbody⟩ := List.cons.inj h
      have hmem : .visit v ∈ (g.body.getD []).flatMap t.statementSteps := by
        rw [hbody]
        simp
      obtain ⟨s, hs, hv⟩ := List.mem_flatMap.1 hmem
      have hstay : inBody.foldl Whereabouts.after ⟨w.module?, some fid⟩ =
          ⟨w.module?, some fid⟩ := by
        refine Whereabouts.foldl_after (fun w => w) (fun step hstep => ?_) _
        have hstep : step ∈ (g.body.getD []).flatMap t.statementSteps := by
          rw [hbody]
          exact List.mem_append_left _ hstep
        obtain ⟨s, -, hstep⟩ := List.mem_flatMap.1 hstep
        exact after_of_mem_statementSteps hstep
      rw [List.foldl_cons, Whereabouts.after, hstay, hw]
      exact .body hmid hm hfid hg hs hv

theorem visitedIn_of_moduleSteps_eq (hmid : mid ∈ t.program.modules)
    (h : t.moduleSteps mid = before ++ .visit v :: behind) (w : Whereabouts) :
    t.VisitedIn (before.foldl Whereabouts.after w) v := by
  rw [moduleSteps] at h
  cases hm : t.module? mid with
  | none => simp [hm, List.cons_eq_append_iff] at h
  | some m =>
    rw [hm] at h
    cases before with
    | nil =>
      cases h
      exact .module hmid hm
    | cons first inModule =>
      obtain ⟨rfl, hmodule⟩ := List.cons.inj h
      obtain ⟨fs, fid, fs', inFunction, rest, hfs, hfid, rfl⟩ := exists_of_flatMap_eq hmodule
      rw [List.foldl_cons, List.foldl_append]
      refine visitedIn_of_functionSteps_eq hmid hm (by simp [hfs]) ?_ hfid
      -- the functions in front of this one are of the same module
      refine Whereabouts.foldl_after Whereabouts.module? (fun step hstep => ?_) ⟨some mid, none⟩
      obtain ⟨fid', -, hstep⟩ := List.mem_flatMap.1 hstep
      exact module?_after_of_mem_functionSteps hstep

/-- Where a walk is when it comes to a node is what the steps before say. -/
theorem visitedIn_of_steps_eq (h : t.steps = before ++ .visit v :: behind) :
    t.VisitedIn (whereabouts before) v := by
  rw [steps] at h
  cases before with
  | nil =>
    cases h
    exact .program
  | cons first inProgram =>
    obtain ⟨rfl, hprogram⟩ := List.cons.inj h
    obtain ⟨ms, mid, ms', inModule, rest, hms, hmid, rfl⟩ := exists_of_flatMap_eq hprogram
    rw [whereabouts, List.foldl_cons, List.foldl_append]
    exact visitedIn_of_moduleSteps_eq (by simp [hms]) hmid _

/-! ### What is found above a visited node -/

theorem visit?_of_mem_expressionSteps (h : .visit v ∈ t.expressionSteps id) :
    t.visit? v.id = some v := by
  induction id, h using expressionSteps_induction with
  | misplaced id _ h => cases h
  | visit id _ e he h =>
    cases h
    exact visit?_of_kind? (Forest.expression?_eq_some_iff.1 he) rfl
  | part id _ e child _ he hchild ih => exact ih

theorem visit?_of_mem_statementSteps (h : .visit v ∈ t.statementSteps id) :
    t.visit? v.id = some v := by
  induction id, h using statementSteps_induction with
  | misplaced id _ h => cases h
  | visit id _ s hs h =>
    cases h
    exact visit?_of_kind? (Forest.statement?_eq_some_iff.1 hs) rfl
  | operand id _ s child hs hchild h => exact visit?_of_mem_expressionSteps h
  | nested id _ s child _ hs hchild ih => exact ih

/-- Every visit is that of the node under its number. -/
theorem visit?_of_mem_steps (h : .visit v ∈ t.steps) : t.visit? v.id = some v := by
  rcases of_mem_steps h with rfl | ⟨mid, -, m, hm, rfl | ⟨fid, -, g, hg, rfl | ⟨s, -, hv⟩⟩⟩
  · exact visit?_of_kind? t.kind?_root rfl
  · exact visit?_of_kind? (Forest.module?_eq_some_iff.1 hm) rfl
  · exact visit?_of_kind? (Forest.function?_eq_some_iff.1 hg) rfl
  · exact visit?_of_mem_statementSteps hv

theorem statement?_of_mem_steps {s : Statement} (h : .visit ⟨id, .statement s⟩ ∈ t.steps) :
    t.statement? id = some s := by
  obtain ⟨x, hx, heq⟩ := Option.map_eq_some_iff.1 (visit?_of_mem_steps h)
  cases heq
  obtain ⟨k, hk, hsubject⟩ := Option.bind_eq_some_iff.1 hx
  cases k <;> cases hsubject
  exact Forest.statement?_eq_some_iff.2 hk

/-- What is found above a function is the module that the walk is in. -/
theorem enclosingModule?_of_visitedIn {w : Whereabouts} (h : t.VisitedIn w v)
    (hv : v.subject.sort ∈ [.functionDecl, .statement, .expression]) :
    ∃ mid m, w.module? = some mid ∧ t.module? mid = some m ∧
      t.enclosingModule? v.id = some mid := by
  cases h with
  | program => simp [Subject.sort] at hv
  | module => simp [Subject.sort] at hv
  | @function w mid fid m g hmid hm hfid hg hw =>
    exact ⟨mid, m, hw, hm, enclosingModule?_function hm hfid⟩
  | @body mid fid s m g v hmid hm hfid hg hs hv =>
    exact ⟨mid, m, rfl, hm,
      (enclosingModule?_body hg hs hv).trans (enclosingModule?_function hm hfid)⟩

/-- The nearest function above what is visited in the body of a function is this function. -/
theorem enclosingFunction?_body (hg : t.function? id = some g) {s : NodeId}
    (hs : s ∈ g.body.getD []) (hv : .visit v ∈ t.statementSteps s) :
    t.enclosingFunction? v.id = some id := by
  have habove : t.enclosingFunction? v.id = t.enclosingFunction? s := by
    apply find?_ancestors_of_mem_statementSteps _ _ hv
    · intro a e he
      rw [Forest.function?, Forest.expression?_eq_some_iff.1 he]
      rfl
    · intro a s hs
      rw [Forest.function?, Forest.statement?_eq_some_iff.1 hs]
      rfl
  rw [habove, Forest.enclosingFunction?,
    Forest.find?_ancestors_of_mem_children _ (mem_children_of_body hg hs), hg]
  rfl

/-- Above what stands in a body is found the function that the walk is in. -/
theorem enclosingFunction?_of_visitedIn {w : Whereabouts} (h : t.VisitedIn w v)
    (hv : v.subject.sort ∈ [.statement, .expression]) :
    ∃ fid g, w.function? = some fid ∧ t.function? fid = some g ∧
      t.enclosingFunction? v.id = some fid := by
  cases h with
  | program => simp [Subject.sort] at hv
  | module => simp [Subject.sort] at hv
  | function => simp [Subject.sort] at hv
  | @body mid fid s m g v hmid hm hfid hg hs hv =>
    exact ⟨fid, g, rfl, hg, enclosingFunction?_body hg hs hv⟩

/-! ### Where a walk cannot go on -/

/-- A step of a walk that is no visit is at a node that should have been of another sort. -/
theorem eq_misplaced_of_mem_expressionSteps {d : Defect} (h : .defect d ∈ t.expressionSteps id) :
    ∃ s id', d = t.misplaced s id' := by
  induction id, h using expressionSteps_induction with
  | misplaced id _ h => exact ⟨.expression, id, Step.defect.inj h⟩
  | visit id _ e he h => cases h
  | part id _ e child _ he hchild ih => exact ih

theorem eq_misplaced_of_mem_statementSteps {d : Defect} (h : .defect d ∈ t.statementSteps id) :
    ∃ s id', d = t.misplaced s id' := by
  induction id, h using statementSteps_induction with
  | misplaced id _ h => exact ⟨.statement, id, Step.defect.inj h⟩
  | visit id _ s hs h => cases h
  | operand id _ s child hs hchild h => exact eq_misplaced_of_mem_expressionSteps h
  | nested id _ s child _ hs hchild ih => exact ih

theorem eq_misplaced_of_mem_steps {d : Defect} (h : .defect d ∈ t.steps) :
    ∃ s id, d = t.misplaced s id := by
  simp only [steps, List.mem_cons, reduceCtorEq, false_or, List.mem_flatMap] at h
  obtain ⟨mid, -, h⟩ := h
  rw [moduleSteps] at h
  cases hm : t.module? mid with
  | none =>
    simp only [hm, List.mem_singleton, Step.defect.injEq] at h
    exact ⟨_, _, h⟩
  | some m =>
    simp only [hm, List.mem_cons, reduceCtorEq, false_or, List.mem_flatMap] at h
    obtain ⟨fid, -, h⟩ := h
    rw [functionSteps] at h
    cases hg : t.function? fid with
    | none =>
      simp only [hg, List.mem_singleton, Step.defect.injEq] at h
      exact ⟨_, _, h⟩
    | some g =>
      simp only [hg, List.mem_cons, reduceCtorEq, false_or, List.mem_flatMap] at h
      obtain ⟨s, -, h⟩ := h
      exact eq_misplaced_of_mem_statementSteps h

theorem misplaced_ne_outsideModule (t : Tree) (s : NodeSort) (id : NodeId) (name : String) :
    t.misplaced s id ≠ .outsideModule name := by
  rw [misplaced]
  cases t.kind? id <;> exact Defect.noConfusion

end Tree

/-- The symbol of the nearest module above a node, whatever the table keeps. -/
theorem SymbolTable.containingModule_of_enclosing {s : SymbolTable} {id mid : NodeId} {m : Module}
    (h : s.tree.enclosingModule? id = some mid) (hm : s.tree.module? mid = some m) :
    (s.containingModule id).1.map Entry.symbol = some ⟨m.name, .moduleSymbol, mid⟩ := by
  have hsymbol : s.tree.symbol? mid = some ⟨m.name, .moduleSymbol, mid⟩ := by
    rw [Forest.symbol?, Forest.module?_eq_some_iff.1 hm]
    rfl
  rw [← s.symbol_lookup, Option.map_eq_some_iff] at hsymbol
  obtain ⟨entry, hentry, hsymbol⟩ := hsymbol
  have hkind : (Symbol.mk m.name .moduleSymbol mid).matchesKind (some .moduleSymbol) = true := rfl
  simp [containingModule, h, lookupAs, hentry, hkind, hsymbol]

end ProgramCheck
