import Mathlib.Data.List.Basic
import ProgramCheck.Analyzer
import ProgramCheck.Proofs.Slots

/-!
# The shape of a walk

What the walk visits, and where that stands. Every visited module is one of the program's, every
visited function is one of a visited module, and every visited statement or expression lies below
the body of a visited function; hence the nearest module above a visited node is a visited module.
In a well-kinded tree the walk meets no defect, and below a statement it visits every node in
preorder.
-/

namespace ProgramCheck

namespace Tree

variable {t : Tree} {id : NodeId} {v : Visit}

/-! ### The steps from a node of the right sort -/

theorem expressionSteps_of_some {e : Expression} (h : t.expression? id = some e) :
    t.expressionSteps id = .visit ⟨id, .expression e⟩ :: e.children.flatMap t.expressionSteps := by
  rw [expressionSteps_eq, h]

theorem statementSteps_of_some {s : Statement} (h : t.statement? id = some s) :
    t.statementSteps id = .visit ⟨id, .statement s⟩ ::
      (s.operands.flatMap t.expressionSteps ++ s.nested.flatMap t.statementSteps) := by
  rw [statementSteps_eq, h]

theorem functionSteps_of_some {g : Function} (h : t.function? id = some g) :
    t.functionSteps id =
      .visit ⟨id, .functionDecl g⟩ :: (g.body.getD []).flatMap t.statementSteps := by
  rw [functionSteps, h]

theorem moduleSteps_of_some {m : Module} (h : t.module? id = some m) :
    t.moduleSteps id = .visit ⟨id, .moduleDecl m⟩ :: m.functions.flatMap t.functionSteps := by
  rw [moduleSteps, h]

/-! ### Parts by their places -/

theorem kind?_root (t : Tree) : t.kind? t.root = some (.program t.program) := t.kind_root

theorem mem_children_of_expression {e : Expression} (h : t.expression? id = some e)
    {child : NodeId} (hchild : child ∈ e.children) : child ∈ t.children id := by
  rw [Forest.children_eq_of_kind? (Forest.expression?_eq_some_iff.1 h)]
  exact hchild

theorem mem_children_of_operand {s : Statement} (h : t.statement? id = some s)
    {child : NodeId} (hchild : child ∈ s.operands) : child ∈ t.children id := by
  rw [Forest.children_eq_of_kind? (Forest.statement?_eq_some_iff.1 h)]
  exact List.mem_append_left _ hchild

theorem mem_children_of_nested {s : Statement} (h : t.statement? id = some s)
    {child : NodeId} (hchild : child ∈ s.nested) : child ∈ t.children id := by
  rw [Forest.children_eq_of_kind? (Forest.statement?_eq_some_iff.1 h)]
  exact List.mem_append_right _ hchild

theorem mem_children_of_body {g : Function} (h : t.function? id = some g)
    {child : NodeId} (hchild : child ∈ g.body.getD []) : child ∈ t.children id := by
  rw [Forest.children_eq_of_kind? (Forest.function?_eq_some_iff.1 h)]
  exact List.mem_append_right _ hchild

theorem mem_children_of_function {m : Module} (h : t.module? id = some m)
    {child : NodeId} (hchild : child ∈ m.functions) : child ∈ t.children id := by
  rw [Forest.children_eq_of_kind? (Forest.module?_eq_some_iff.1 h)]
  exact List.mem_append_left _ hchild

theorem mem_children_of_module {child : NodeId} (hchild : child ∈ t.program.modules) :
    child ∈ t.children t.root := by
  rw [Forest.children_eq_of_kind? t.kind?_root]
  exact List.mem_append_right _ hchild

/-! ### Well-kinded blocks -/

/-- A list of statements, with all parts below them of the sorts that their places call for. -/
def WellKindedBlock (t : Tree) (block : List NodeId) : Prop :=
  ∀ id ∈ block, t.WellKindedFrom id ∧ ∃ s, t.statement? id = some s

theorem WellKindedBlock.tail {rest : List NodeId} (h : t.WellKindedBlock (id :: rest)) :
    t.WellKindedBlock rest :=
  fun d hd => h d (List.mem_cons_of_mem _ hd)

theorem WellKindedBlock.left {xs ys : List NodeId} (h : t.WellKindedBlock (xs ++ ys)) :
    t.WellKindedBlock xs :=
  fun d hd => h d (List.mem_append_left _ hd)

theorem WellKindedBlock.right {xs ys : List NodeId} (h : t.WellKindedBlock (xs ++ ys)) :
    t.WellKindedBlock ys :=
  fun d hd => h d (List.mem_append_right _ hd)

/-- The statements nested in the first statement of a well-kinded block. -/
theorem WellKindedBlock.nested {rest : List NodeId} {s : Statement}
    (h : t.WellKindedBlock (id :: rest)) (hs : t.statement? id = some s) :
    t.WellKindedBlock s.nested := by
  intro d hd
  have hk := (h id List.mem_cons_self).1
  exact ⟨hk.of_mem_children (mem_children_of_nested hs hd), hk.slotsFit.exists_nested hs hd⟩

theorem wellKindedBlock_body {g : Function} (hk : t.WellKindedFrom id)
    (hg : t.function? id = some g) : t.WellKindedBlock (g.body.getD []) :=
  fun _ hd => ⟨hk.of_mem_children (mem_children_of_body hg hd), hk.slotsFit.exists_body hg hd⟩

/-! ### Where the visited nodes stand -/

/-- Induction over the way down to a step of the walk through an expression. -/
@[elab_as_elim] theorem expressionSteps_induction {step : Step}
    {motive : (id : NodeId) → step ∈ t.expressionSteps id → Prop}
    (misplaced : ∀ id h, step = .defect (t.misplaced .expression id) → motive id h)
    (visit : ∀ id h e, t.expression? id = some e → step = .visit ⟨id, .expression e⟩ → motive id h)
    (part : ∀ id h e child hchild, t.expression? id = some e → child ∈ t.children id →
      motive child hchild → motive id h)
    (id : NodeId) (h : step ∈ t.expressionSteps id) : motive id h := by
  induction id using Nat.strongRecOn with
  | ind id ih =>
    have hstep := h
    rw [expressionSteps_eq] at hstep
    cases he : t.expression? id with
    | none =>
      rw [he] at hstep
      exact misplaced id h (List.mem_singleton.1 hstep)
    | some e =>
      rw [he] at hstep
      rcases List.mem_cons.1 hstep with hstep | hstep
      · exact visit id h e he hstep
      · obtain ⟨child, hchild, hstep⟩ := List.mem_flatMap.1 hstep
        have hmem := mem_children_of_expression he hchild
        exact part id h e child hstep he hmem (ih child (Forest.lt_of_mem_children hmem) hstep)

/-- Induction over the way down to a step of the walk through a statement, as far as it goes through
statements. -/
@[elab_as_elim] theorem statementSteps_induction {step : Step}
    {motive : (id : NodeId) → step ∈ t.statementSteps id → Prop}
    (misplaced : ∀ id h, step = .defect (t.misplaced .statement id) → motive id h)
    (visit : ∀ id h s, t.statement? id = some s → step = .visit ⟨id, .statement s⟩ → motive id h)
    (operand : ∀ id h s child, t.statement? id = some s → child ∈ t.children id →
      step ∈ t.expressionSteps child → motive id h)
    (nested : ∀ id h s child hchild, t.statement? id = some s → child ∈ t.children id →
      motive child hchild → motive id h)
    (id : NodeId) (h : step ∈ t.statementSteps id) : motive id h := by
  induction id using Nat.strongRecOn with
  | ind id ih =>
    have hstep := h
    rw [statementSteps_eq] at hstep
    cases hs : t.statement? id with
    | none =>
      rw [hs] at hstep
      exact misplaced id h (List.mem_singleton.1 hstep)
    | some s =>
      rw [hs] at hstep
      rcases List.mem_cons.1 hstep with hstep | hstep
      · exact visit id h s hs hstep
      rcases List.mem_append.1 hstep with hstep | hstep
      · obtain ⟨child, hchild, hstep⟩ := List.mem_flatMap.1 hstep
        exact operand id h s child hs (mem_children_of_operand hs hchild) hstep
      · obtain ⟨child, hchild, hstep⟩ := List.mem_flatMap.1 hstep
        have hmem := mem_children_of_nested hs hchild
        exact nested id h s child hstep hs hmem (ih child (Forest.lt_of_mem_children hmem) hstep)

/-- A search on the way up that passes expressions by finds the same above what is visited from an
expression on as above the expression itself. -/
theorem find?_ancestors_of_mem_expressionSteps {q : NodeId → Bool}
    (hexpression : ∀ a e, t.expression? a = some e → q a = false)
    (h : .visit v ∈ t.expressionSteps id) :
    (t.ancestors v.id).find? q = (t.ancestors id).find? q := by
  induction id, h using expressionSteps_induction with
  | misplaced id _ h => cases h
  | visit id _ e he h =>
    cases h
    rfl
  | part id _ e child _ he hchild ih =>
    rw [ih, Forest.find?_ancestors_of_mem_children q hchild, hexpression id e he]
    exact if_neg Bool.false_ne_true

theorem find?_ancestors_of_mem_statementSteps {q : NodeId → Bool}
    (hexpression : ∀ a e, t.expression? a = some e → q a = false)
    (hstatement : ∀ a s, t.statement? a = some s → q a = false)
    (h : .visit v ∈ t.statementSteps id) :
    (t.ancestors v.id).find? q = (t.ancestors id).find? q := by
  induction id, h using statementSteps_induction with
  | misplaced id _ h => cases h
  | visit id _ s hs h =>
    cases h
    rfl
  | operand id _ s child hs hchild h =>
    rw [find?_ancestors_of_mem_expressionSteps hexpression h,
      Forest.find?_ancestors_of_mem_children q hchild, hstatement id s hs]
    exact if_neg Bool.false_ne_true
  | nested id _ s child _ hs hchild ih =>
    rw [ih, Forest.find?_ancestors_of_mem_children q hchild, hstatement id s hs]
    exact if_neg Bool.false_ne_true

theorem isSome_module?_of_expression {e : Expression} (he : t.expression? id = some e) :
    (t.module? id).isSome = false := by
  rw [Forest.module?, Forest.expression?_eq_some_iff.1 he]
  rfl

theorem isSome_module?_of_statement {s : Statement} (hs : t.statement? id = some s) :
    (t.module? id).isSome = false := by
  rw [Forest.module?, Forest.statement?_eq_some_iff.1 hs]
  rfl

/-- What is visited from an expression on are expressions with the same module above. -/
theorem of_mem_expressionSteps (h : .visit v ∈ t.expressionSteps id) :
    (∃ e, v.subject = .expression e) ∧ t.enclosingModule? v.id = t.enclosingModule? id := by
  refine ⟨?_, find?_ancestors_of_mem_expressionSteps (fun _ _ => isSome_module?_of_expression) h⟩
  induction id, h using expressionSteps_induction with
  | misplaced id _ h => cases h
  | visit id _ e he h =>
    cases h
    exact ⟨e, rfl⟩
  | part id _ e child _ he hchild ih => exact ih

/-- What is visited from a statement on are statements and expressions with the same module
above. -/
theorem of_mem_statementSteps (h : .visit v ∈ t.statementSteps id) :
    ((∃ s, v.subject = .statement s) ∨ ∃ e, v.subject = .expression e) ∧
      t.enclosingModule? v.id = t.enclosingModule? id := by
  refine ⟨?_, find?_ancestors_of_mem_statementSteps (fun _ _ => isSome_module?_of_expression)
    (fun _ _ => isSome_module?_of_statement) h⟩
  induction id, h using statementSteps_induction with
  | misplaced id _ h => cases h
  | visit id _ s hs h =>
    cases h
    exact Or.inl ⟨s, rfl⟩
  | operand id _ s child hs hchild h => exact Or.inr (of_mem_expressionSteps h).1
  | nested id _ s child _ hs hchild ih => exact ih

/-- In a module the walk visits the module, its functions, and what is below their bodies. -/
theorem of_mem_moduleSteps (h : .visit v ∈ t.moduleSteps id) :
    ∃ m, t.module? id = some m ∧
      (v = ⟨id, .moduleDecl m⟩ ∨
        ∃ fid ∈ m.functions, ∃ g, t.function? fid = some g ∧
          (v = ⟨fid, .functionDecl g⟩ ∨
            ∃ s ∈ g.body.getD [], .visit v ∈ t.statementSteps s)) := by
  rw [moduleSteps] at h
  cases hm : t.module? id with
  | none => simp [hm] at h
  | some m =>
    simp only [hm, List.mem_cons, Step.visit.injEq, List.mem_flatMap] at h
    refine ⟨m, rfl, ?_⟩
    rcases h with rfl | ⟨fid, hfid, hv⟩
    · exact Or.inl rfl
    refine Or.inr ⟨fid, hfid, ?_⟩
    rw [functionSteps] at hv
    cases hg : t.function? fid with
    | none => simp [hg] at hv
    | some g =>
      simp only [hg, List.mem_cons, Step.visit.injEq, List.mem_flatMap] at hv
      exact ⟨g, rfl, hv⟩

/-- A visit is that of the program, of one of its modules, of a function of such a module, or below
the body of such a function. -/
theorem of_mem_steps (h : .visit v ∈ t.steps) :
    v = ⟨t.root, .program t.program⟩ ∨
      ∃ mid ∈ t.program.modules, ∃ m, t.module? mid = some m ∧
        (v = ⟨mid, .moduleDecl m⟩ ∨
          ∃ fid ∈ m.functions, ∃ g, t.function? fid = some g ∧
            (v = ⟨fid, .functionDecl g⟩ ∨
              ∃ s ∈ g.body.getD [], .visit v ∈ t.statementSteps s)) := by
  rw [steps, List.mem_cons, List.mem_flatMap] at h
  rcases h with hv | ⟨mid, hmid, hv⟩
  · exact Or.inl (Step.visit.inj hv)
  · exact Or.inr ⟨mid, hmid, of_mem_moduleSteps hv⟩

/-- No program is visited in a module. -/
theorem not_program_of_mem_moduleSteps (h : .visit v ∈ t.moduleSteps id) (p : Program) :
    v.subject ≠ .program p := by
  obtain ⟨m, -, rfl | ⟨fid, -, g, -, rfl | ⟨s, -, hv⟩⟩⟩ := of_mem_moduleSteps h
  · exact Subject.noConfusion
  · exact Subject.noConfusion
  · obtain ⟨⟨s, hs⟩ | ⟨e, he⟩, -⟩ := of_mem_statementSteps hv
    · exact hs ▸ Subject.noConfusion
    · exact he ▸ Subject.noConfusion

/-- The nearest module above a visited function is the module that the function is one of. -/
theorem enclosingModule?_function {mid : NodeId} {m : Module} (hm : t.module? mid = some m)
    (hid : id ∈ m.functions) : t.enclosingModule? id = some mid :=
  Forest.enclosingModule?_of_part_of_module hm (mem_children_of_function hm hid)

/-- The nearest module above what is visited in the body of a function is the nearest module above
the function. -/
theorem enclosingModule?_body {g : Function} (hg : t.function? id = some g) {s : NodeId}
    (hs : s ∈ g.body.getD []) (hv : .visit v ∈ t.statementSteps s) :
    t.enclosingModule? v.id = t.enclosingModule? id := by
  have hmodule : t.module? id = none := by
    rw [Forest.module?, Forest.function?_eq_some_iff.1 hg]
  rw [(of_mem_statementSteps hv).2,
    Forest.enclosingModule?_of_part_of_other hmodule (mem_children_of_body hg hs)]

/-! ### The walk through nodes of the right sorts -/

theorem visit?_of_kind? {k : NodeKind} {x : Subject} (hk : t.kind? id = some k)
    (hx : k.subject? = some x) : t.visit? id = some ⟨id, x⟩ := by
  rw [visit?, hk, Option.bind_some, hx, Option.map_some]

/-- Through an expression the walk goes in preorder, if all operands are expressions. -/
theorem expressionSteps_eq_preorder {e : Expression} (hk : t.WellKindedFrom id)
    (he : t.expression? id = some e) :
    t.expressionSteps id = ((t.preorder id).filterMap t.visit?).map .visit := by
  -- the parts of a node come before it in the table, hence the induction on its number
  induction id using Nat.strongRecOn generalizing e with
  | ind id ih =>
    have hkind := Forest.expression?_eq_some_iff.1 he
    have hvisit : t.visit? id = some ⟨id, .expression e⟩ := visit?_of_kind? hkind rfl
    rw [expressionSteps_of_some he, Forest.preorder_eq, List.filterMap_cons_some hvisit,
      List.map_cons, List.filterMap_flatMap, List.map_flatMap, Forest.children_eq_of_kind? hkind]
    congr 1
    refine List.flatMap_congr fun child hchild => ?_
    have hmem := mem_children_of_expression he hchild
    obtain ⟨e', he'⟩ := hk.slotsFit.exists_argument he hchild
    exact ih child (Forest.lt_of_mem_children hmem) (hk.of_mem_children hmem) he'

/-- Through a statement the walk goes in preorder, if all operands are expressions and all nested
nodes are statements. -/
theorem statementSteps_eq_preorder {s : Statement} (hk : t.WellKindedFrom id)
    (hs : t.statement? id = some s) :
    t.statementSteps id = ((t.preorder id).filterMap t.visit?).map .visit := by
  induction id using Nat.strongRecOn generalizing s with
  | ind id ih =>
    have hkind := Forest.statement?_eq_some_iff.1 hs
    have hvisit : t.visit? id = some ⟨id, .statement s⟩ := visit?_of_kind? hkind rfl
    rw [statementSteps_of_some hs, Forest.preorder_eq, List.filterMap_cons_some hvisit,
      List.map_cons, List.filterMap_flatMap, List.map_flatMap, Forest.children_eq_of_kind? hkind,
      NodeKind.children, Statement.children, List.flatMap_append]
    congr 2
    · refine List.flatMap_congr fun child hchild => ?_
      have hmem := mem_children_of_operand hs hchild
      obtain ⟨e, he⟩ := hk.slotsFit.exists_operand hs hchild
      exact expressionSteps_eq_preorder (hk.of_mem_children hmem) he
    · refine List.flatMap_congr fun child hchild => ?_
      have hmem := mem_children_of_nested hs hchild
      obtain ⟨s', hs'⟩ := hk.slotsFit.exists_nested hs hchild
      exact ih child (Forest.lt_of_mem_children hmem) (hk.of_mem_children hmem) hs'

/-- Below a statement the walk visits every node that is a statement or an expression. -/
theorem visit_mem_statementSteps_iff {s : Statement} (hk : t.WellKindedFrom id)
    (hs : t.statement? id = some s) {d : NodeId} {e : Expression} :
    .visit ⟨d, .expression e⟩ ∈ t.statementSteps id ↔
      d ∈ t.preorder id ∧ t.expression? d = some e := by
  rw [statementSteps_eq_preorder hk hs, List.mem_map_of_injective fun _ _ => Step.visit.inj,
    List.mem_filterMap, Forest.expression?_eq_some_iff]
  constructor
  · rintro ⟨d', hd', hvisit⟩
    obtain ⟨x, hx, heq⟩ := Option.map_eq_some_iff.1 hvisit
    cases heq
    obtain ⟨k, hkind, hsubject⟩ := Option.bind_eq_some_iff.1 hx
    cases k <;> cases hsubject
    exact ⟨hd', hkind⟩
  · rintro ⟨hd, hkind⟩
    exact ⟨d, hd, visit?_of_kind? hkind rfl⟩

/-- The walk through a well-kinded tree meets no node out of place. -/
theorem exists_visit_of_wellKinded (h : t.WellKinded) {step : Step} (hstep : step ∈ t.steps) :
    ∃ v, step = .visit v := by
  rcases List.mem_cons.1 hstep with rfl | hstep
  · exact ⟨_, rfl⟩
  obtain ⟨mid, hmid, hstep⟩ := List.mem_flatMap.1 hstep
  obtain ⟨m, hm⟩ := (h.slotsFit t.root).exists_module t.kind?_root hmid
  rw [moduleSteps_of_some hm] at hstep
  rcases List.mem_cons.1 hstep with rfl | hstep
  · exact ⟨_, rfl⟩
  obtain ⟨fid, hfid, hstep⟩ := List.mem_flatMap.1 hstep
  obtain ⟨g, hg⟩ := (h.slotsFit mid).exists_function hm hfid
  rw [functionSteps_of_some hg] at hstep
  rcases List.mem_cons.1 hstep with rfl | hstep
  · exact ⟨_, rfl⟩
  obtain ⟨sid, hsid, hstep⟩ := List.mem_flatMap.1 hstep
  obtain ⟨s, hs⟩ := (h.slotsFit fid).exists_body hg hsid
  rw [statementSteps_eq_preorder (h.from sid) hs] at hstep
  obtain ⟨v, -, rfl⟩ := List.mem_map.1 hstep
  exact ⟨v, rfl⟩

end Tree

end ProgramCheck
