import ProgramCheck.Proofs.Kinship

/-!
# The places of the parts of a node

Every part of a node stands in a place that calls for a sort of nodes: the modules of a program, the
body of a function, the operands of a call. `NodeKind.slots` lists the parts with these sorts. A
forest is well kinded if every part of every node is of the sort that its place calls for.
-/

namespace ProgramCheck

namespace NodeKind

/-- The parts of a node, each behind the sort of nodes that its place calls for. -/
def slots : NodeKind → List (NodeSort × NodeId)
  | program p => p.imports.map (.importDecl, ·) ++ p.modules.map (.moduleDecl, ·)
  | importDecl _ => []
  | moduleDecl m => m.functions.map (.functionDecl, ·) ++ m.structs.map (.structDecl, ·)
  | structDecl s => s.fields.map (.fieldDecl, ·) ++ s.functions.map (.functionDecl, ·)
  | fieldDecl f => f.initializer.toList.map (.expression, ·)
  | functionDecl f => f.parameters.map (.parameterDecl, ·) ++ (f.body.getD []).map (.statement, ·)
  | parameterDecl _ => []
  | statement s => s.operands.map (.expression, ·) ++ s.nested.map (.statement, ·)
  | expression e => e.children.map (.expression, ·)

/-- The places of a node are those of its parts, in the same order. -/
theorem map_snd_slots (k : NodeKind) : k.slots.map Prod.snd = k.children := by
  cases k <;> simp [slots, children, Statement.children, Function.comp_def]

/-- Only a program has places for modules. -/
theorem of_module_mem_slots {k : NodeKind} {part : NodeId} (h : (.moduleDecl, part) ∈ k.slots) :
    ∃ p, k = program p ∧ part ∈ p.modules := by
  cases k <;> simp [slots] at h
  exact ⟨_, rfl, h⟩

/-- Nothing has a place for a program. -/
theorem program_not_mem_slots (k : NodeKind) (part : NodeId) : (.program, part) ∉ k.slots := by
  cases k <;> simp [slots]

end NodeKind

namespace Forest

variable {f : Forest} {id : NodeId}

/-- The sort of a node. -/
def sort? (f : Forest) (id : NodeId) : Option NodeSort := (f.kind? id).map NodeKind.sort

/-- The parts of a node, each behind the sort of nodes that its place calls for. -/
def slots (f : Forest) (id : NodeId) : List (NodeSort × NodeId) :=
  ((f.kind? id).map NodeKind.slots).getD []

/-- Whether the parts of a node are of the sorts that their places call for. -/
def SlotsFit (f : Forest) (id : NodeId) : Prop := ∀ slot ∈ f.slots id, f.sort? slot.2 = some slot.1

instance (f : Forest) (id : NodeId) : Decidable (f.SlotsFit id) :=
  inferInstanceAs (Decidable (∀ slot ∈ f.slots id, f.sort? slot.2 = some slot.1))

/-- Whether all parts of all nodes are of the sorts that their places call for. -/
def WellKinded (f : Forest) : Prop := ∀ id < f.size, f.SlotsFit id

instance (f : Forest) : Decidable f.WellKinded :=
  inferInstanceAs (Decidable (∀ id < f.size, f.SlotsFit id))

/-- Whether all parts of a node and of the nodes below it are of the sorts that their places call
for. -/
def WellKindedFrom (f : Forest) (id : NodeId) : Prop := ∀ d ∈ f.preorder id, f.SlotsFit d

theorem slots_of_kind? {k : NodeKind} (h : f.kind? id = some k) : f.slots id = k.slots := by
  rw [slots, h]
  rfl

theorem SlotsFit.sort? {k : NodeKind} {s : NodeSort} {part : NodeId} (h : f.SlotsFit id)
    (hk : f.kind? id = some k) (hpart : (s, part) ∈ k.slots) : f.sort? part = some s :=
  h (s, part) (slots_of_kind? hk ▸ hpart)

/-- A part of a node is of the sort that one of the places of the node calls for. -/
theorem SlotsFit.of_mem_children {part : NodeId} (h : f.SlotsFit id)
    (hpart : part ∈ f.children id) :
    ∃ k s, f.kind? id = some k ∧ (s, part) ∈ k.slots ∧ f.sort? part = some s := by
  cases hk : f.kind? id with
  | none =>
    rw [kind?, Option.map_eq_none_iff] at hk
    rw [children, childrenIn, hk] at hpart
    cases hpart
  | some k =>
    rw [children_eq_of_kind? hk, ← k.map_snd_slots, List.mem_map] at hpart
    obtain ⟨⟨s, part⟩, hslot, rfl⟩ := hpart
    exact ⟨k, s, rfl, hslot, h.sort? hk hslot⟩

/-- A number that is no node's has no places to fill. -/
theorem WellKinded.slotsFit (h : f.WellKinded) (id : NodeId) : f.SlotsFit id := by
  by_cases hid : id < f.size
  · exact h id hid
  · have hnone : f.kind? id = none := by
      rw [kind?, Array.getElem?_eq_none (Nat.le_of_not_lt hid), Option.map_none]
    intro slot hslot
    rw [slots, hnone] at hslot
    cases hslot

theorem WellKinded.from (h : f.WellKinded) (id : NodeId) : f.WellKindedFrom id :=
  fun d _ => h.slotsFit d

theorem WellKindedFrom.slotsFit (h : f.WellKindedFrom id) : f.SlotsFit id :=
  h id (f.mem_preorder_self id)

theorem WellKindedFrom.of_mem_children {child : NodeId} (h : f.WellKindedFrom id)
    (hchild : child ∈ f.children id) : f.WellKindedFrom child :=
  fun d hd => h d (mem_preorder_of_mem_children hchild hd)

/-! ### Nodes by their sorts -/

theorem import?_eq_some_iff {i : Import} :
    f.import? id = some i ↔ f.kind? id = some (.importDecl i) := by
  unfold import?
  split <;> simp_all

theorem module?_eq_some_iff {m : Module} :
    f.module? id = some m ↔ f.kind? id = some (.moduleDecl m) := by
  unfold module?
  split <;> simp_all

theorem function?_eq_some_iff {g : Function} :
    f.function? id = some g ↔ f.kind? id = some (.functionDecl g) := by
  unfold function?
  split <;> simp_all

theorem parameter?_eq_some_iff {p : Parameter} :
    f.parameter? id = some p ↔ f.kind? id = some (.parameterDecl p) := by
  unfold parameter?
  split <;> simp_all

theorem statement?_eq_some_iff {s : Statement} :
    f.statement? id = some s ↔ f.kind? id = some (.statement s) := by
  unfold statement?
  split <;> simp_all

theorem expression?_eq_some_iff {e : Expression} :
    f.expression? id = some e ↔ f.kind? id = some (.expression e) := by
  unfold expression?
  split <;> simp_all

/-- A node of a sort can be read as one, if the nodes of that sort are those of one form. -/
theorem exists_of_sort? {α : Type} {get : NodeId → Option α} {form : α → NodeKind} {s : NodeSort}
    (hget : ∀ a, get id = some a ↔ f.kind? id = some (form a))
    (hform : ∀ k : NodeKind, k.sort = s → ∃ a, form a = k) (h : f.sort? id = some s) :
    ∃ a, get id = some a := by
  obtain ⟨k, hk, hsort⟩ := Option.map_eq_some_iff.1 h
  obtain ⟨a, rfl⟩ := hform k hsort
  exact ⟨a, (hget a).2 hk⟩

theorem exists_module (h : f.sort? id = some .moduleDecl) : ∃ m, f.module? id = some m :=
  exists_of_sort? (fun _ => module?_eq_some_iff)
    (fun k hk => by cases k <;> simp [NodeKind.sort] at hk ⊢) h

theorem exists_function (h : f.sort? id = some .functionDecl) : ∃ g, f.function? id = some g :=
  exists_of_sort? (fun _ => function?_eq_some_iff)
    (fun k hk => by cases k <;> simp [NodeKind.sort] at hk ⊢) h

theorem exists_parameter (h : f.sort? id = some .parameterDecl) : ∃ p, f.parameter? id = some p :=
  exists_of_sort? (fun _ => parameter?_eq_some_iff)
    (fun k hk => by cases k <;> simp [NodeKind.sort] at hk ⊢) h

theorem exists_statement (h : f.sort? id = some .statement) : ∃ s, f.statement? id = some s :=
  exists_of_sort? (fun _ => statement?_eq_some_iff)
    (fun k hk => by cases k <;> simp [NodeKind.sort] at hk ⊢) h

theorem exists_expression (h : f.sort? id = some .expression) : ∃ e, f.expression? id = some e :=
  exists_of_sort? (fun _ => expression?_eq_some_iff)
    (fun k hk => by cases k <;> simp [NodeKind.sort] at hk ⊢) h

/-! ### Parts by their places -/

variable {part : NodeId}

theorem SlotsFit.exists_module {p : Program} (h : f.SlotsFit id)
    (hp : f.kind? id = some (.program p)) (hpart : part ∈ p.modules) :
    ∃ m, f.module? part = some m :=
  Forest.exists_module (h.sort? hp (List.mem_append_right _ (List.mem_map_of_mem hpart)))

theorem SlotsFit.exists_function {m : Module} (h : f.SlotsFit id) (hm : f.module? id = some m)
    (hpart : part ∈ m.functions) : ∃ g, f.function? part = some g :=
  Forest.exists_function
    (h.sort? (module?_eq_some_iff.1 hm) (List.mem_append_left _ (List.mem_map_of_mem hpart)))

theorem SlotsFit.exists_parameter {g : Function} (h : f.SlotsFit id) (hg : f.function? id = some g)
    (hpart : part ∈ g.parameters) : ∃ p, f.parameter? part = some p :=
  Forest.exists_parameter
    (h.sort? (function?_eq_some_iff.1 hg) (List.mem_append_left _ (List.mem_map_of_mem hpart)))

theorem SlotsFit.exists_body {g : Function} (h : f.SlotsFit id) (hg : f.function? id = some g)
    (hpart : part ∈ g.body.getD []) : ∃ s, f.statement? part = some s :=
  Forest.exists_statement
    (h.sort? (function?_eq_some_iff.1 hg) (List.mem_append_right _ (List.mem_map_of_mem hpart)))

theorem SlotsFit.exists_operand {s : Statement} (h : f.SlotsFit id) (hs : f.statement? id = some s)
    (hpart : part ∈ s.operands) : ∃ e, f.expression? part = some e :=
  Forest.exists_expression
    (h.sort? (statement?_eq_some_iff.1 hs) (List.mem_append_left _ (List.mem_map_of_mem hpart)))

theorem SlotsFit.exists_nested {s : Statement} (h : f.SlotsFit id) (hs : f.statement? id = some s)
    (hpart : part ∈ s.nested) : ∃ s', f.statement? part = some s' :=
  Forest.exists_statement
    (h.sort? (statement?_eq_some_iff.1 hs) (List.mem_append_right _ (List.mem_map_of_mem hpart)))

theorem SlotsFit.exists_argument {e : Expression} (h : f.SlotsFit id)
    (he : f.expression? id = some e) (hpart : part ∈ e.children) :
    ∃ e', f.expression? part = some e' :=
  Forest.exists_expression (h.sort? (expression?_eq_some_iff.1 he) (List.mem_map_of_mem hpart))

end Forest

end ProgramCheck
