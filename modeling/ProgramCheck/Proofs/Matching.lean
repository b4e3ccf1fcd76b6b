import ProgramCheck.Proofs.LexicalScope
import ProgramCheck.Proofs.Lockstep
import ProgramCheck.Proofs.Outline

/-!
# Trees that match

One tree matches another if it is the same program under other numbers, where the structs of the
modules and everything in them are left out of account. What is found by moving about outside of
structs is then found under the other numbers: accessors, ancestors, the node that a name in scope
stands for. The walks go outside of structs, so they are in lockstep. The positions of matching
nodes may differ by a given relation.
-/

namespace ProgramCheck

/-- A symbol under other numbers. -/
def Symbol.renumber (σ : NodeId → NodeId) (s : Symbol) : Symbol :=
  { s with declaration := σ s.declaration }

/-! ### Outside of structs -/

/-- What a node is, without structs if it is a module. -/
def NodeKind.withoutStructs : NodeKind → NodeKind
  | .moduleDecl m => .moduleDecl { m with structs := [] }
  | k => k

namespace NodeKind

theorem withoutStructs_renumber (σ : NodeId → NodeId) (k : NodeKind) :
    (k.renumber σ).withoutStructs = k.withoutStructs.renumber σ := by
  cases k <;> rfl

@[simp] theorem walkedSlots_withoutStructs (k : NodeKind) :
    k.withoutStructs.walkedSlots = k.walkedSlots := by
  cases k <;> rfl

theorem children_withoutStructs_sublist (k : NodeKind) :
    k.withoutStructs.children.Sublist k.children := by
  cases k with
  | moduleDecl m => exact List.Sublist.append_left (List.nil_sublist _) m.functions
  | _ => exact List.Sublist.refl _

@[simp] theorem walkedSlots_renumber (σ : NodeId → NodeId) (k : NodeKind) :
    (k.renumber σ).walkedSlots = k.walkedSlots.map fun slot => (slot.1, σ slot.2) := by
  cases k with
  | functionDecl g => simp [renumber, walkedSlots, Function.comp_def]
  | statement s => simp [renumber, walkedSlots, Function.comp_def]
  | expression e => simp [renumber, walkedSlots, Function.comp_def]
  | program p => simp [renumber, walkedSlots, Program.renumber, Function.comp_def]
  | moduleDecl m => simp [renumber, walkedSlots, Module.renumber, Function.comp_def]
  | _ => rfl

end NodeKind

namespace Forest

variable {f : Forest} {id : NodeId}

/-- The parts of a node, without the structs if it is a module. -/
def plainParts (f : Forest) (id : NodeId) : List NodeId :=
  ((f.kind? id).map fun k => k.withoutStructs.children).getD []

theorem plainParts_of_kind? {k : NodeKind} (h : f.kind? id = some k) :
    f.plainParts id = k.withoutStructs.children := by
  rw [plainParts, h]
  rfl

theorem plainParts_sublist (f : Forest) (id : NodeId) :
    (f.plainParts id).Sublist (f.children id) := by
  cases hk : f.kind? id with
  | none =>
    rw [plainParts, hk]
    exact List.nil_sublist _
  | some k =>
    rw [plainParts_of_kind? hk, children_eq_of_kind? hk]
    exact k.children_withoutStructs_sublist

theorem mem_plainParts_of_walkedSlots {slot : NodeSort × NodeId} (h : slot ∈ f.walkedSlots id) :
    slot.2 ∈ f.plainParts id := by
  cases hk : f.kind? id with
  | none =>
    rw [walkedSlots, hk] at h
    cases h
  | some k =>
    rw [walkedSlots_of_kind? hk, ← k.walkedSlots_withoutStructs] at h
    rw [plainParts_of_kind? hk, ← NodeKind.map_snd_slots]
    exact List.mem_map_of_mem (k.withoutStructs.walkedSlots_sublist.subset h)

theorem mem_of_mem_preceding {ids : List NodeId} {x : NodeId} (h : x ∈ preceding ids id) :
    x ∈ ids := by
  unfold preceding at h
  split at h
  · exact (List.takeWhile_sublist _).subset h
  · cases h

/-- What is in scope is part of a node above, and is no struct. -/
theorem exists_part_of_mem_scopeWithin {above : List NodeId} {x : NodeId}
    (h : x ∈ f.scopeWithin id above) : ∃ parent ∈ above, x ∈ f.plainParts parent := by
  induction above generalizing id with
  | nil => cases h
  | cons parent above ih =>
    have hrest : ∀ {id}, x ∈ f.scopeWithin id above →
        ∃ parent' ∈ parent :: above, x ∈ f.plainParts parent' := by
      intro id h
      obtain ⟨parent', hparent', hx⟩ := ih h
      exact ⟨parent', List.mem_cons_of_mem _ hparent', hx⟩
    rw [scopeWithin] at h
    split at h
    · next g hk =>
      refine ⟨parent, List.mem_cons_self, ?_⟩
      rw [plainParts_of_kind? hk]
      rcases List.mem_append.1 h with h | h
      · exact List.mem_append_right _ (mem_of_mem_preceding (List.mem_reverse.1 h))
      · exact List.mem_append_left _ (List.mem_reverse.1 h)
    · next condition thenBlock elseBlock hk =>
      rcases List.mem_append.1 h with h | h
      · refine ⟨parent, List.mem_cons_self, ?_⟩
        rw [plainParts_of_kind? hk]
        have hblock := mem_of_mem_preceding (List.mem_reverse.1 h)
        refine List.mem_append_right _ ?_
        split at hblock
        · exact List.mem_append_left _ hblock
        · exact List.mem_append_right _ hblock
      · exact hrest h
    · exact hrest h

end Forest

/-- The nodes of a tree that neither are structs of modules nor lie in such structs. -/
inductive Tree.OutsideStructs (t : Tree) : NodeId → Prop
  | root : t.OutsideStructs t.root
  | part {parent id : NodeId} (h : t.OutsideStructs parent) (hid : id ∈ t.plainParts parent) :
    t.OutsideStructs id

namespace Tree.OutsideStructs

variable {t : Tree} {id : NodeId}

theorem ancestors_of_part {parent : NodeId} (h : id ∈ t.plainParts parent) :
    t.ancestors id = parent :: t.ancestors parent :=
  Forest.ancestors_of_mem_children ((t.plainParts_sublist parent).subset h)

theorem ancestors_root (t : Tree) : t.ancestors t.root = [] := by
  rw [Forest.ancestors_eq, t.parent?_root]

/-- What is above a node outside of structs is outside of structs. -/
theorem of_mem_ancestors (h : t.OutsideStructs id) : ∀ a ∈ t.ancestors id, t.OutsideStructs a := by
  induction h with
  | root => simp [ancestors_root]
  | @part parent id h hid ih =>
    rw [ancestors_of_part hid]
    exact List.forall_mem_cons.2 ⟨h, ih⟩

theorem lt_size (h : t.OutsideStructs id) :
    id < t.size := by
  cases h with
  | root => exact Forest.lt_size_of_kind? t.kind?_root
  | @part parent _ h hid =>
    have hchild := (t.plainParts_sublist parent).subset hid
    exact Nat.lt_trans (Forest.lt_of_mem_children hchild) (Forest.lt_size_of_mem_children hchild)

theorem of_import (h : id ∈ t.program.imports) : t.OutsideStructs id := by
  refine OutsideStructs.root.part ?_
  rw [Forest.plainParts_of_kind? t.kind?_root]
  exact List.mem_append_left _ h

theorem of_module (h : id ∈ t.program.modules) : t.OutsideStructs id := by
  refine OutsideStructs.root.part ?_
  rw [Forest.plainParts_of_kind? t.kind?_root]
  exact List.mem_append_right _ h

end Tree.OutsideStructs

/-! ### Matching trees -/

/-- Whether a tree matches another one under other numbers: outside of structs, each node is what it
was under the new numbers, up to the structs of modules, and is at a related position. -/
structure Matching (P : Position → Position → Prop) (t t' : Tree) (σ : NodeId → NodeId) : Prop where
  root : t'.root = σ t.root
  withoutStructs : ∀ id, t.OutsideStructs id →
    (t'.kind? (σ id)).map NodeKind.withoutStructs =
      (t.kind? id).map fun k => k.withoutStructs.renumber σ
  position : ∀ id, t.OutsideStructs id → P (t.position id) (t'.position (σ id))

namespace Matching

variable {P : Position → Position → Prop} {t t' : Tree} {σ : NodeId → NodeId} {id : NodeId}
  (r : Matching P t t' σ)
include r

/-- A matching node is the same under other numbers, or both are modules that may have other
structs. -/
theorem kind? (hid : t.OutsideStructs id) :
    t'.kind? (σ id) = (t.kind? id).map (NodeKind.renumber σ) ∨
      ∃ m m', t.kind? id = some (.moduleDecl m) ∧ t'.kind? (σ id) = some (.moduleDecl m') ∧
        m'.name = m.name ∧ m'.functions = m.functions.map σ := by
  have hkind := r.withoutStructs id hid
  cases hk : t.kind? id with
  | none =>
    rw [hk] at hkind
    exact Or.inl (Option.map_eq_none_iff.1 hkind)
  | some k =>
    rw [hk, Option.map_some, Option.map_eq_some_iff] at hkind
    obtain ⟨k', hk', hwithout⟩ := hkind
    rw [hk']
    cases k with
    | moduleDecl m =>
      cases k' with
      | moduleDecl m' =>
        simp only [NodeKind.withoutStructs, NodeKind.renumber, Module.renumber,
          NodeKind.moduleDecl.injEq, Module.mk.injEq] at hwithout
        exact Or.inr ⟨m, m', rfl, rfl, hwithout.1, hwithout.2.1⟩
      | _ => cases hwithout
    | _ =>
      cases k' with
      | moduleDecl m' => cases hwithout
      | _ => exact Or.inl (congrArg some hwithout)

theorem plainParts (hid : t.OutsideStructs id) :
    t'.plainParts (σ id) = (t.plainParts id).map σ := by
  have hkind : (t'.kind? (σ id)).map (fun k => k.withoutStructs.children) =
      (t.kind? id).map fun k => k.withoutStructs.children.map σ := by
    simpa [Function.comp_def] using
      congrArg (Option.map NodeKind.children) (r.withoutStructs id hid)
  rw [Forest.plainParts, Forest.plainParts, hkind]
  cases t.kind? id <;> rfl

/-! ### Accessors -/

theorem sort? (hid : t.OutsideStructs id) : t'.sort? (σ id) = t.sort? id := by
  rw [Forest.sort?, Forest.sort?]
  rcases r.kind? hid with hk | ⟨m, m', hk, hk', -, -⟩
  · rw [hk, Option.map_map]
    exact congrArg (Option.map · _) (funext fun k => k.sort_renumber σ)
  · rw [hk, hk']
    rfl

theorem import? (hid : t.OutsideStructs id) : t'.import? (σ id) = t.import? id := by
  rw [Forest.import?, Forest.import?]
  rcases r.kind? hid with hk | ⟨m, m', hk, hk', -, -⟩
  · rw [hk]
    cases t.kind? id with
    | none => rfl
    | some k => cases k <;> rfl
  · rw [hk, hk']

theorem map_name_module? (hid : t.OutsideStructs id) :
    (t'.module? (σ id)).map (·.name) = (t.module? id).map (·.name) := by
  rw [Forest.module?, Forest.module?]
  rcases r.kind? hid with hk | ⟨m, m', hk, hk', hname, -⟩
  · rw [hk]
    cases t.kind? id with
    | none => rfl
    | some k => cases k <;> rfl
  · rw [hk, hk']
    exact congrArg some hname

theorem function? (hid : t.OutsideStructs id) :
    t'.function? (σ id) = (t.function? id).map (Function.renumber σ) := by
  rw [Forest.function?, Forest.function?]
  rcases r.kind? hid with hk | ⟨m, m', hk, hk', -, -⟩
  · rw [hk]
    cases t.kind? id with
    | none => rfl
    | some k => cases k <;> rfl
  · rw [hk, hk']
    rfl

theorem parameter? (hid : t.OutsideStructs id) : t'.parameter? (σ id) = t.parameter? id := by
  rw [Forest.parameter?, Forest.parameter?]
  rcases r.kind? hid with hk | ⟨m, m', hk, hk', -, -⟩
  · rw [hk]
    cases t.kind? id with
    | none => rfl
    | some k => cases k <;> rfl
  · rw [hk, hk']

theorem expression? (hid : t.OutsideStructs id) :
    t'.expression? (σ id) = (t.expression? id).map (Expression.renumber σ) := by
  rw [Forest.expression?, Forest.expression?]
  rcases r.kind? hid with hk | ⟨m, m', hk, hk', -, -⟩
  · rw [hk]
    cases t.kind? id with
    | none => rfl
    | some k => cases k <;> rfl
  · rw [hk, hk']
    rfl

theorem symbol? (hid : t.OutsideStructs id) :
    t'.symbol? (σ id) = (t.symbol? id).map (Symbol.renumber σ) := by
  rw [Forest.symbol?, Forest.symbol?]
  rcases r.kind? hid with hk | ⟨m, m', hk, hk', hname, -⟩
  · rw [hk]
    cases t.kind? id with
    | none => rfl
    | some k =>
      cases k with
      | statement s => cases s <;> rfl
      | _ => rfl
  · rw [hk, hk']
    simp [NodeKind.symbol?, Symbol.renumber, hname]

theorem program : t'.program = t.program.renumber σ := by
  have hroot := t'.kind?_root
  rw [r.root] at hroot
  rcases r.kind? .root with hk | ⟨m, m', hk, -, -, -⟩
  · rw [hk, t.kind?_root] at hroot
    exact (NodeKind.program.inj (Option.some.inj hroot)).symm
  · rw [t.kind?_root] at hk
    cases hk

/-! ### Up -/

theorem mem_children_of_plainParts {parent : NodeId} (hparent : t.OutsideStructs parent)
    (hid : id ∈ t.plainParts parent) : σ id ∈ t'.children (σ parent) := by
  refine (t'.plainParts_sublist (σ parent)).subset ?_
  rw [r.plainParts hparent]
  exact List.mem_map_of_mem hid

theorem ancestors (hid : t.OutsideStructs id) :
    t'.ancestors (σ id) = (t.ancestors id).map σ := by
  induction hid with
  | root =>
    rw [← r.root, Tree.OutsideStructs.ancestors_root, Tree.OutsideStructs.ancestors_root]
    rfl
  | @part parent id hparent hid ih =>
    rw [Forest.ancestors_of_mem_children (r.mem_children_of_plainParts hparent hid), ih,
      Tree.OutsideStructs.ancestors_of_part hid, List.map_cons]

/-- Outside of structs different nodes have different numbers. -/
theorem injective {a b : NodeId} (ha : t.OutsideStructs a) (hb : t.OutsideStructs b)
    (hab : σ a = σ b) : a = b := by
  -- the nodes above `σ a` and `σ b` are the same, and parts of one node have different numbers
  have hroot : ∀ {parent id : NodeId}, t.OutsideStructs parent → id ∈ t.plainParts parent →
      σ id ≠ t'.root := by
    intro parent id hparent hid heq
    have hchild := Forest.parent?_eq_some_iff.2 (r.mem_children_of_plainParts hparent hid)
    rw [heq, t'.parent?_root] at hchild
    cases hchild
  induction ha generalizing b with
  | root =>
    cases hb with
    | root => rfl
    | part hparent hid => exact absurd (hab.symm.trans r.root.symm) (hroot hparent hid)
  | @part p a hp ha ih =>
    cases hb with
    | root => exact absurd (hab.trans r.root.symm) (hroot hp ha)
    | @part q b hq hb =>
      have hpa := Forest.parent?_eq_some_iff.2 (r.mem_children_of_plainParts hp ha)
      have hqb := Forest.parent?_eq_some_iff.2 (r.mem_children_of_plainParts hq hb)
      rw [hab] at hpa
      obtain rfl := ih hq (Option.some.inj (hpa.symm.trans hqb))
      have hnodup := (t'.plainParts_sublist (σ p)).nodup (t'.nodup_childrenIn (σ p))
      rw [r.plainParts hp] at hnodup
      exact List.inj_on_of_nodup_map hnodup ha hb hab

theorem enclosingModule? (hid : t.OutsideStructs id) :
    t'.enclosingModule? (σ id) = (t.enclosingModule? id).map σ := by
  induction hid with
  | root =>
    rw [← r.root, Forest.enclosingModule?, Forest.enclosingModule?,
      Tree.OutsideStructs.ancestors_root, Tree.OutsideStructs.ancestors_root]
    rfl
  | @part parent id hparent hid ih =>
    have hmodule := congrArg Option.isSome (r.map_name_module? hparent)
    rw [Option.isSome_map, Option.isSome_map] at hmodule
    rw [Forest.enclosingModule?_of_mem_children (r.mem_children_of_plainParts hparent hid),
      Forest.enclosingModule?_of_mem_children ((t.plainParts_sublist parent).subset hid), hmodule]
    split
    · rfl
    · exact ih

theorem moduleNameAbove? (hid : t.OutsideStructs id) :
    t'.moduleNameAbove? (σ id) = t.moduleNameAbove? id := by
  rw [Tree.moduleNameAbove?, Tree.moduleNameAbove?, r.enclosingModule? hid]
  cases hm : t.enclosingModule? id with
  | none => rfl
  | some m => exact r.map_name_module? (hid.of_mem_ancestors m (List.mem_of_find?_eq_some hm))

/-! ### Scope -/

omit r in
theorem mem_map_iff {ids : List NodeId} (h : ∀ x ∈ ids, σ x = σ id → x = id) :
    σ id ∈ ids.map σ ↔ id ∈ ids := by
  refine ⟨fun hid => ?_, List.mem_map_of_mem⟩
  obtain ⟨x, hx, heq⟩ := List.mem_map.1 hid
  exact h x hx heq ▸ hx

omit r in
/-- What comes before a member of a list does not depend on the names of the members, as long as it
is told apart from them. -/
theorem preceding_map {ids : List NodeId} (h : ∀ x ∈ ids, σ x = σ id → x = id) :
    preceding (ids.map σ) (σ id) = (preceding ids id).map σ := by
  have htake : (ids.map σ).takeWhile (· ≠ σ id) = (ids.takeWhile (· ≠ id)).map σ := by
    induction ids with
    | nil => rfl
    | cons x ids ih =>
      rw [List.forall_mem_cons] at h
      have hx : σ x = σ id ↔ x = id := ⟨h.1, congrArg σ⟩
      simp only [List.map_cons, List.takeWhile_cons, ne_eq, hx]
      split
      · rw [List.map_cons, ← ih h.2]
      · rfl
  simp only [preceding, mem_map_iff h, htake]
  split <;> rfl

theorem preceding_outside (hid : t.OutsideStructs id) {ids : List NodeId}
    (hids : ∀ x ∈ ids, t.OutsideStructs x) :
    preceding (ids.map σ) (σ id) = (preceding ids id).map σ :=
  preceding_map fun x hx => r.injective (hids x hx) hid

theorem scopeWithin (hid : t.OutsideStructs id) {above : List NodeId}
    (habove : ∀ a ∈ above, t.OutsideStructs a) :
    t'.scopeWithin (σ id) (above.map σ) = (t.scopeWithin id above).map σ := by
  induction above generalizing id with
  | nil => rfl
  | cons parent above ih =>
    obtain ⟨hparent, habove⟩ := List.forall_mem_cons.1 habove
    have hrest := ih hparent habove
    rw [List.map_cons, Forest.scopeWithin, Forest.scopeWithin]
    rcases r.kind? hparent with hk' | ⟨m, m', hk, hk', -, -⟩
    · rw [hk']
      cases hk : t.kind? parent with
      | none => exact hrest
      | some k =>
        have hparts : ∀ x ∈ k.withoutStructs.children, t.OutsideStructs x := fun x hx =>
          hparent.part (Forest.plainParts_of_kind? hk ▸ hx)
        cases k with
        | functionDecl g =>
          have hbody : ∀ x ∈ g.body.getD [], t.OutsideStructs x :=
            fun x hx => hparts x (List.mem_append_right _ hx)
          simp only [Option.map_some, NodeKind.renumber, Function.body_renumber,
            r.preceding_outside hid hbody, List.map_append, List.map_reverse]
          rfl
        | statement s =>
          cases s with
          | branch condition thenBlock elseBlock =>
            have hthen : ∀ x ∈ thenBlock, t.OutsideStructs x := fun x hx =>
              hparts x (List.mem_append_right _ (List.mem_append_left _ hx))
            have helse : ∀ x ∈ elseBlock.getD [], t.OutsideStructs x := fun x hx =>
              hparts x (List.mem_append_right _ (List.mem_append_right _ hx))
            have hmap : (elseBlock.map (·.map σ)).getD [] = (elseBlock.getD []).map σ := by
              cases elseBlock <;> rfl
            have hmem : σ id ∈ thenBlock.map σ ↔ id ∈ thenBlock :=
              mem_map_iff fun x hx => r.injective (hthen x hx) hid
            simp only [Option.map_some, NodeKind.renumber, Statement.renumber, hmap, hmem, hrest,
              List.map_append, List.map_reverse]
            split
            · rw [r.preceding_outside hid hthen]
            · rw [r.preceding_outside hid helse]
          | _ => exact hrest
        | _ => exact hrest
    · rw [hk, hk']
      exact hrest

theorem scope (hid : t.OutsideStructs id) : t'.scope (σ id) = (t.scope id).map σ := by
  rw [Forest.scope, r.ancestors hid, r.scopeWithin hid hid.of_mem_ancestors]
  rfl

theorem valueType? (name : String) (hid : t.OutsideStructs id) :
    t'.valueType? name (σ id) = t.valueType? name id := by
  rw [Forest.valueType?, Forest.valueType?, r.symbol? hid]
  cases t.symbol? id with
  | none => rfl
  | some s =>
    obtain ⟨declared, detail, declaration⟩ := s
    cases detail <;> rfl

/-- A name in scope has the same type. -/
theorem visibleType? (hid : t.OutsideStructs id) (name : String) :
    t'.visibleType? (σ id) name = t.visibleType? id name := by
  have hscope : ∀ x ∈ t.scope id, t.OutsideStructs x := by
    intro x hx
    obtain ⟨parent, hparent, hpart⟩ := Forest.exists_part_of_mem_scopeWithin hx
    exact (hid.of_mem_ancestors parent hparent).part hpart
  rw [Forest.visibleType?, Forest.visibleType?, r.scope hid, List.findSome?_map]
  generalize t.scope id = ids at hscope
  induction ids with
  | nil => rfl
  | cons x ids ih =>
    obtain ⟨hx, hids⟩ := List.forall_mem_cons.1 hscope
    rw [List.findSome?_cons, List.findSome?_cons, Function.comp_apply, r.valueType? name hx,
      ih hids]

/-! ### The walk -/

theorem walkedSlots (hid : t.OutsideStructs id) :
    t'.walkedSlots (σ id) = (t.walkedSlots id).map fun slot => (slot.1, σ slot.2) := by
  have hkind : (t'.kind? (σ id)).map (·.walkedSlots) =
      (t.kind? id).map fun k => k.walkedSlots.map fun slot => (slot.1, σ slot.2) := by
    simpa [Function.comp_def] using
      congrArg (Option.map NodeKind.walkedSlots) (r.withoutStructs id hid)
  rw [Forest.walkedSlots, Forest.walkedSlots, hkind]
  cases t.kind? id <;> rfl

end Matching

/-- Whether two nodes of two trees, outside of structs, have the same place in the one tree and in
the other, which matches it. -/
def Tree.Matched (P : Position → Position → Prop) (t t' : Tree) (id id' : NodeId) : Prop :=
  ∃ σ, Matching P t t' σ ∧ t.OutsideStructs id ∧ id' = σ id

/-- **Matching trees are walked in lockstep.** -/
theorem Matching.lockstep {P : Position → Position → Prop} {t t' : Tree} {σ : NodeId → NodeId}
    (r : Matching P t t' σ) : t.Lockstep (t.Matched P t') t' where
  root := ⟨σ, r, .root, r.root⟩
  sort? := by
    rintro id _ ⟨σ, r, hid, rfl⟩
    exact r.sort? hid
  slots := by
    rintro id _ ⟨σ, r, hid, rfl⟩
    rw [r.walkedSlots hid, List.forall₂_map_right_iff]
    exact List.forall₂_same.2 fun slot hslot =>
      ⟨rfl, σ, r, hid.part (Forest.mem_plainParts_of_walkedSlots hslot), rfl⟩

end ProgramCheck
