import Mathlib.Data.List.Flatten
import Mathlib.Data.List.Perm.Subperm
import ProgramCheck.Proofs.HookLog
import ProgramCheck.Proofs.WalkShape

/-!
# The nodes of a walk

A walk goes through the nodes that are reached from the root by way of the modules of programs, the
functions of modules, the bodies of functions, the parts of statements and the operands of
expressions. `Tree.walkedNodes` lists them in preorder, each behind the sort of nodes that its place
calls for. The walk visits these nodes one by one up to the first that is of another sort, and has a
defect there. If all slots of a tree are filled with the right sorts, the walked nodes are those that
are visited by their sort and neither are nor lie in a struct.
-/

namespace ProgramCheck

/-- Whether nodes of a sort are visited. -/
def NodeSort.visited : NodeSort → Bool
  | .program | .moduleDecl | .functionDecl | .statement | .expression => true
  | _ => false

/-- The sort of the nodes that are such a subject. -/
def Subject.sort : Subject → NodeSort
  | .program _ => .program
  | .moduleDecl _ => .moduleDecl
  | .functionDecl _ => .functionDecl
  | .statement _ => .statement
  | .expression _ => .expression

namespace NodeKind

/-- The parts of a node through which a walk goes, each behind the sort of nodes that its place calls
for. -/
def walkedSlots : NodeKind → List (NodeSort × NodeId)
  | program p => p.modules.map (.moduleDecl, ·)
  | moduleDecl m => m.functions.map (.functionDecl, ·)
  | functionDecl f => (f.body.getD []).map (.statement, ·)
  | statement s => s.operands.map (.expression, ·) ++ s.nested.map (.statement, ·)
  | expression e => e.children.map (.expression, ·)
  | _ => []

theorem walkedSlots_sublist (k : NodeKind) : k.walkedSlots.Sublist k.slots := by
  cases k with
  | program p => exact List.sublist_append_right _ _
  | moduleDecl m => exact List.sublist_append_left _ _
  | functionDecl f => exact List.sublist_append_right _ _
  | statement s => exact List.Sublist.refl _
  | expression e => exact List.Sublist.refl _
  | _ => exact List.nil_sublist _

theorem visited_of_mem_walkedSlots {k : NodeKind} {slot : NodeSort × NodeId}
    (h : slot ∈ k.walkedSlots) : slot.1.visited = true := by
  cases k with
  | importDecl | structDecl | fieldDecl | parameterDecl => cases h
  | statement s =>
    rcases List.mem_append.1 h with h | h <;> obtain ⟨id, -, rfl⟩ := List.mem_map.1 h <;> rfl
  | _ =>
    obtain ⟨id, -, rfl⟩ := List.mem_map.1 h
    rfl

theorem visited_sort_of_mem_walkedSlots {k : NodeKind} {slot : NodeSort × NodeId}
    (h : slot ∈ k.walkedSlots) : k.sort.visited = true := by
  cases k with
  | importDecl | structDecl | fieldDecl | parameterDecl => cases h
  | _ => rfl

/-- A part of a visited sort is walked through, unless it is part of a struct or of a field. -/
theorem mem_walkedSlots_of_visited {k : NodeKind} {slot : NodeSort × NodeId} (h : slot ∈ k.slots)
    (hslot : slot.1.visited = true) (hstruct : k.sort ≠ .structDecl) (hfield : k.sort ≠ .fieldDecl) :
    slot ∈ k.walkedSlots := by
  cases k with
  | structDecl => exact absurd rfl hstruct
  | fieldDecl => exact absurd rfl hfield
  | importDecl | parameterDecl => cases h
  | statement | expression => exact h
  | program p =>
    rcases List.mem_append.1 h with h | h
    · obtain ⟨id, -, rfl⟩ := List.mem_map.1 h
      cases hslot
    · exact h
  | moduleDecl m =>
    rcases List.mem_append.1 h with h | h
    · exact h
    · obtain ⟨id, -, rfl⟩ := List.mem_map.1 h
      cases hslot
  | functionDecl g =>
    rcases List.mem_append.1 h with h | h
    · obtain ⟨id, -, rfl⟩ := List.mem_map.1 h
      cases hslot
    · exact h

/-- Only a struct has places for fields. -/
theorem sort_of_field_mem_slots {k : NodeKind} {part : NodeId} (h : (.fieldDecl, part) ∈ k.slots) :
    k.sort = .structDecl := by
  cases k <;> simp [slots] at h
  rfl

theorem subject?_eq_some {k : NodeKind} (h : k.sort.visited = true) :
    ∃ x, k.subject? = some x ∧ x.sort = k.sort := by
  cases k with
  | importDecl | structDecl | fieldDecl | parameterDecl => cases h
  | _ => exact ⟨_, rfl, rfl⟩

theorem sort_of_subject? {k : NodeKind} {x : Subject} (h : k.subject? = some x) :
    x.sort = k.sort := by
  cases k <;> cases h <;> rfl

end NodeKind

namespace Forest

variable {f : Forest} {id d : NodeId} {slot : NodeSort × NodeId}

/-- The parts of a node through which a walk goes, each behind the sort of nodes that its place calls
for. -/
def walkedSlots (f : Forest) (id : NodeId) : List (NodeSort × NodeId) :=
  ((f.kind? id).map NodeKind.walkedSlots).getD []

theorem walkedSlots_of_kind? {k : NodeKind} (h : f.kind? id = some k) :
    f.walkedSlots id = k.walkedSlots := by
  rw [walkedSlots, h]
  rfl

theorem map_snd_walkedSlots_sublist (f : Forest) (id : NodeId) :
    ((f.walkedSlots id).map Prod.snd).Sublist (f.children id) := by
  cases hk : f.kind? id with
  | none =>
    rw [walkedSlots, hk]
    exact List.nil_sublist _
  | some k =>
    rw [walkedSlots_of_kind? hk, children_eq_of_kind? hk, ← k.map_snd_slots]
    exact k.walkedSlots_sublist.map _

theorem mem_children_of_walkedSlots (h : slot ∈ f.walkedSlots id) : slot.2 ∈ f.children id :=
  (f.map_snd_walkedSlots_sublist id).subset (List.mem_map_of_mem h)

theorem visited_of_mem_walkedSlots (h : slot ∈ f.walkedSlots id) : slot.1.visited = true := by
  cases hk : f.kind? id with
  | none =>
    rw [walkedSlots, hk] at h
    cases h
  | some k => exact NodeKind.visited_of_mem_walkedSlots (walkedSlots_of_kind? hk ▸ h)

/-- Whether a node is of the sort that its place calls for. -/
def Fits (f : Forest) (slot : NodeSort × NodeId) : Prop := f.sort? slot.2 = some slot.1

instance (f : Forest) (slot : NodeSort × NodeId) : Decidable (f.Fits slot) :=
  inferInstanceAs (Decidable (f.sort? slot.2 = some slot.1))

/-- A node with everything below it through which a walk goes, each node in front of its parts and
behind the sort that its place calls for. -/
def walked (f : Forest) (slot : NodeSort × NodeId) : List (NodeSort × NodeId) :=
  slot :: (f.walkedSlots slot.2).attach.flatMap fun part => f.walked part.1
termination_by slot.2
decreasing_by exact lt_of_mem_children (mem_children_of_walkedSlots part.2)

theorem walked_eq (f : Forest) (slot : NodeSort × NodeId) :
    f.walked slot = slot :: (f.walkedSlots slot.2).flatMap f.walked := by
  rw [walked, flatMap_attach_val]

theorem WellKinded.fits_of_mem_walkedSlots (h : f.WellKinded) (hslot : slot ∈ f.walkedSlots id) :
    f.Fits slot := by
  cases hk : f.kind? id with
  | none =>
    rw [walkedSlots, hk] at hslot
    cases hslot
  | some k =>
    rw [walkedSlots_of_kind? hk] at hslot
    exact (h.slotsFit id).sort? hk (k.walkedSlots_sublist.subset hslot)

/-- What holds of a slot and of all walked parts of nodes holds of everything walked below it. -/
theorem forall_mem_walked {P : NodeSort × NodeId → Prop} (hslot : P slot)
    (hparts : ∀ id, ∀ part ∈ f.walkedSlots id, P part) : ∀ x ∈ f.walked slot, P x := by
  obtain ⟨s, id⟩ := slot
  induction id using Nat.strongRecOn generalizing s with
  | ind id ih =>
    intro x hx
    rw [walked_eq, List.mem_cons, List.mem_flatMap] at hx
    rcases hx with rfl | ⟨part, hpart, hx⟩
    · exact hslot
    · exact ih part.2 (lt_of_mem_children (mem_children_of_walkedSlots hpart)) part.1
        (hparts id part hpart) x hx

/-- A walk goes through its nodes in preorder. -/
theorem map_snd_walked_sublist (f : Forest) (slot : NodeSort × NodeId) :
    ((f.walked slot).map Prod.snd).Sublist (f.preorder slot.2) := by
  obtain ⟨s, id⟩ := slot
  induction id using Nat.strongRecOn generalizing s with
  | ind id ih =>
    rw [walked_eq, preorder_eq, List.map_cons, List.map_flatMap]
    refine List.Sublist.cons_cons id ?_
    have hparts : ((f.walkedSlots id).flatMap fun part => (f.walked part).map Prod.snd).Sublist
        ((f.walkedSlots id).flatMap fun part => f.preorder part.2) :=
      List.Sublist.flatMap_right _ fun part hpart =>
        ih part.2 (lt_of_mem_children (mem_children_of_walkedSlots hpart)) part.1
    refine hparts.trans ?_
    rw [← List.flatMap_map]
    exact (f.map_snd_walkedSlots_sublist id).flatMap _

/-- The nodes that are reached from a node by going to parts through which a walk goes. -/
inductive Reached (f : Forest) (start : NodeId) : NodeId → Prop
  | start : Reached f start start
  | part {id : NodeId} {slot : NodeSort × NodeId} :
      Reached f start id → slot ∈ f.walkedSlots id → Reached f start slot.2

theorem Reached.trans {a b : NodeId} (hab : f.Reached a b) (hbd : f.Reached b d) :
    f.Reached a d := by
  induction hbd with
  | start => exact hab
  | part _ hslot ih => exact ih.part hslot

theorem mem_walked_of_part {x part : NodeSort × NodeId} (hx : x ∈ f.walked slot)
    (hpart : part ∈ f.walkedSlots x.2) : part ∈ f.walked slot := by
  obtain ⟨s, id⟩ := slot
  induction id using Nat.strongRecOn generalizing s with
  | ind id ih =>
    rw [walked_eq, List.mem_cons, List.mem_flatMap] at hx ⊢
    right
    rcases hx with rfl | ⟨y, hy, hx⟩
    · refine ⟨part, hpart, ?_⟩
      rw [walked_eq]
      exact List.mem_cons_self
    · exact ⟨y, hy, ih y.2 (lt_of_mem_children (mem_children_of_walkedSlots hy)) y.1 hx⟩

/-- The nodes that a walk goes through from a node on are those reached from it. -/
theorem mem_map_snd_walked_iff : d ∈ (f.walked slot).map Prod.snd ↔ f.Reached slot.2 d := by
  constructor
  · obtain ⟨s, id⟩ := slot
    induction id using Nat.strongRecOn generalizing s with
    | ind id ih =>
      rw [walked_eq, List.map_cons, List.mem_cons, List.map_flatMap, List.mem_flatMap]
      rintro (rfl | ⟨part, hpart, hd⟩)
      · exact .start
      · have hlt := lt_of_mem_children (mem_children_of_walkedSlots hpart)
        exact (Reached.start.part hpart).trans (ih part.2 hlt part.1 hd)
  · intro h
    induction h with
    | start =>
      rw [walked_eq]
      exact List.mem_cons_self
    | part _ hpart ih =>
      obtain ⟨x, hx, rfl⟩ := List.mem_map.1 ih
      exact List.mem_map_of_mem (mem_walked_of_part hx hpart)

instance (f : Forest) (start : NodeId) : DecidablePred (f.Reached start) := fun _ =>
  decidable_of_iff (_ ∈ (f.walked (.program, start)).map Prod.snd) mem_map_snd_walked_iff

/-- A sublist of a list without repetitions is found by filtering. -/
theorem eq_filter_of_sublist {xs ys : List NodeId} {p : NodeId → Bool} (h : xs.Sublist ys)
    (hys : ys.Nodup) (hp : ∀ y ∈ ys, p y = true ↔ y ∈ xs) : xs = ys.filter p := by
  have hfilter : xs.filter p = xs :=
    List.filter_eq_self.2 fun x hx => (hp x (h.subset hx)).2 hx
  refine (hfilter ▸ h.filter p).eq_of_length_le (List.Subperm.length_le ?_)
  refine List.subperm_of_subset (hys.filter p) fun y hy => ?_
  obtain ⟨hmem, hpy⟩ := List.mem_filter.1 hy
  exact (hp y hmem).1 hpy

/-- **The order of a walk**: it is the preorder, of the nodes that are reached. -/
theorem map_snd_walked (f : Forest) (slot : NodeSort × NodeId) :
    (f.walked slot).map Prod.snd = (f.preorder slot.2).filter (f.Reached slot.2 ·) :=
  eq_filter_of_sublist (f.map_snd_walked_sublist slot) (f.nodup_preorder slot.2) fun _ _ => by
    rw [decide_eq_true_iff, mem_map_snd_walked_iff]

end Forest

namespace Tree

variable {t : Tree} {id : NodeId}

/-- The nodes through which the walk of a tree goes, each behind the sort that its place calls for. -/
def walkedNodes (t : Tree) : List (NodeSort × NodeId) := t.walked (.program, t.root)

/-- All walked nodes are in places that call for nodes of visited sorts. -/
theorem visited_of_mem_walkedNodes (t : Tree) : ∀ slot ∈ t.walkedNodes, slot.1.visited = true :=
  Forest.forall_mem_walked rfl fun _ _ hpart => Forest.visited_of_mem_walkedSlots hpart

/-- Whether a node is of a visited sort, and neither is a struct nor lies in one. -/
def walkable (t : Tree) (id : NodeId) : Bool :=
  (t.sort? id).any NodeSort.visited &&
    (id :: t.ancestors id).all fun a => t.sort? a != some .structDecl

theorem walkable_iff : t.walkable id = true ↔
    (∃ s, t.sort? id = some s ∧ s.visited = true) ∧
      ∀ a ∈ id :: t.ancestors id, t.sort? a ≠ some .structDecl := by
  rw [walkable, Bool.and_eq_true, Option.any_eq_true, List.all_eq_true]
  simp only [bne_iff_ne]

theorem parent?_root (t : Tree) : t.parent? t.root = none := by
  rw [Forest.parent?, (t.parents_eq_none_iff t.root).2 rfl]
  rfl

theorem sort?_root (t : Tree) : t.sort? t.root = some .program := by
  rw [Forest.sort?, kind?_root]
  rfl

theorem walkable_root (t : Tree) : t.walkable t.root = true := by
  have hancestors : t.ancestors t.root = [] := by rw [Forest.ancestors_eq, parent?_root]
  refine walkable_iff.2 ⟨⟨.program, t.sort?_root, rfl⟩, fun a ha => ?_⟩
  rw [hancestors, List.mem_singleton] at ha
  rw [ha, sort?_root]
  simp

/-- In a well-kinded tree every walked node is of the sort that its place calls for. -/
theorem fits_of_wellKinded (h : t.WellKinded) : ∀ slot ∈ t.walkedNodes, t.Fits slot :=
  Forest.forall_mem_walked t.sort?_root fun _ _ hpart => h.fits_of_mem_walkedSlots hpart

/-- In a well-kinded tree a field lies in a struct. -/
theorem struct_of_field (h : t.WellKinded) (hid : id ∈ t.preorder t.root)
    (hfield : t.sort? id = some .fieldDecl) :
    ∃ a ∈ t.ancestors id, t.sort? a = some .structDecl := by
  rcases Forest.eq_or_mem_children_of_mem_preorder hid with rfl | ⟨p, -, hchild⟩
  · rw [t.sort?_root] at hfield
    cases hfield
  obtain ⟨k, s, hk, hslot, hs⟩ := (h.slotsFit p).of_mem_children hchild
  obtain rfl : s = .fieldDecl := Option.some.inj (hs.symm.trans hfield)
  refine ⟨p, ?_, ?_⟩
  · rw [Forest.ancestors_of_mem_children hchild]
    exact List.mem_cons_self
  · rw [Forest.sort?, hk, Option.map_some, NodeKind.sort_of_field_mem_slots hslot]

/-- Above a walkable node of a well-kinded tree is a walkable node, of which it is a walked part. -/
theorem walkable_parent (h : t.WellKinded) {p : NodeId} (hp : p ∈ t.preorder t.root)
    (hchild : id ∈ t.children p) (hwalkable : t.walkable id = true) :
    (∃ s, (s, id) ∈ t.walkedSlots p) ∧ t.walkable p = true := by
  obtain ⟨⟨s, hs, hvisited⟩, hstructs⟩ := walkable_iff.1 hwalkable
  rw [Forest.ancestors_of_mem_children hchild] at hstructs
  have habove : ∀ a ∈ p :: t.ancestors p, t.sort? a ≠ some .structDecl :=
    fun a ha => hstructs a (List.mem_cons_of_mem _ ha)
  obtain ⟨k, s', hk, hslot, hs'⟩ := (h.slotsFit p).of_mem_children hchild
  obtain rfl : s = s' := Option.some.inj (hs.symm.trans hs')
  have hsort : t.sort? p = some k.sort := by rw [Forest.sort?, hk, Option.map_some]
  have hstruct : k.sort ≠ .structDecl :=
    fun heq => habove p List.mem_cons_self (heq ▸ hsort)
  have hfield : k.sort ≠ .fieldDecl := by
    intro heq
    obtain ⟨a, ha, hastruct⟩ := struct_of_field h hp (heq ▸ hsort)
    exact habove a (List.mem_cons_of_mem _ ha) hastruct
  have hwalked := NodeKind.mem_walkedSlots_of_visited hslot hvisited hstruct hfield
  refine ⟨⟨s, Forest.walkedSlots_of_kind? hk ▸ hwalked⟩, walkable_iff.2 ⟨?_, habove⟩⟩
  exact ⟨k.sort, hsort, NodeKind.visited_sort_of_mem_walkedSlots hwalked⟩

/-- In a well-kinded tree the nodes that are reached from the root are the walkable ones. -/
theorem reached_iff_walkable (h : t.WellKinded) (hid : id ∈ t.preorder t.root) :
    t.Reached t.root id ↔ t.walkable id = true := by
  constructor
  · intro hreached
    clear hid
    induction hreached with
    | start => exact t.walkable_root
    | @part p slot _ hslot ih =>
      obtain ⟨-, hstructs⟩ := walkable_iff.1 ih
      have hsort : t.Fits slot := h.fits_of_mem_walkedSlots hslot
      have hvisited := Forest.visited_of_mem_walkedSlots hslot
      refine walkable_iff.2 ⟨⟨slot.1, hsort, hvisited⟩, fun a ha => ?_⟩
      rw [Forest.ancestors_of_mem_children (Forest.mem_children_of_walkedSlots hslot)] at ha
      rcases List.mem_cons.1 ha with rfl | ha
      · rw [hsort]
        intro heq
        rw [Option.some.inj heq] at hvisited
        cases hvisited
      · exact hstructs a ha
  · intro hwalkable
    fun_induction t.ancestors id with
    | case1 id hparent =>
      rcases Forest.eq_or_mem_children_of_mem_preorder hid with rfl | ⟨p, -, hchild⟩
      · exact .start
      · rw [Forest.parent?_eq_some_iff.2 hchild] at hparent
        cases hparent
    | case2 id parent hparent ih =>
      rcases Forest.eq_or_mem_children_of_mem_preorder hid with rfl | ⟨p, hp, hchild⟩
      · rw [t.parent?_root] at hparent
        cases hparent
      rw [Forest.parent?_eq_some_iff.2 hchild] at hparent
      cases hparent
      obtain ⟨⟨s, hslot⟩, hparent⟩ := walkable_parent h hp hchild hwalkable
      exact (ih hp hparent).part hslot

/-- **The walk and the descendants**: the walked nodes of a well-kinded tree are the walkable nodes
among the root and everything below it. -/
theorem map_snd_walkedNodes_of_wellKinded (h : t.WellKinded) :
    t.walkedNodes.map Prod.snd = (t.descendantsAndSelf t.root).filter t.walkable := by
  have hpreorder : t.descendantsAndSelf t.root = t.preorder t.root := by
    rw [Forest.descendantsAndSelf, Forest.drain_eq_flatMap, List.flatMap_singleton]
  rw [walkedNodes, Forest.map_snd_walked, hpreorder]
  refine List.filter_congr fun id hid => ?_
  rw [Bool.eq_iff_iff, decide_eq_true_iff, reached_iff_walkable h hid]

end Tree

end ProgramCheck
