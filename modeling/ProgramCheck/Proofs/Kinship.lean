import Mathlib.Data.List.Nodup
import ProgramCheck.Tree.Navigation

/-!
# Kinship in a forest

Going down and going up a forest undo each other: what lies below a node is what is reached from it
by taking parts, and the nodes above a part are the node that it is part of and the nodes above that
one. The nearest module above a node is found the same way.
-/

namespace ProgramCheck

namespace Forest

variable {f : Forest} {id child d : NodeId}

theorem lt_size_of_kind? {k : NodeKind} (h : f.kind? id = some k) : id < f.size := by
  obtain ⟨node, hnode, -⟩ := Option.map_eq_some_iff.1 h
  exact (Array.getElem?_eq_some_iff.1 hnode).1

/-! ### Below a node -/

theorem mem_preorder_self (f : Forest) (id : NodeId) : id ∈ f.preorder id := by
  rw [preorder_eq]
  exact List.mem_cons_self

theorem mem_preorder_iff :
    d ∈ f.preorder id ↔ d = id ∨ ∃ child ∈ f.children id, d ∈ f.preorder child := by
  rw [preorder_eq, List.mem_cons, List.mem_flatMap]

theorem mem_preorder_of_mem_children (hchild : child ∈ f.children id)
    (hd : d ∈ f.preorder child) : d ∈ f.preorder id :=
  mem_preorder_iff.2 (Or.inr ⟨child, hchild, hd⟩)

/-- Below a node are the node itself and parts of nodes below it. -/
theorem eq_or_mem_children_of_mem_preorder (h : d ∈ f.preorder id) :
    d = id ∨ ∃ p ∈ f.preorder id, d ∈ f.children p := by
  induction id using Nat.strongRecOn with
  | ind id ih =>
    rcases mem_preorder_iff.1 h with rfl | ⟨child, hchild, hd⟩
    · exact Or.inl rfl
    · rcases ih child (lt_of_mem_children hchild) hd with rfl | ⟨p, hp, hdp⟩
      · exact Or.inr ⟨id, f.mem_preorder_self id, hchild⟩
      · exact Or.inr ⟨p, mem_preorder_of_mem_children hchild hp, hdp⟩

/-- Below a node the numbers are not larger than its own. -/
theorem le_of_mem_preorder (h : d ∈ f.preorder id) : d ≤ id := by
  induction id using Nat.strongRecOn with
  | ind id ih =>
    rcases mem_preorder_iff.1 h with rfl | ⟨child, hchild, hd⟩
    · exact Nat.le_refl d
    · exact Nat.le_of_lt (Nat.lt_of_le_of_lt (ih child (lt_of_mem_children hchild) hd)
        (lt_of_mem_children hchild))

/-- Parts of nodes below a node lie below it. -/
theorem mem_preorder_of_part {p : NodeId} (hp : p ∈ f.preorder id) (hd : d ∈ f.children p) :
    d ∈ f.preorder id := by
  induction id using Nat.strongRecOn with
  | ind id ih =>
    rcases mem_preorder_iff.1 hp with rfl | ⟨child, hchild, hp⟩
    · exact mem_preorder_of_mem_children hd (f.mem_preorder_self d)
    · exact mem_preorder_of_mem_children hchild (ih child (lt_of_mem_children hchild) hp)

theorem eq_parent_of_mem_children {p q : NodeId} (hp : d ∈ f.children p) (hq : d ∈ f.children q) :
    p = q :=
  Option.some.inj ((parent?_eq_some_iff.2 hp).symm.trans (parent?_eq_some_iff.2 hq))

/-- A node lies below one part of a node only. -/
theorem eq_of_mem_preorder_children {a b : NodeId} (ha : a ∈ f.children id)
    (hb : b ∈ f.children id) (hda : d ∈ f.preorder a) (hdb : d ∈ f.preorder b) : a = b := by
  -- a part of `id` cannot lie below another one, as `id` itself would then lie below a part of it
  have hpart : ∀ {x y : NodeId}, x ∈ f.children id → y ∈ f.children id → x ∈ f.preorder y →
      x = y := by
    intro x y hx hy hxy
    rcases eq_or_mem_children_of_mem_preorder hxy with rfl | ⟨p, hp, hxp⟩
    · rfl
    · obtain rfl : id = p := eq_parent_of_mem_children hx hxp
      exact absurd (le_of_mem_preorder hp) (Nat.not_le.2 (lt_of_mem_children hy))
  fun_induction f.ancestors d with
  | case1 d hparent =>
    rcases eq_or_mem_children_of_mem_preorder hda with rfl | ⟨p, -, hp⟩
    · exact hpart ha hb hdb
    · rw [parent?_eq_some_iff.2 hp] at hparent
      cases hparent
  | case2 d parent hparent ih =>
    rcases eq_or_mem_children_of_mem_preorder hda with rfl | ⟨p, hpa, hp⟩
    · exact hpart ha hb hdb
    rcases eq_or_mem_children_of_mem_preorder hdb with rfl | ⟨q, hqb, hq⟩
    · exact (hpart hb ha hda).symm
    obtain rfl : parent = p := eq_parent_of_mem_children (parent?_eq_some_iff.1 hparent) hp
    obtain rfl : parent = q := eq_parent_of_mem_children (parent?_eq_some_iff.1 hparent) hq
    exact ih hpa hqb

/-- No node occurs twice below a node. -/
theorem nodup_preorder (f : Forest) (id : NodeId) : (f.preorder id).Nodup := by
  induction id using Nat.strongRecOn with
  | ind id ih =>
    rw [preorder_eq, List.nodup_cons]
    constructor
    · intro h
      obtain ⟨child, hchild, hid⟩ := List.mem_flatMap.1 h
      exact absurd (le_of_mem_preorder hid) (Nat.not_le.2 (lt_of_mem_children hchild))
    · refine List.nodup_flatMap.2 ⟨fun child hchild => ih child (lt_of_mem_children hchild), ?_⟩
      refine (f.nodup_childrenIn id).pairwise_of_forall_ne fun a ha b hb hne d hda hdb => hne ?_
      exact eq_of_mem_preorder_children ha hb hda hdb

theorem preorder_length_pos (f : Forest) (id : NodeId) : 0 < (f.preorder id).length := by
  rw [preorder_eq]
  exact Nat.succ_pos _

/-- The parts of a node take less room in preorder than the node. -/
theorem preorder_length_children (f : Forest) (id : NodeId) :
    ((f.children id).flatMap f.preorder).length < (f.preorder id).length := by
  rw [preorder_eq f id, List.length_cons]
  exact Nat.lt_succ_self _

/-! ### Above a node -/

theorem ancestors_of_mem_children (h : child ∈ f.children id) :
    f.ancestors child = id :: f.ancestors id := by
  rw [ancestors_eq, parent?_eq_some_iff.2 h]

/-- The nodes above a node are those that it lies below. -/
theorem mem_preorder_iff_ancestors : d ∈ f.preorder id ↔ d = id ∨ id ∈ f.ancestors d := by
  -- the induction goes up from `d`, and parents are unique
  fun_induction f.ancestors d with
  | case1 d hparent =>
    constructor
    · intro h
      rcases eq_or_mem_children_of_mem_preorder h with rfl | ⟨p, -, hd⟩
      · exact Or.inl rfl
      · rw [parent?_eq_some_iff.2 hd] at hparent
        cases hparent
    · rintro (rfl | h)
      · exact f.mem_preorder_self d
      · cases h
  | case2 d parent hparent ih =>
    have hchild := parent?_eq_some_iff.1 hparent
    rw [List.mem_cons]
    constructor
    · intro h
      rcases eq_or_mem_children_of_mem_preorder h with rfl | ⟨p, hp, hd⟩
      · exact Or.inl rfl
      · obtain rfl : parent = p := eq_parent_of_mem_children hchild hd
        exact Or.inr ((ih.1 hp).imp_left Eq.symm)
    · rintro (rfl | h)
      · exact f.mem_preorder_self d
      · exact mem_preorder_of_part (ih.2 (h.imp_left Eq.symm)) hchild

/-- A search on the way up from a part first comes by the node that it is part of, and goes on above
that one. -/
theorem find?_ancestors_of_mem_children (q : NodeId → Bool) (h : child ∈ f.children id) :
    (f.ancestors child).find? q = if q id then some id else (f.ancestors id).find? q := by
  rw [ancestors_of_mem_children h, List.find?_cons]
  cases q id <;> rfl

theorem enclosingModule?_of_mem_children (h : child ∈ f.children id) :
    f.enclosingModule? child =
      if (f.module? id).isSome then some id else f.enclosingModule? id :=
  find?_ancestors_of_mem_children _ h

theorem enclosingModule?_of_part_of_module {m : Module} (hm : f.module? id = some m)
    (h : child ∈ f.children id) : f.enclosingModule? child = some id := by
  rw [enclosingModule?_of_mem_children h, hm, Option.isSome_some, if_pos rfl]

theorem enclosingModule?_of_part_of_other (hm : f.module? id = none)
    (h : child ∈ f.children id) : f.enclosingModule? child = f.enclosingModule? id := by
  rw [enclosingModule?_of_mem_children h, hm]
  exact if_neg (by simp)

end Forest

end ProgramCheck
