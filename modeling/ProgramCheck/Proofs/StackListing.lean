import Mathlib.Data.List.Perm.Basic
import ProgramCheck.Proofs.CallReports

/-!
# Listing with a stack

A tree is listed with a stack, from which the last node is taken and to which its parts are added, the
first of them last. `Forest.Yields` says what such a stack gives until it is empty. It gives the
preorder: a node, and then what its parts give, one after the other. In a tree the root gives every
node once, each behind the node that it is part of, and what another node gives is a segment of that.
-/

namespace ProgramCheck

namespace Forest

variable {f : Forest} {id d p : NodeId} {stack ids : List NodeId}

/-! ### Steps of the stack -/

/-- The last node of a stack, with the stack after its parts have taken its place. -/
def next? (f : Forest) (stack : List NodeId) : Option (NodeId × List NodeId) :=
  stack.getLast?.map fun id => (id, stack.dropLast ++ (f.children id).reverse)

/-- Whether a stack gives the listed nodes, and is empty then. -/
inductive Yields (f : Forest) : List NodeId → List NodeId → Prop
  | done {stack : List NodeId} : f.next? stack = none → Yields f stack []
  | next {stack stack' ids : List NodeId} {id : NodeId} :
      f.next? stack = some (id, stack') → Yields f stack' ids → Yields f stack (id :: ids)

theorem next?_nil (f : Forest) : f.next? [] = none := rfl

theorem next?_concat (f : Forest) (stack : List NodeId) (id : NodeId) :
    f.next? (stack ++ [id]) = some (id, stack ++ (f.children id).reverse) := by
  rw [next?, List.getLast?_concat, Option.map_some, List.dropLast_concat]

/-- A stack gives its nodes from the last to the first, each with everything below it in preorder. -/
theorem yields_drain (f : Forest) (nodes : List NodeId) : f.Yields nodes.reverse (f.drain nodes) := by
  fun_induction f.drain nodes with
  | case1 => exact .done f.next?_nil
  | case2 id nodes ih =>
    rw [List.reverse_append] at ih
    rw [List.reverse_cons]
    exact .next (f.next?_concat nodes.reverse id) ih

/-- A stack gives one list only. -/
theorem Yields.unique {ids' : List NodeId} (h : f.Yields stack ids) (h' : f.Yields stack ids') :
    ids = ids' := by
  induction h generalizing ids' with
  | done hnone =>
    cases h' with
    | done => rfl
    | next hsome _ => cases hnone.symm.trans hsome
  | next hsome _ ih =>
    cases h' with
    | done hnone => cases hnone.symm.trans hsome
    | next hsome' hrest =>
      cases hsome.symm.trans hsome'
      rw [ih hrest]

theorem yields_reverse_iff (nodes : List NodeId) :
    f.Yields nodes.reverse ids ↔ ids = f.drain nodes := by
  constructor
  · exact fun h => h.unique (f.yields_drain nodes)
  · rintro rfl
    exact f.yields_drain nodes

/-! ### The order of the listing -/

theorem descendantsAndSelf_eq (f : Forest) : f.descendantsAndSelf = f.preorder := by
  funext id
  rw [descendantsAndSelf, drain_eq_flatMap, List.flatMap_singleton]

theorem descendants_eq (f : Forest) (id : NodeId) :
    f.descendants id = (f.children id).flatMap f.preorder := by
  rw [descendants, drain_eq_flatMap]

theorem preorder_eq_cons_descendants (f : Forest) (id : NodeId) :
    f.preorder id = id :: f.descendants id := by
  rw [preorder_eq, descendants_eq]

/-- Whatever stands in a preorder behind its first node is part of a node of it. -/
theorem exists_parent_of_mem_descendants (h : d ∈ f.descendants id) :
    ∃ p ∈ f.preorder id, d ∈ f.children p := by
  rw [descendants_eq] at h
  obtain ⟨child, hchild, hd⟩ := List.mem_flatMap.1 h
  rcases eq_or_mem_children_of_mem_preorder hd with rfl | ⟨p, hp, hdp⟩
  · exact ⟨id, f.mem_preorder_self id, hchild⟩
  · exact ⟨p, mem_preorder_of_mem_children hchild hp, hdp⟩

theorem infix_flatMap_of_mem {α β : Type} {as : List α} {a : α} (g : α → List β) (h : a ∈ as) :
    g a <:+: as.flatMap g := by
  obtain ⟨before, after, rfl⟩ := List.append_of_mem h
  exact ⟨before.flatMap g, after.flatMap g, by simp⟩

/-- What lies below a node of a preorder is a segment of it. -/
theorem preorder_infix_of_mem (h : d ∈ f.preorder id) : f.preorder d <:+: f.preorder id := by
  induction id using Nat.strongRecOn with
  | ind id ih =>
    rcases mem_preorder_iff.1 h with rfl | ⟨child, hchild, hd⟩
    · exact List.infix_rfl
    · have hbelow := ih child (lt_of_mem_children hchild) hd
      rw [preorder_eq f id]
      exact (hbelow.trans (infix_flatMap_of_mem f.preorder hchild)).trans
        (List.suffix_cons _ _).isInfix

/-- Below a node every part stands behind the node that it is part of. -/
theorem sublist_of_part (hp : p ∈ f.preorder id) (hd : d ∈ f.children p) :
    [p, d].Sublist (f.preorder id) := by
  refine List.Sublist.trans ?_ (preorder_infix_of_mem hp).sublist
  rw [preorder_eq f p]
  refine List.Sublist.cons_cons p (List.singleton_sublist.2 ?_)
  exact List.mem_flatMap.2 ⟨d, hd, f.mem_preorder_self d⟩

end Forest

namespace Tree

variable {t : Tree} {id : NodeId}

theorem root_lt_size (t : Tree) : t.root < t.size := Forest.lt_size_of_kind? t.kind?_root

/-- Of the nodes of a tree the root alone has no parent. -/
theorem parent?_eq_none_iff (h : id < t.size) : t.parent? id = none ↔ id = t.root := by
  have hlt : id < t.parents.size := t.size_parents.symm ▸ h
  rw [← t.parents_eq_none_iff, Forest.parent?, Array.getElem?_eq_getElem hlt]
  cases t.parents[id] <;> simp

/-- Every node of a tree lies below the root. -/
theorem mem_preorder_root_iff : id ∈ t.preorder t.root ↔ id < t.size := by
  constructor
  · exact fun h => Nat.lt_of_le_of_lt (Forest.le_of_mem_preorder h) t.root_lt_size
  · -- the way up from a node ends in the root, as no other node has no parent
    intro h
    fun_induction t.ancestors id with
    | case1 id hnone =>
      rw [(parent?_eq_none_iff h).1 hnone]
      exact t.mem_preorder_self t.root
    | case2 id parent hparent ih =>
      have hpart := Forest.parent?_eq_some_iff.1 hparent
      exact Forest.mem_preorder_of_part (ih (Forest.lt_size_of_mem_children hpart)) hpart

/-- The preorder of the root is an order of all nodes. -/
theorem preorder_root_perm (t : Tree) : (t.preorder t.root).Perm (List.range t.size) := by
  refine (List.perm_ext_iff_of_nodup (t.nodup_preorder t.root) List.nodup_range).2 fun id => ?_
  rw [mem_preorder_root_iff, List.mem_range]

/-- **Listing a tree with a stack.** The stack of a node, and the stack of its parts, come to an end
and give the node and everything below it in preorder, and the same without the node. No node is given
twice or in front of the node that it is part of, what a node gives is a segment of what the root
gives, and the root gives all nodes. -/
theorem yields_descendants (h : id < t.size) :
    (∀ ids, t.Yields [id] ids ↔ ids = t.descendantsAndSelf id) ∧
    (∀ ids, t.Yields (t.children id).reverse ids ↔ ids = t.descendants id) ∧
    t.descendantsAndSelf id = id :: (t.children id).flatMap t.descendantsAndSelf ∧
    t.descendants id = (t.descendantsAndSelf id).tail ∧
    (t.descendantsAndSelf id).Nodup ∧
    (∀ d ∈ t.descendants id, ∃ p, t.parent? d = some p ∧
      [p, d].Sublist (t.descendantsAndSelf id)) ∧
    t.descendantsAndSelf id <:+: t.descendantsAndSelf t.root ∧
    (t.descendantsAndSelf t.root).Perm (List.range t.size) := by
  have hyields : ∀ ids, t.Yields [id] ids ↔ ids = t.descendantsAndSelf id :=
    fun ids => Forest.yields_reverse_iff [id]
  rw [Forest.descendantsAndSelf_eq] at *
  refine ⟨hyields, fun ids => Forest.yields_reverse_iff _, t.preorder_eq id, ?_,
    t.nodup_preorder id, fun d hd => ?_, ?_, t.preorder_root_perm⟩
  · rw [Forest.preorder_eq_cons_descendants, List.tail_cons]
  · obtain ⟨p, hp, hpart⟩ := Forest.exists_parent_of_mem_descendants hd
    exact ⟨p, Forest.parent?_eq_some_iff.2 hpart, Forest.sublist_of_part hp hpart⟩
  · exact Forest.preorder_infix_of_mem (mem_preorder_root_iff.2 h)

/-- The stack of the module of the main program gives a segment of what the root gives, though the
numbers of the nodes come in another order. -/
theorem yields_descendants_mainTree :
    4 < mainTree.size ∧ mainTree.Yields [4] [4, 3, 2, 1] ∧ mainTree.Yields [3] [3, 2, 1] ∧
      [4, 3, 2, 1] <:+: mainTree.descendantsAndSelf mainTree.root ∧
      mainTree.descendantsAndSelf mainTree.root = [5, 0, 4, 3, 2, 1] ∧
      (mainTree.descendantsAndSelf mainTree.root).Perm [0, 1, 2, 3, 4, 5] := by
  have hsize : 4 < mainTree.size := by decide +kernel
  have hself : mainTree.descendantsAndSelf 4 = [4, 3, 2, 1] := by decide +kernel
  have hbelow : mainTree.descendants 4 = [3, 2, 1] := by decide +kernel
  have hparts : mainTree.children 4 = [3] := by decide +kernel
  obtain ⟨hyields, hyieldsBelow, -, -, -, -, hinfix, hperm⟩ := yields_descendants hsize
  rw [hself] at hyields hinfix
  rw [hparts, hbelow] at hyieldsBelow
  exact ⟨hsize, (hyields _).2 rfl, (hyieldsBelow _).2 rfl, hinfix, by decide +kernel, hperm⟩

end Tree

end ProgramCheck
