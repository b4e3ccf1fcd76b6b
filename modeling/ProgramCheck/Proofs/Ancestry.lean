import Mathlib.Data.List.Nodup
import Mathlib.Logic.Function.Iterate
import ProgramCheck.Proofs.StackListing

/-!
# The way up

The way up from a node goes to the node that it is part of, from there on in the same manner, and
ends at a node that is part of none. The numbers grow on the way, and what is on it are the nodes
below which the first one lies, each once. So the first node of some sort on the way up is the
nearest one above the node: no other node of the sort lies between the two.
-/

namespace ProgramCheck

namespace Forest

variable {f : Forest} {s : NodeSort} {x y z : NodeId}

/-! ### The way up -/

/-- The numbers grow on the way up. -/
theorem pairwise_lt_ancestors (f : Forest) (x : NodeId) :
    (x :: f.ancestors x).Pairwise (· < ·) := by
  fun_induction f.ancestors x with
  | case1 x => exact List.pairwise_singleton _ _
  | case2 x parent hparent ih =>
    refine List.pairwise_cons.2 ⟨fun y hy => ?_, ih⟩
    have hlt := lt_of_mem_children (parent?_eq_some_iff.1 hparent)
    rcases List.mem_cons.1 hy with rfl | hy
    · exact hlt
    · exact Nat.lt_trans hlt ((List.pairwise_cons.1 ih).1 y hy)

theorem lt_of_mem_ancestors (h : y ∈ f.ancestors x) : x < y :=
  (List.pairwise_cons.1 (f.pairwise_lt_ancestors x)).1 y h

/-- The way up from a node that is on the way up from another one is the rest of that way. -/
theorem ancestors_of_split {front rest : List NodeId} (h : f.ancestors x = front ++ y :: rest) :
    f.ancestors y = rest := by
  induction front generalizing x with
  | nil =>
    rw [ancestors_eq] at h
    cases hparent : f.parent? x with
    | none => simp [hparent] at h
    | some parent =>
      rw [hparent] at h
      cases h
      rfl
  | cons first front ih =>
    rw [ancestors_eq] at h
    cases hparent : f.parent? x with
    | none => simp [hparent] at h
    | some parent =>
      rw [hparent, List.cons_append, List.cons.injEq] at h
      exact ih h.2

/-- **The way up step by step**: going to the parent again and again gives the nodes above a node
one by one, and nothing behind the last of them. -/
theorem getElem?_ancestors (f : Forest) (x : NodeId) (k : Nat) :
    (f.ancestors x)[k]? = (·.bind f.parent?)^[k + 1] (some x) := by
  induction k generalizing x with
  | zero =>
    rw [ancestors_eq, Function.iterate_one, Option.bind_some]
    cases f.parent? x <;> rfl
  | succ k ih =>
    rw [ancestors_eq, Function.iterate_succ_apply, Option.bind_some]
    cases f.parent? x with
    | none => rw [Function.iterate_fixed rfl]; rfl
    | some parent => exact ih parent

/-! ### Below and above -/

/-- What lies below a node has a smaller number. -/
theorem lt_of_mem_descendants (h : x ∈ f.descendants y) : x < y := by
  rw [descendants_eq] at h
  obtain ⟨child, hchild, hx⟩ := List.mem_flatMap.1 h
  exact Nat.lt_of_le_of_lt (le_of_mem_preorder hx) (lt_of_mem_children hchild)

/-- **Up and down**: above a node are the nodes that it lies below. -/
theorem mem_ancestors_iff : y ∈ f.ancestors x ↔ x ∈ f.descendants y := by
  have hiff : x ∈ f.preorder y ↔ x = y ∨ y ∈ f.ancestors x := mem_preorder_iff_ancestors
  rw [preorder_eq_cons_descendants, List.mem_cons] at hiff
  constructor
  · exact fun h => (hiff.2 (Or.inr h)).resolve_left (Nat.ne_of_lt (lt_of_mem_ancestors h))
  · exact fun h => (hiff.1 (Or.inr h)).resolve_left (Nat.ne_of_lt (lt_of_mem_descendants h))

/-! ### The nearest node of a sort -/

/-- Whether a node of a sort lies above a node, and no other node of the sort lies between them. -/
structure Nearest (f : Forest) (s : NodeSort) (x y : NodeId) : Prop where
  sort_eq : f.sort? y = some s
  below : x ∈ f.descendants y
  not_between : ∀ z, f.sort? z = some s → z ∈ f.descendants y → x ∉ f.descendants z

/-- Whether an answer is the one node of a sort that is nearest above a node, and none exactly if
there is no such node. -/
structure IsNearest (f : Forest) (s : NodeSort) (x : NodeId) (answer : Option NodeId) : Prop where
  eq_some_iff : ∀ y, answer = some y ↔ f.Nearest s x y
  unique : ∀ y z, f.Nearest s x y → f.Nearest s x z → y = z
  eq_none_iff : answer = none ↔ ¬ ∃ y, f.Nearest s x y

/-- The first node of a sort on the way up is the nearest one. -/
theorem find?_ancestors_eq_some_iff {q : NodeId → Bool}
    (hq : ∀ a, q a = true ↔ f.sort? a = some s) :
    (f.ancestors x).find? q = some y ↔ f.Nearest s x y := by
  rw [List.find?_eq_some_iff_append]
  constructor
  · rintro ⟨hy, front, behind, hsplit, hfront⟩
    have habove : y ∈ f.ancestors x := by simp [hsplit]
    refine ⟨(hq y).1 hy, mem_ancestors_iff.1 habove, fun z hz hzy hxz => ?_⟩
    -- behind `y` the numbers are too large for something below `y`, so `z` would be in front of `y`
    have hmem : z ∈ front ++ y :: behind := hsplit ▸ mem_ancestors_iff.2 hxz
    rcases List.mem_append.1 hmem with hmem | hmem
    · have := hfront z hmem
      simp [(hq z).2 hz] at this
    · have hgrow := f.pairwise_lt_ancestors y
      rw [ancestors_of_split hsplit, List.pairwise_cons] at hgrow
      rcases List.mem_cons.1 hmem with rfl | hmem
      · exact absurd (lt_of_mem_descendants hzy) (Nat.lt_irrefl z)
      · exact absurd (lt_of_mem_descendants hzy) (Nat.lt_asymm (hgrow.1 z hmem))
  · rintro ⟨hy, hxy, hbetween⟩
    obtain ⟨front, behind, hsplit⟩ := List.append_of_mem (mem_ancestors_iff.2 hxy)
    refine ⟨(hq y).2 hy, front, behind, hsplit, fun z hz => ?_⟩
    -- a node in front of `y` lies between `x` and `y`
    obtain ⟨first, second, rfl⟩ := List.append_of_mem hz
    have hsplit' : f.ancestors x = first ++ z :: (second ++ y :: behind) := by simpa using hsplit
    have hz : f.ancestors z = second ++ y :: behind := ancestors_of_split hsplit'
    have hzy : z ∈ f.descendants y := mem_ancestors_iff.1 (by simp [hz])
    have hxz : x ∈ f.descendants z := mem_ancestors_iff.1 (by simp [hsplit])
    rw [Bool.not_eq_true', ← Bool.not_eq_true, hq]
    exact fun hsort => hbetween z hsort hzy hxz

theorem isNearest_find?_ancestors {q : NodeId → Bool}
    (hq : ∀ a, q a = true ↔ f.sort? a = some s) (x : NodeId) :
    f.IsNearest s x ((f.ancestors x).find? q) where
  eq_some_iff y := find?_ancestors_eq_some_iff hq
  unique y z hy hz := Option.some.inj
    (((find?_ancestors_eq_some_iff hq).2 hy).symm.trans ((find?_ancestors_eq_some_iff hq).2 hz))
  eq_none_iff := by
    rw [Option.eq_none_iff_forall_ne_some, not_exists]
    exact forall_congr' fun y => not_congr (find?_ancestors_eq_some_iff hq)

theorem isSome_module?_iff : (f.module? x).isSome = true ↔ f.sort? x = some .moduleDecl := by
  constructor
  · intro h
    obtain ⟨m, hm⟩ := Option.isSome_iff_exists.1 h
    rw [sort?, module?_eq_some_iff.1 hm]
    rfl
  · exact fun h => Option.isSome_iff_exists.2 (exists_module h)

theorem isSome_function?_iff : (f.function? x).isSome = true ↔ f.sort? x = some .functionDecl := by
  constructor
  · intro h
    obtain ⟨g, hg⟩ := Option.isSome_iff_exists.1 h
    rw [sort?, function?_eq_some_iff.1 hg]
    rfl
  · exact fun h => Option.isSome_iff_exists.2 (exists_function h)

end Forest

namespace Tree

variable {t : Tree} {x : NodeId}

theorem ancestors_eq_nil_iff (hx : x < t.size) : t.ancestors x = [] ↔ x = t.root := by
  rw [← parent?_eq_none_iff hx, Forest.ancestors_eq]
  cases t.parent? x <;> simp

/-- The way up from a node of a tree ends at the root. -/
theorem getLast?_ancestors (hx : x < t.size) (hroot : x ≠ t.root) :
    (t.ancestors x).getLast? = some t.root := by
  fun_induction t.ancestors x with
  | case1 x hparent => exact absurd ((parent?_eq_none_iff hx).1 hparent) hroot
  | case2 x parent hparent ih =>
    have hparent : parent < t.size :=
      Forest.lt_size_of_mem_children (Forest.parent?_eq_some_iff.1 hparent)
    rw [List.getLast?_cons]
    by_cases heq : parent = t.root
    · rw [(ancestors_eq_nil_iff hparent).2 heq, heq]
      rfl
    · rw [ih hparent heq]
      rfl

/-- **Up and down a tree.** Above a node are the nodes that it lies below, each of them once. Going up
step by step gives just these, with growing numbers, and ends at the root, above which there is
nothing. The module and the function around a node are the nearest ones above it. -/
theorem ancestors_iff_descendants (hx : x < t.size) :
    (∀ y, (t.ancestors x).count y = if x ∈ t.descendants y then 1 else 0) ∧
    (∀ k, (t.ancestors x)[k]? = (·.bind t.parent?)^[k + 1] (some x)) ∧
    (x :: t.ancestors x).Pairwise (· < ·) ∧
    (t.ancestors x = [] ↔ x = t.root) ∧
    (x ≠ t.root → (t.ancestors x).getLast? = some t.root) ∧
    t.IsNearest .moduleDecl x (t.enclosingModule? x) ∧
    t.IsNearest .functionDecl x (t.enclosingFunction? x) := by
  have hgrow := t.pairwise_lt_ancestors x
  have hnodup : (t.ancestors x).Nodup := (List.pairwise_cons.1 hgrow).2.imp Nat.ne_of_lt
  refine ⟨fun y => ?_, t.getElem?_ancestors x, hgrow, ancestors_eq_nil_iff hx,
    getLast?_ancestors hx, ?_, ?_⟩
  · simp only [hnodup.count, Forest.mem_ancestors_iff]
  · exact Forest.isNearest_find?_ancestors (fun _ => Forest.isSome_module?_iff) x
  · exact Forest.isNearest_find?_ancestors (fun _ => Forest.isSome_function?_iff) x

/-- The nodes of a program with a module in place of a statement: the module stands in a function of
another module. -/
def nestedNodes : List Node :=
  [⟨.expression (.call "inner" []), ⟨5, 1⟩⟩,
   ⟨.statement (.evaluation 0), ⟨5, 1⟩⟩,
   ⟨.functionDecl ⟨"inner", .void, {}, [], some [1]⟩, ⟨4, 1⟩⟩,
   ⟨.moduleDecl ⟨"Inner", [2], []⟩, ⟨3, 1⟩⟩,
   ⟨.functionDecl ⟨"outer", .void, {}, [], some [3]⟩, ⟨2, 1⟩⟩,
   ⟨.moduleDecl ⟨"Outer", [4], []⟩, ⟨1, 1⟩⟩,
   ⟨.program ⟨[], [5]⟩, ⟨1, 1⟩⟩]

theorem isSome_nestedTree : (Tree.ofNodes "nested.tw" nestedNodes 6).toOption.isSome = true := by
  decide +kernel

/-- A program with a module in a function of another module. -/
def nestedTree : Tree := (Tree.ofNodes "nested.tw" nestedNodes 6).toOption.get isSome_nestedTree

/-- Above the call are both modules and both functions, and it is the inner ones that are around
it. -/
theorem ancestors_iff_descendants_nestedTree :
    0 < nestedTree.size ∧ nestedTree.ancestors 0 = [1, 2, 3, 4, 5, 6] ∧ nestedTree.root = 6 ∧
      (nestedTree.ancestors 0).count 5 = 1 ∧ 0 ∈ nestedTree.descendants 5 ∧
      (nestedTree.ancestors 0).getLast? = some nestedTree.root ∧
      nestedTree.Nearest .moduleDecl 0 3 ∧ ¬ nestedTree.Nearest .moduleDecl 0 5 ∧
      nestedTree.Nearest .functionDecl 0 2 ∧ ¬ nestedTree.Nearest .functionDecl 0 4 := by
  have hsize : 0 < nestedTree.size := by decide +kernel
  have hroot : nestedTree.root = 6 := by decide +kernel
  have hbelow : 0 ∈ nestedTree.descendants 5 := by decide +kernel
  have hmodule : nestedTree.enclosingModule? 0 = some 3 := by decide +kernel
  have hfunction : nestedTree.enclosingFunction? 0 = some 2 := by decide +kernel
  obtain ⟨hcount, -, -, -, hlast, hnearest, hnearestFunction⟩ := ancestors_iff_descendants hsize
  have hinner := (hnearest.eq_some_iff 3).1 hmodule
  have hinnerFunction := (hnearestFunction.eq_some_iff 2).1 hfunction
  refine ⟨hsize, by decide +kernel, hroot, ?_, hbelow, hlast (by rw [hroot]; decide), hinner, ?_,
    hinnerFunction, ?_⟩
  · rw [hcount, if_pos hbelow]
  · exact fun houter => absurd (hnearest.unique 3 5 hinner houter) (by decide)
  · exact fun houter => absurd (hnearestFunction.unique 2 4 hinnerFunction houter) (by decide)

end Tree

end ProgramCheck
