import ProgramCheck.Tree.Node

/-!
# Forests

A forest is a table of nodes in which the parts of a node stand before the node itself, and in which
no node is part of two others or twice part of one. It grows by `push`, which appends a node and
makes it the parent of its parts. The type carries these facts, so whoever walks down a forest walks
to smaller ids, and whoever walks up walks to larger ones.
-/

namespace ProgramCheck

/-- Why a node cannot be appended: one of its parts does not stand before it, or belongs to another
node (or to this one) already. -/
inductive LinkError
  | notBefore (child parent : NodeId)
  | alreadyAttached (child owner parent : NodeId)
  deriving DecidableEq

/-- The wording of a link error. -/
def LinkError.message : LinkError → String
  | .notBefore child parent =>
    "node " ++ child.display ++ " must be pushed before its parent " ++ parent.display
  | .alreadyAttached child owner parent =>
    "node " ++ child.display ++ " is already attached to " ++ owner.display ++
      "; cannot attach it to " ++ parent.display

/-- The parts of the node with number `id` in a table, none if the table has no such node. -/
def childrenIn (nodes : Array Node) (id : NodeId) : List NodeId :=
  match nodes[id]? with
  | some node => node.kind.children
  | none => []

theorem childrenIn_push (nodes : Array Node) (node : Node) (id : NodeId) :
    childrenIn (nodes.push node) id =
      if id = nodes.size then node.kind.children else childrenIn nodes id := by
  by_cases h : id = nodes.size <;> simp [childrenIn, Array.getElem?_push, h]

theorem childrenIn_size (nodes : Array Node) : childrenIn nodes nodes.size = [] := by
  simp [childrenIn]

/-- A table of nodes with the parent of each. The parts of a node have smaller numbers than the
node and differ from each other, and the parents are those that the parts of the nodes demand. -/
structure Forest where
  nodes : Array Node
  parents : Array (Option NodeId)
  size_parents : parents.size = nodes.size
  lt_of_mem_childrenIn : ∀ {parent child : NodeId}, child ∈ childrenIn nodes parent → child < parent
  nodup_childrenIn : ∀ parent : NodeId, (childrenIn nodes parent).Nodup
  parents_eq_some_iff : ∀ child parent : NodeId,
    parents[child]? = some (some parent) ↔ child ∈ childrenIn nodes parent

namespace Forest

/-- The forest without nodes. -/
def empty : Forest where
  nodes := #[]
  parents := #[]
  size_parents := rfl
  lt_of_mem_childrenIn := by simp [childrenIn]
  nodup_childrenIn := by simp [childrenIn]
  parents_eq_some_iff := by simp [childrenIn]

/-- The number of nodes. -/
def size (f : Forest) : Nat := f.nodes.size

/-! ### Attaching the parts of a node -/

/-- Makes `parent` the parent of `child`. -/
def attach (parents : Array (Option NodeId)) (parent child : NodeId) :
    Except LinkError (Array (Option NodeId)) :=
  if parent ≤ child then .error (.notBefore child parent)
  else
    match parents[child]? with
    | some (some owner) => .error (.alreadyAttached child owner parent)
    | _ => .ok (parents.setIfInBounds child (some parent))

/-- Makes `parent` the parent of all the listed nodes, in order. -/
def attachAll (parents : Array (Option NodeId)) (parent : NodeId) :
    List NodeId → Except LinkError (Array (Option NodeId))
  | [] => .ok parents
  | child :: children =>
    match attach parents parent child with
    | .error e => .error e
    | .ok parents' => attachAll parents' parent children

/-- What it takes to attach one node, and what comes of it. -/
theorem attach_eq_ok_iff {parents links : Array (Option NodeId)} {parent child : NodeId}
    (hsize : parents.size = parent) :
    attach parents parent child = .ok links ↔
      child < parent ∧ parents[child]? = some none ∧
        links = parents.setIfInBounds child (some parent) := by
  unfold attach
  split
  · next hle => simp [Nat.not_lt.2 hle]
  · next hle =>
    have hlt : child < parent := Nat.lt_of_not_le hle
    cases h : parents[child]? with
    | none => rw [Array.getElem?_eq_none_iff, hsize] at h; exact absurd hlt (Nat.not_lt.2 h)
    | some owner => cases owner <;> simp [hlt, eq_comm]

/-- What attaching a list of nodes achieves: the nodes were distinct, stood before their new parent
and had none, and nothing else changes. -/
theorem attachAll_eq_ok {parents links : Array (Option NodeId)} {parent : NodeId}
    {children : List NodeId} (hsize : parents.size = parent)
    (h : attachAll parents parent children = .ok links) :
    links.size = parent ∧ children.Nodup ∧
      (∀ child ∈ children, child < parent ∧ parents[child]? = some none) ∧
      ∀ child owner, links[child]? = some (some owner) ↔
        parents[child]? = some (some owner) ∨ owner = parent ∧ child ∈ children := by
  induction children generalizing parents with
  | nil =>
    obtain rfl : parents = links := by simpa [attachAll] using h
    simp [hsize]
  | cons c cs ih =>
    rw [attachAll] at h
    split at h
    · cases h
    · next links' hattach =>
      obtain ⟨hlt, hfree, rfl⟩ := (attach_eq_ok_iff hsize).1 hattach
      obtain ⟨hsize', hnodup, hmem, hlinks⟩ := ih (by simpa using hsize) h
      have hget : ∀ child, (parents.setIfInBounds c (some parent))[child]? =
          if c = child then some (some parent) else parents[child]? := by
        intro child
        rw [Array.getElem?_setIfInBounds]
        rw [if_pos (hsize ▸ hlt : c < parents.size)]
      have hc : c ∉ cs := by
        intro hin
        have := (hmem c hin).2
        simp [hget] at this
      refine ⟨hsize', List.nodup_cons.2 ⟨hc, hnodup⟩, ?_, ?_⟩
      · intro child hin
        rcases List.mem_cons.1 hin with rfl | hin
        · exact ⟨hlt, hfree⟩
        · have := hmem child hin
          rw [hget, if_neg (by rintro rfl; exact hc hin)] at this
          exact this
      · intro child owner
        rw [hlinks, hget, List.mem_cons]
        by_cases heq : c = child
        · subst heq
          simp [hfree, eq_comm, hc]
        · simp [heq, Ne.symm (a := c) heq]

/-- Appends a node and makes it the parent of its parts. -/
def push (f : Forest) (node : Node) : Except LinkError Forest :=
  match h : attachAll f.parents f.nodes.size node.kind.children with
  | .error e => .error e
  | .ok links =>
    have hlinks := attachAll_eq_ok f.size_parents h
    .ok {
      nodes := f.nodes.push node
      parents := links.push none
      size_parents := by simp [hlinks.1]
      lt_of_mem_childrenIn := by
        intro parent child hmem
        rw [childrenIn_push] at hmem
        split at hmem
        · next heq => exact heq ▸ (hlinks.2.2.1 child hmem).1
        · exact f.lt_of_mem_childrenIn hmem
      nodup_childrenIn := by
        intro parent
        rw [childrenIn_push]
        split
        · exact hlinks.2.1
        · exact f.nodup_childrenIn parent
      parents_eq_some_iff := by
        intro child parent
        have hlast : links[links.size]? = none := by simp
        have hpush : (links.push none)[child]? = some (some parent) ↔
            links[child]? = some (some parent) := by
          rw [Array.getElem?_push]
          split
          · next heq => simp [heq]
          · rfl
        rw [hpush, hlinks.2.2.2, f.parents_eq_some_iff, childrenIn_push]
        split
        · next heq => simp [heq, childrenIn_size]
        · next hne => simp [hne] }

/-- Appends a list of nodes in order. A failure comes with the number of the node that failed. -/
def pushAll (f : Forest) : List Node → Except (Nat × LinkError) Forest
  | [] => .ok f
  | node :: nodes =>
    match f.push node with
    | .error e => .error (f.size, e)
    | .ok f' => f'.pushAll nodes

end Forest

end ProgramCheck
