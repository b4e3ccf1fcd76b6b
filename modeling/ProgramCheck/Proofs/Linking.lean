import Mathlib.Data.List.Nodup
import ProgramCheck.Tree.Navigation

/-!
# Linking nodes

The nodes of a list ask for links, each from a node to one of its parts, in the order of the nodes and
of their parts. A link is at fault if it does not lead to a node in front, or if a link before it leads
to the same node. A list of nodes is put together to a forest unless a link is at fault, and then the
first such link says what goes wrong.
-/

namespace ProgramCheck

/-- A node and one of its parts. -/
structure Link where
  parent : NodeId
  part : NodeId
  deriving DecidableEq

/-- The links that a node with a number asks for. -/
def Node.links (id : NodeId) (node : Node) : List Link := node.kind.children.map (⟨id, ·⟩)

/-- The links that some nodes ask for, of which the first has a given number. -/
def linksFrom (first : NodeId) (nodes : List Node) : List Link :=
  (nodes.zipIdx first).flatMap fun x => x.1.links x.2

/-- Whether all links lead to nodes in front, and no two to the same node. -/
structure SoundLinks (links : List Link) : Prop where
  lt : ∀ l ∈ links, l.part < l.parent
  nodup : (links.map Link.part).Nodup

/-! ### The first link at fault -/

/-- What is wrong with a link behind others. -/
def Link.fault? (before : List Link) (l : Link) : Option LinkError :=
  if l.parent ≤ l.part then some (.notBefore l.part l.parent)
  else (before.find? fun b => b.part = l.part).map fun b => .alreadyAttached l.part b.parent l.parent

/-- The first link at fault behind others: the node that asks for it, and what is wrong with it. -/
def firstFault? : List Link → List Link → Option (NodeId × LinkError)
  | _, [] => none
  | before, l :: links =>
    match l.fault? before with
    | some e => some (l.parent, e)
    | none => firstFault? (before ++ [l]) links

section Faults

variable {before links : List Link} {l : Link} {e : LinkError} {step : NodeId}

theorem Link.fault?_eq_none_iff :
    l.fault? before = none ↔ l.part < l.parent ∧ l.part ∉ before.map Link.part := by
  unfold fault?
  split
  · next hle => simp [Nat.not_lt.2 hle]
  · next hnle => simp [Nat.lt_of_not_le hnle]

/-- A link is at fault if it does not lead to a node in front, and otherwise if a link before it leads
to the same node. -/
theorem Link.fault?_eq_some_iff (h : (before.map Link.part).Nodup) :
    l.fault? before = some e ↔
      (l.parent ≤ l.part ∧ e = .notBefore l.part l.parent) ∨
      (l.part < l.parent ∧ ∃ owner, ⟨owner, l.part⟩ ∈ before ∧
        e = .alreadyAttached l.part owner l.parent) := by
  unfold fault?
  split
  · next hle => simp [hle, Nat.not_lt.2 hle, eq_comm]
  · next hnle =>
    have hlt : l.part < l.parent := Nat.lt_of_not_le hnle
    simp only [hnle, false_and, false_or, hlt, true_and, Option.map_eq_some_iff]
    constructor
    · rintro ⟨b, hb, rfl⟩
      have hpart : b.part = l.part := by simpa using List.find?_some hb
      exact ⟨b.parent, hpart ▸ List.mem_of_find?_eq_some hb, rfl⟩
    · rintro ⟨owner, howner, rfl⟩
      have hsome : (before.find? fun b => b.part = l.part).isSome :=
        List.find?_isSome.2 ⟨_, howner, decide_eq_true rfl⟩
      obtain ⟨b, hb⟩ := Option.isSome_iff_exists.1 hsome
      -- of the links before it only one leads to the node
      have hsame : b = ⟨owner, l.part⟩ := by
        refine List.inj_on_of_nodup_map h (List.mem_of_find?_eq_some hb) howner ?_
        simpa using List.find?_some hb
      exact ⟨b, hb, by rw [hsame]⟩

theorem firstFault?_append (before xs ys : List Link) :
    firstFault? before (xs ++ ys) =
      (firstFault? before xs).or (firstFault? (before ++ xs) ys) := by
  induction xs generalizing before with
  | nil => simp [firstFault?]
  | cons x xs ih =>
    rw [List.cons_append, firstFault?, firstFault?]
    cases x.fault? before with
    | some e => rfl
    | none =>
      simp only [ih]
      rw [List.append_assoc, List.singleton_append]

theorem soundLinks_nil : SoundLinks [] where
  lt := by simp
  nodup := List.nodup_nil

theorem SoundLinks.left {xs ys : List Link} (h : SoundLinks (xs ++ ys)) : SoundLinks xs where
  lt l hl := h.lt l (List.mem_append_left _ hl)
  nodup := by
    have hnodup := h.nodup
    rw [List.map_append] at hnodup
    exact hnodup.of_append_left

theorem soundLinks_concat_iff :
    SoundLinks (before ++ [l]) ↔ SoundLinks before ∧ l.fault? before = none := by
  rw [Link.fault?_eq_none_iff]
  constructor
  · intro h
    have hnodup := h.nodup
    rw [List.map_append, List.map_singleton, List.nodup_append] at hnodup
    refine ⟨h.left, h.lt l (List.mem_append_right _ List.mem_cons_self), fun hmem => ?_⟩
    exact hnodup.2.2 _ hmem _ List.mem_cons_self rfl
  · rintro ⟨⟨hlt, hnodup⟩, hpart, hfresh⟩
    refine ⟨fun b hb => ?_, ?_⟩
    · rcases List.mem_append.1 hb with hb | hb
      · exact hlt b hb
      · rwa [List.mem_singleton.1 hb]
    · rw [List.map_append, List.map_singleton, ← List.concat_eq_append]
      exact hnodup.concat hfresh

theorem firstFault?_eq_none_iff (h : SoundLinks before) :
    firstFault? before links = none ↔ SoundLinks (before ++ links) := by
  induction links generalizing before with
  | nil => simpa [firstFault?] using h
  | cons l links ih =>
    have hsplit : before ++ l :: links = before ++ [l] ++ links := by simp
    rw [firstFault?, hsplit]
    cases hl : l.fault? before with
    | some e =>
      constructor
      · intro hnone
        cases hnone
      · intro hsound
        rw [(soundLinks_concat_iff.1 hsound.left).2] at hl
        cases hl
    | none => exact ih (soundLinks_concat_iff.2 ⟨h, hl⟩)

theorem firstFault?_eq_some_iff :
    firstFault? before links = some (step, e) ↔
      ∃ xs l ys, links = xs ++ l :: ys ∧ firstFault? before xs = none ∧
        l.fault? (before ++ xs) = some e ∧ l.parent = step := by
  induction links generalizing before with
  | nil => simp [firstFault?]
  | cons l links ih =>
    rw [firstFault?]
    cases hl : l.fault? before with
    | some e' =>
      simp only [Option.some.injEq, Prod.mk.injEq]
      constructor
      · rintro ⟨rfl, rfl⟩
        exact ⟨[], l, links, rfl, rfl, by rwa [List.append_nil], rfl⟩
      · rintro ⟨xs, x, ys, heq, hnone, hx, rfl⟩
        cases xs with
        | nil =>
          cases heq
          rw [List.append_nil, hl] at hx
          exact ⟨rfl, Option.some.inj hx⟩
        | cons x' xs =>
          cases heq
          simp [firstFault?, hl] at hnone
    | none =>
      simp only [ih]
      constructor
      · rintro ⟨xs, x, ys, rfl, hnone, hx, rfl⟩
        refine ⟨l :: xs, x, ys, rfl, by simpa [firstFault?, hl] using hnone, ?_, rfl⟩
        rwa [List.append_assoc, List.singleton_append] at hx
      · rintro ⟨xs, x, ys, heq, hnone, hx, rfl⟩
        cases xs with
        | nil =>
          cases heq
          rw [List.append_nil, hl] at hx
          cases hx
        | cons x' xs =>
          cases heq
          refine ⟨xs, x, ys, rfl, by simpa [firstFault?, hl] using hnone, ?_, rfl⟩
          rwa [List.append_assoc, List.singleton_append]

end Faults

/-! ### Putting nodes together -/

theorem mem_linksFrom_iff {nodes : List Node} {l : Link} :
    l ∈ linksFrom 0 nodes ↔ ∃ node, nodes[l.parent]? = some node ∧ l.part ∈ node.kind.children := by
  simp only [linksFrom, List.mem_flatMap, Prod.exists, List.mem_zipIdx_iff_getElem?, Node.links,
    List.mem_map]
  constructor
  · rintro ⟨node, id, hnode, part, hpart, rfl⟩
    exact ⟨node, hnode, hpart⟩
  · rintro ⟨node, hnode, hpart⟩
    exact ⟨node, l.parent, hnode, l.part, hpart, rfl⟩

theorem linksFrom_cons (first : NodeId) (node : Node) (nodes : List Node) :
    linksFrom first (node :: nodes) = node.links first ++ linksFrom (first + 1) nodes := by
  rw [linksFrom, List.zipIdx_cons, List.flatMap_cons, linksFrom]

theorem linksFrom_append (first : NodeId) (xs ys : List Node) :
    linksFrom first (xs ++ ys) = linksFrom first xs ++ linksFrom (first + xs.length) ys := by
  rw [linksFrom, List.zipIdx_append, List.flatMap_append, linksFrom, linksFrom]

/-- Where the links of some nodes lead: to the parts of the nodes, one after the other. -/
theorem map_part_linksFrom (first : NodeId) (nodes : List Node) :
    (linksFrom first nodes).map Link.part = nodes.flatMap (·.kind.children) := by
  induction nodes generalizing first with
  | nil => rfl
  | cons node nodes ih =>
    rw [linksFrom_cons, List.map_append, ih, List.flatMap_cons, Node.links, List.map_map]
    exact congrArg (· ++ _) (List.map_id _)

namespace Forest

variable {parents : Array (Option NodeId)} {before : List Link} {f g : Forest} {node : Node}

/-- The links of the nodes of a forest. -/
def links (f : Forest) : List Link := linksFrom 0 f.nodes.toList

/-- Whether a table of parents holds the given links and no others. -/
def Records (parents : Array (Option NodeId)) (links : List Link) : Prop :=
  ∀ child owner : NodeId, parents[child]? = some (some owner) ↔ ⟨owner, child⟩ ∈ links

theorem records_links (f : Forest) : Records f.parents f.links := by
  intro child owner
  rw [f.parents_eq_some_iff, links, mem_linksFrom_iff, childrenIn, Array.getElem?_toList]
  cases f.nodes[owner]? <;> simp

/-- A link is made unless it is at fault. -/
theorem attach_eq {l : Link} (hsize : parents.size = l.parent) (hrecords : Records parents before)
    (hsound : SoundLinks before) :
    attach parents l.parent l.part =
      match l.fault? before with
      | some e => .error e
      | none => .ok (parents.setIfInBounds l.part (some l.parent)) := by
  cases hl : l.fault? before with
  | some e =>
    rcases (Link.fault?_eq_some_iff hsound.nodup).1 hl with ⟨hle, rfl⟩ | ⟨hlt, owner, howner, rfl⟩
    · rw [attach, if_pos hle]
    · rw [attach, if_neg (Nat.not_le.2 hlt), (hrecords l.part owner).2 howner]
  | none =>
    obtain ⟨hlt, hfresh⟩ := Link.fault?_eq_none_iff.1 hl
    refine (attach_eq_ok_iff hsize).2 ⟨hlt, ?_, rfl⟩
    have hbound : l.part < parents.size := hsize ▸ hlt
    rw [Array.getElem?_eq_getElem hbound]
    cases howner : parents[l.part] with
    | none => rfl
    | some owner =>
      have hmem := (hrecords l.part owner).1 (by rw [Array.getElem?_eq_getElem hbound, howner])
      exact absurd (List.mem_map_of_mem hmem) hfresh

/-- A link that is made is recorded behind the others. -/
theorem Records.attach {l : Link} (hsize : parents.size = l.parent)
    (hrecords : Records parents before) (hl : l.fault? before = none) :
    Records (parents.setIfInBounds l.part (some l.parent)) (before ++ [l]) := by
  obtain ⟨hlt, hfresh⟩ := Link.fault?_eq_none_iff.1 hl
  intro child owner
  rw [Array.getElem?_setIfInBounds, List.mem_append, List.mem_singleton, ← hrecords child owner]
  by_cases hchild : l.part = child
  · subst hchild
    have hnone : parents[l.part]? ≠ some (some owner) := fun h =>
      hfresh (List.mem_map.2 ⟨_, (hrecords l.part owner).1 h, rfl⟩)
    rw [if_pos rfl, if_pos (hsize ▸ hlt : l.part < parents.size)]
    obtain ⟨parent, part⟩ := l
    simp [hnone, eq_comm]
  · rw [if_neg hchild]
    obtain ⟨parent, part⟩ := l
    simp [Ne.symm hchild]

/-- The links of one node are all made unless one is at fault, and then the first such fails. -/
theorem attachAll_eq {parent : NodeId} (children : List NodeId) (hsize : parents.size = parent)
    (hrecords : Records parents before) (hsound : SoundLinks before) :
    match firstFault? before (children.map (⟨parent, ·⟩)) with
    | some (step, e) => step = parent ∧ attachAll parents parent children = .error e
    | none => ∃ links, attachAll parents parent children = .ok links := by
  induction children generalizing parents before with
  | nil => exact ⟨parents, rfl⟩
  | cons child children ih =>
    have hattach := attach_eq (l := ⟨parent, child⟩) hsize hrecords hsound
    rw [List.map_cons, firstFault?, attachAll]
    cases hl : Link.fault? before ⟨parent, child⟩ with
    | some e =>
      rw [hl] at hattach
      simp only [hattach, and_self]
    | none =>
      rw [hl] at hattach
      simp only [hattach]
      exact ih (by rwa [Array.size_setIfInBounds]) (hrecords.attach hsize hl)
        (soundLinks_concat_iff.2 ⟨hsound, hl⟩)

theorem nodes_of_push (h : f.push node = .ok g) : g.nodes = f.nodes.push node := by
  unfold push at h
  split at h
  · cases h
  · cases h
    rfl

theorem links_of_push (h : f.push node = .ok g) : g.links = f.links ++ node.links f.size := by
  rw [links, nodes_of_push h, Array.toList_push, linksFrom_append, linksFrom_cons, links, size,
    Nat.zero_add, Array.length_toList]
  exact congrArg _ (List.append_nil _)

theorem push_eq_error {e : LinkError}
    (h : attachAll f.parents f.size node.kind.children = .error e) : f.push node = .error e := by
  unfold push
  split
  · next e' he => exact congrArg _ (Except.error.inj (he.symm.trans h))
  · next links hlinks => cases hlinks.symm.trans h

theorem exists_push_eq_ok {links : Array (Option NodeId)}
    (h : attachAll f.parents f.size node.kind.children = .ok links) : ∃ g, f.push node = .ok g := by
  unfold push
  split
  · next e he => cases he.symm.trans h
  · exact ⟨_, rfl⟩

/-- A node is appended unless a link that it asks for is at fault, and then the first such fails. -/
theorem push_eq (hsound : SoundLinks f.links) (node : Node) :
    match firstFault? f.links (node.links f.size) with
    | some (step, e) => step = f.size ∧ f.push node = .error e
    | none => ∃ g, f.push node = .ok g := by
  have hattach := attachAll_eq node.kind.children f.size_parents f.records_links hsound
  cases hfault : firstFault? f.links (node.links f.size) with
  | some fault =>
    rw [← Node.links, ← size, hfault] at hattach
    exact ⟨hattach.1, push_eq_error hattach.2⟩
  | none =>
    rw [← Node.links, ← size, hfault] at hattach
    obtain ⟨links, hlinks⟩ := hattach
    exact exists_push_eq_ok hlinks

/-- Nodes are appended unless a link that they ask for is at fault, and then the first such fails. -/
theorem pushAll_eq (hsound : SoundLinks f.links) (nodes : List Node) :
    match firstFault? f.links (linksFrom f.size nodes) with
    | some fault => f.pushAll nodes = .error fault
    | none => ∃ g, f.pushAll nodes = .ok g ∧ g.nodes.toList = f.nodes.toList ++ nodes := by
  induction nodes generalizing f with
  | nil => exact ⟨f, rfl, by rw [List.append_nil]⟩
  | cons node nodes ih =>
    have hpush := push_eq hsound node
    rw [linksFrom_cons, firstFault?_append, pushAll]
    cases hfault : firstFault? f.links (node.links f.size) with
    | some fault =>
      rw [hfault] at hpush
      obtain ⟨step, e⟩ := fault
      obtain ⟨rfl, he⟩ := hpush
      simp only [Option.some_or, he]
    | none =>
      rw [hfault] at hpush
      obtain ⟨g, hg⟩ := hpush
      have hlinks := links_of_push hg
      have hsize : g.size = f.size + 1 := by
        rw [size, nodes_of_push hg, Array.size_push, size]
      have hrest := ih (hlinks ▸ (firstFault?_eq_none_iff hsound).1 hfault)
      rw [hlinks, hsize, nodes_of_push hg, Array.toList_push, List.append_assoc,
        List.singleton_append] at hrest
      simp only [hg, Option.none_or]
      exact hrest

/-- Nodes are put together unless a link that they ask for is at fault. -/
theorem pushAll_empty (nodes : List Node) :
    match firstFault? [] (linksFrom 0 nodes) with
    | some fault => empty.pushAll nodes = .error fault
    | none => ∃ f, empty.pushAll nodes = .ok f ∧ f.nodes.toList = nodes :=
  pushAll_eq (f := empty) soundLinks_nil nodes

end Forest

end ProgramCheck
