import Mathlib.Data.Nat.Find
import ProgramCheck.Proofs.Linking
import ProgramCheck.Proofs.StackListing

/-!
# Which lists of nodes are trees

A list of nodes is a tree if no link is at fault, the root is a program and part of no node, and every
other node is part of one. This is so for the descriptions of trees and for nothing else: every node
stands behind its parts, the root stands last, and every other node is a part exactly once. All other
lists fail, with what is wrong first.
-/

namespace ProgramCheck

namespace Forest

variable {f : Forest}

/-! ### The nodes without a parent -/

theorem map_part_links (f : Forest) :
    f.links.map Link.part = f.nodes.toList.flatMap (·.kind.children) :=
  map_part_linksFrom 0 _

/-- A node is without a parent if no link leads to it. -/
theorem parents_eq_some_none_iff {id : NodeId} :
    f.parents[id]? = some none ↔ id < f.size ∧ id ∉ f.links.map Link.part := by
  constructor
  · intro h
    have hlt : id < f.parents.size := (Array.getElem?_eq_some_iff.1 h).1
    refine ⟨Nat.lt_of_lt_of_eq hlt f.size_parents, fun hmem => ?_⟩
    obtain ⟨⟨owner, part⟩, hl, rfl⟩ := List.mem_map.1 hmem
    cases h.symm.trans ((f.records_links part owner).2 hl)
  · rintro ⟨hlt, hfree⟩
    have hlt' : id < f.parents.size := f.size_parents.symm ▸ hlt
    rw [Array.getElem?_eq_getElem hlt']
    cases howner : f.parents[id] with
    | none => rfl
    | some owner =>
      have hmem := (f.records_links id owner).1 (by rw [Array.getElem?_eq_getElem hlt', howner])
      exact absurd (List.mem_map.2 ⟨_, hmem, rfl⟩) hfree

theorem firstUnattached?_eq_some_iff {root id : NodeId} :
    f.firstUnattached? root = some id ↔
      id < f.size ∧ id ≠ root ∧ id ∉ f.links.map Link.part ∧
        ∀ k < id, k ≠ root → k ∈ f.links.map Link.part := by
  have hfree : ∀ k < f.size, f.parents[k]? = some none ↔ k ∉ f.links.map Link.part := fun k hk => by
    rw [parents_eq_some_none_iff, and_iff_right hk]
  rw [firstUnattached?, List.find?_range_eq_some, List.mem_range]
  simp only [Bool.and_eq_true, bne_iff_ne, beq_iff_eq, Bool.not_eq_true', Bool.and_eq_false_iff,
    bne_eq_false_iff_eq, beq_eq_false_iff_ne]
  constructor
  · rintro ⟨⟨hne, hid⟩, hlt, hfirst⟩
    refine ⟨hlt, hne, (hfree id hlt).1 hid, fun k hk hkroot => ?_⟩
    by_contra hpart
    exact (hfirst k hk).elim hkroot fun h => h ((hfree k (Nat.lt_trans hk hlt)).2 hpart)
  · rintro ⟨hlt, hne, hid, hfirst⟩
    refine ⟨⟨hne, (hfree id hlt).2 hid⟩, hlt, fun k hk => ?_⟩
    by_cases hkroot : k = root
    · exact Or.inl hkroot
    · exact Or.inr fun h => (hfree k (Nat.lt_trans hk hlt)).1 h (hfirst k hk hkroot)

end Forest

/-- Whether a number among some nodes is that of a program that is part of no node. -/
structure FreeProgram (nodes : List Node) (id : NodeId) : Prop where
  program : ∃ p position, nodes[id]? = some ⟨.program p, position⟩
  free : id ∉ nodes.flatMap (·.kind.children)

/-! ### Finishing a tree -/

namespace Forest

variable {f : Forest} {name : String} {root : NodeId}

theorem toTree_of_missing (h : f.size ≤ root) :
    f.toTree name root = .error (.missingRoot root name) := by
  have hnone : f.nodes[root]?.map Node.kind = none := by
    rw [Array.getElem?_eq_none h, Option.map_none]
  unfold toTree
  split
  · rfl
  · next hroot => cases hnone.symm.trans hroot
  · next hroot => cases hnone.symm.trans hroot

theorem toTree_of_unsuitable (hlt : root < f.size) (h : ¬ FreeProgram f.nodes.toList root) :
    f.toTree name root = .error (.unsuitableRoot root name) := by
  unfold toTree
  split
  · next hroot =>
    rw [Array.getElem?_eq_getElem hlt] at hroot
    cases hroot
  · next p hroot =>
    refine dif_neg fun hparent => h ⟨?_, ?_⟩
    · obtain ⟨⟨kind, position⟩, hnode, rfl⟩ := Option.map_eq_some_iff.1 hroot
      exact ⟨p, position, by rw [Array.getElem?_toList, hnode]⟩
    · rw [← map_part_links]
      exact (parents_eq_some_none_iff.1 hparent).2
  · rfl

theorem kind_of_freeProgram (h : FreeProgram f.nodes.toList root) :
    ∃ p, f.nodes[root]?.map Node.kind = some (.program p) := by
  obtain ⟨p, position, hnode⟩ := h.program
  exact ⟨p, by rw [← Array.getElem?_toList, hnode, Option.map_some]⟩

theorem parents_of_freeProgram (h : FreeProgram f.nodes.toList root) :
    f.parents[root]? = some none := by
  obtain ⟨p, position, hnode⟩ := h.program
  rw [Array.getElem?_toList] at hnode
  refine parents_eq_some_none_iff.2 ⟨(Array.getElem?_eq_some_iff.1 hnode).1, ?_⟩
  rw [map_part_links]
  exact h.free

theorem toTree_of_unattached {id : NodeId} (h : FreeProgram f.nodes.toList root)
    (hid : f.firstUnattached? root = some id) :
    f.toTree name root = .error (.unattached id name) := by
  obtain ⟨p, hroot⟩ := kind_of_freeProgram h
  unfold toTree
  split
  · next hnone => cases hnone.symm.trans hroot
  · rw [dif_pos (parents_of_freeProgram h)]
    split
    · next id' hid' => rw [Option.some.inj (hid'.symm.trans hid)]
    · next hnone => cases hnone.symm.trans hid
  · next hother => exact absurd hroot (by simp_all)

theorem toTree_of_attached (name : String) (h : FreeProgram f.nodes.toList root)
    (hnone : f.firstUnattached? root = none) :
    ∃ t, f.toTree name root = .ok t ∧ t.toForest = f ∧ t.name = name ∧ t.root = root := by
  obtain ⟨p, hroot⟩ := kind_of_freeProgram h
  unfold toTree
  split
  · next hmissing => cases hmissing.symm.trans hroot
  · rw [dif_pos (parents_of_freeProgram h)]
    split
    · next id hid => cases hid.symm.trans hnone
    · exact ⟨_, rfl, rfl, rfl, rfl⟩
  · next hother => exact absurd hroot (by simp_all)

end Forest

namespace Tree

variable {name : String} {nodes : List Node} {root : NodeId}

/-- Whether some nodes describe one tree with a given root: each stands behind its parts, the root is
the last, a program, and each other node is a part once. -/
structure Describes (nodes : List Node) (root : NodeId) : Prop where
  parts_in_front : ∀ (id : NodeId) (node : Node), nodes[id]? = some node →
    ∀ part ∈ node.kind.children, part < id
  parts_perm : (nodes.flatMap (·.kind.children)).Perm (List.range (nodes.length - 1))
  root_last : root + 1 = nodes.length
  program : ∃ p position, nodes[root]? = some ⟨.program p, position⟩

/-- What becomes of nodes that do not describe a tree. The first link at fault fails. If there is
none, the root is looked at, and then the nodes beside it in their order. -/
inductive FailsWith (name : String) (nodes : List Node) (root : NodeId) : BuildFailure → Prop
  | notBefore {before after : List Link} {parent part : NodeId} :
      linksFrom 0 nodes = before ++ ⟨parent, part⟩ :: after → SoundLinks before →
      parent ≤ part →
      FailsWith name nodes root ⟨parent, .link (.notBefore part parent)⟩
  | alreadyAttached {before after : List Link} {parent part owner : NodeId} :
      linksFrom 0 nodes = before ++ ⟨parent, part⟩ :: after → SoundLinks before →
      part < parent → ⟨owner, part⟩ ∈ before →
      FailsWith name nodes root ⟨parent, .link (.alreadyAttached part owner parent)⟩
  | missingRoot :
      SoundLinks (linksFrom 0 nodes) → nodes.length ≤ root →
      FailsWith name nodes root ⟨nodes.length, .missingRoot root name⟩
  | unsuitableRoot :
      SoundLinks (linksFrom 0 nodes) → root < nodes.length → ¬ FreeProgram nodes root →
      FailsWith name nodes root ⟨nodes.length, .unsuitableRoot root name⟩
  | unattached {id : NodeId} :
      SoundLinks (linksFrom 0 nodes) → FreeProgram nodes root → id < nodes.length → id ≠ root →
      id ∉ nodes.flatMap (·.kind.children) →
      (∀ k < id, k ≠ root → k ∈ nodes.flatMap (·.kind.children)) →
      FailsWith name nodes root ⟨nodes.length, .unattached id name⟩

/-- Whether some nodes can be put together so that only the root, a program, is without a parent. -/
structure Attached (nodes : List Node) (root : NodeId) : Prop where
  sound : SoundLinks (linksFrom 0 nodes)
  freeProgram : FreeProgram nodes root
  attached : ∀ id < nodes.length, id ≠ root → id ∈ nodes.flatMap (·.kind.children)

theorem describes_iff_attached : Describes nodes root ↔ Attached nodes root := by
  have hparts := map_part_linksFrom 0 nodes
  constructor
  · rintro ⟨hfront, hperm, hlast, hprogram⟩
    rw [← hlast, Nat.add_sub_cancel] at hperm
    refine ⟨⟨fun l hl => ?_, ?_⟩, ⟨hprogram, fun hmem => ?_⟩, fun id hid hne => ?_⟩
    · obtain ⟨node, hnode, hpart⟩ := mem_linksFrom_iff.1 hl
      exact hfront l.parent node hnode l.part hpart
    · rw [hparts]
      exact hperm.nodup_iff.2 List.nodup_range
    · exact Nat.lt_irrefl root (List.mem_range.1 (hperm.mem_iff.1 hmem))
    · rw [← hlast] at hid
      exact hperm.mem_iff.2 (List.mem_range.2 (Nat.lt_of_le_of_ne (Nat.le_of_lt_succ hid) hne))
  · rintro ⟨⟨hlt, hnodup⟩, ⟨⟨p, position, hnode⟩, hfree⟩, hattached⟩
    have hfront : ∀ (id : NodeId) (node : Node), nodes[id]? = some node →
        ∀ part ∈ node.kind.children, part < id :=
      fun id node hnode part hpart => hlt ⟨id, part⟩ (mem_linksFrom_iff.2 ⟨node, hnode, hpart⟩)
    have hbound : ∀ part ∈ nodes.flatMap (·.kind.children), part + 1 < nodes.length := by
      intro part hmem
      obtain ⟨node, hnode, hpart⟩ := List.mem_flatMap.1 hmem
      obtain ⟨id, hid⟩ := List.mem_iff_getElem?.1 hnode
      exact Nat.lt_of_le_of_lt (hfront id node hid part hpart) (List.getElem?_eq_some_iff.1 hid).1
    -- the last node is part of no node, so it is the root
    have hlast : root + 1 = nodes.length := by
      obtain ⟨k, hk⟩ := Nat.exists_eq_add_of_lt (List.getElem?_eq_some_iff.1 hnode).1
      cases k with
      | zero => exact hk.symm
      | succ k =>
        have hlt : root + (k + 1) < nodes.length := hk ▸ Nat.lt_succ_self _
        have hne : root + (k + 1) ≠ root := Nat.ne_of_gt (Nat.lt_add_of_pos_right k.succ_pos)
        exact absurd (hbound _ (hattached _ hlt hne)) (hk ▸ Nat.lt_irrefl _)
    refine ⟨hfront, ?_, hlast, ⟨p, position, hnode⟩⟩
    rw [hparts] at hnodup
    rw [← hlast] at hbound hattached
    rw [← hlast, Nat.add_sub_cancel]
    refine (List.perm_ext_iff_of_nodup hnodup List.nodup_range).2 fun id => ?_
    rw [List.mem_range]
    exact ⟨fun hmem => Nat.lt_of_succ_lt_succ (hbound id hmem),
      fun hid => hattached id (Nat.lt_succ_of_lt hid) (Nat.ne_of_lt hid)⟩

/-- Nodes fail in some way unless they describe a tree. -/
theorem exists_failsWith_or_attached (name : String) (nodes : List Node) (root : NodeId) :
    (∃ failure, FailsWith name nodes root failure) ∨ Attached nodes root := by
  cases hfault : firstFault? [] (linksFrom 0 nodes) with
  | some fault =>
    obtain ⟨step, e⟩ := fault
    obtain ⟨before, ⟨parent, part⟩, after, hlinks, hnone, he, rfl⟩ := firstFault?_eq_some_iff.1 hfault
    have hsound := (firstFault?_eq_none_iff soundLinks_nil).1 hnone
    rw [List.nil_append] at hsound he
    rcases (Link.fault?_eq_some_iff hsound.nodup).1 he with ⟨hle, -⟩ | ⟨hlt, owner, howner, -⟩
    · exact Or.inl ⟨_, .notBefore hlinks hsound hle⟩
    · exact Or.inl ⟨_, .alreadyAttached hlinks hsound hlt howner⟩
  | none =>
    have hsound := (firstFault?_eq_none_iff soundLinks_nil).1 hfault
    rw [List.nil_append] at hsound
    by_cases hroot : root < nodes.length
    · by_cases hfree : FreeProgram nodes root
      · by_cases hall : ∀ id < nodes.length, id ≠ root → id ∈ nodes.flatMap (·.kind.children)
        · exact Or.inr ⟨hsound, hfree, hall⟩
        · left
          have hexists : ∃ id, id < nodes.length ∧ id ≠ root ∧
              id ∉ nodes.flatMap (·.kind.children) := by
            simpa using hall
          obtain ⟨hlt, hne, hid⟩ := Nat.find_spec hexists
          refine ⟨_, .unattached hsound hfree hlt hne hid fun k hk hkroot => ?_⟩
          by_contra hpart
          exact Nat.find_min hexists hk ⟨Nat.lt_trans hk hlt, hkroot, hpart⟩
      · exact Or.inl ⟨_, .unsuitableRoot hsound hroot hfree⟩
    · exact Or.inl ⟨_, .missingRoot hsound (Nat.not_lt.1 hroot)⟩

/-- Nodes with a link at fault are not put together. -/
theorem ofNodes_of_fault {step : NodeId} {e : LinkError}
    (h : firstFault? [] (linksFrom 0 nodes) = some (step, e)) :
    ofNodes name nodes root = .error ⟨step, .link e⟩ := by
  have hpush := Forest.pushAll_empty nodes
  rw [h] at hpush
  rw [ofNodes, hpush]

/-- Nodes without a link at fault are put together, and the rest is up to the root. -/
theorem exists_forest_of_sound (h : SoundLinks (linksFrom 0 nodes)) :
    ∃ f : Forest, f.nodes.toList = nodes ∧ f.size = nodes.length ∧
      ∀ name root, ofNodes name nodes root =
        match f.toTree name root with
        | .error cause => .error ⟨nodes.length, cause⟩
        | .ok t => .ok t := by
  have hpush := Forest.pushAll_empty nodes
  rw [(firstFault?_eq_none_iff soundLinks_nil).2 (by rwa [List.nil_append])] at hpush
  obtain ⟨f, hf, hnodes⟩ := hpush
  have hsize : f.size = nodes.length := by rw [← hnodes, Array.length_toList, Forest.size]
  refine ⟨f, hnodes, hsize, fun name root => ?_⟩
  cases htree : f.toTree name root with
  | error cause => simp only [ofNodes, hf, htree, hsize]
  | ok t => simp only [ofNodes, hf, htree]

theorem ofNodes_of_failsWith {failure : BuildFailure} (h : FailsWith name nodes root failure) :
    ofNodes name nodes root = .error failure := by
  have hfirst : ∀ {before after : List Link} {l : Link} {e : LinkError},
      linksFrom 0 nodes = before ++ l :: after → SoundLinks before → l.fault? before = some e →
        ofNodes name nodes root = .error ⟨l.parent, .link e⟩ := by
    intro before after l e hlinks hsound he
    refine ofNodes_of_fault (firstFault?_eq_some_iff.2 ⟨before, l, after, hlinks, ?_, he, rfl⟩)
    exact (firstFault?_eq_none_iff soundLinks_nil).2 hsound
  cases h with
  | notBefore hlinks hsound hle =>
    exact hfirst hlinks hsound ((Link.fault?_eq_some_iff hsound.nodup).2 (Or.inl ⟨hle, rfl⟩))
  | alreadyAttached hlinks hsound hlt howner =>
    exact hfirst hlinks hsound
      ((Link.fault?_eq_some_iff hsound.nodup).2 (Or.inr ⟨hlt, _, howner, rfl⟩))
  | missingRoot hsound hle =>
    obtain ⟨f, hnodes, hsize, hf⟩ := exists_forest_of_sound hsound
    rw [hf, Forest.toTree_of_missing (hsize ▸ hle)]
  | unsuitableRoot hsound hlt hfree =>
    obtain ⟨f, rfl, hsize, hf⟩ := exists_forest_of_sound hsound
    rw [hf, Forest.toTree_of_unsuitable (hsize ▸ hlt) hfree]
  | unattached hsound hfree hlt hne hid hfirst =>
    obtain ⟨f, rfl, hsize, hf⟩ := exists_forest_of_sound hsound
    have hunattached := Forest.firstUnattached?_eq_some_iff.2
      ⟨hsize ▸ hlt, hne, f.map_part_links ▸ hid, f.map_part_links ▸ hfirst⟩
    rw [hf, Forest.toTree_of_unattached hfree hunattached]

theorem exists_ofNodes_of_attached (name : String) (h : Attached nodes root) :
    ∃ t, ofNodes name nodes root = .ok t ∧ t.nodes.toList = nodes ∧ t.name = name ∧
      t.root = root := by
  obtain ⟨f, rfl, hsize, hf⟩ := exists_forest_of_sound h.sound
  have hnone : f.firstUnattached? root = none := by
    refine Option.eq_none_iff_forall_not_mem.2 fun id hid => ?_
    obtain ⟨hlt, hne, hfree, -⟩ := Forest.firstUnattached?_eq_some_iff.1 hid
    exact hfree (f.map_part_links ▸ h.attached id (hsize ▸ hlt) hne)
  obtain ⟨t, ht, rfl, hname, hroot⟩ := Forest.toTree_of_attached name h.freeProgram hnone
  exact ⟨t, by rw [hf, ht], rfl, hname, hroot⟩

/-- The words for what is wrong with the nodes of a tree. -/
theorem buildError_messages (name : String) (root part owner parent id : NodeId) :
    (BuildError.link (.notBefore part parent)).message =
      "node #" ++ toString part ++ " must be pushed before its parent #" ++ toString parent ∧
    (BuildError.link (.alreadyAttached part owner parent)).message =
      "node #" ++ toString part ++ " is already attached to #" ++ toString owner ++
        "; cannot attach it to #" ++ toString parent ∧
    (BuildError.missingRoot root name).message =
      "root #" ++ toString root ++ " does not exist in tree '" ++ name ++ "'" ∧
    (BuildError.unsuitableRoot root name).message =
      "root #" ++ toString root ++ " of tree '" ++ name ++ "' must be an unattached program node" ∧
    (BuildError.unattached id name).message =
      "node #" ++ toString id ++ " of tree '" ++ name ++ "' was never attached" := by
  simp [BuildError.message, LinkError.message, NodeId.display, ← String.toList_inj]

/-- **Which lists of nodes are trees**: the descriptions of one tree, in which every node stands behind
its parts. In the tree a node is the parent of its parts, and the root alone has no parent. Any other
list fails with what is wrong first: a part that does not stand in front or has a parent already, a
root that is missing, a root that is no program or has a parent, a node that has none. The words of
the failure name the nodes in question, the parent that a part has already, and the tree. -/
theorem ofNodes_describes (name : String) (nodes : List Node) (root : NodeId) :
    ((∃ t, ofNodes name nodes root = .ok t) ↔ Describes nodes root) ∧
    (∀ t, ofNodes name nodes root = .ok t →
      t.nodes.toList = nodes ∧ t.name = name ∧ t.root = root ∧
      (∀ part parent : NodeId, t.parent? part = some parent ↔
        ∃ node, nodes[parent]? = some node ∧ part ∈ node.kind.children) ∧
      ∀ id < nodes.length, t.parent? id = none ↔ id = root) ∧
    (∀ failure, ofNodes name nodes root = .error failure ↔ FailsWith name nodes root failure) ∧
    ∀ part owner parent id : NodeId,
      (BuildError.link (.notBefore part parent)).message =
        "node #" ++ toString part ++ " must be pushed before its parent #" ++ toString parent ∧
      (BuildError.link (.alreadyAttached part owner parent)).message =
        "node #" ++ toString part ++ " is already attached to #" ++ toString owner ++
          "; cannot attach it to #" ++ toString parent ∧
      (BuildError.missingRoot root name).message =
        "root #" ++ toString root ++ " does not exist in tree '" ++ name ++ "'" ∧
      (BuildError.unsuitableRoot root name).message =
        "root #" ++ toString root ++ " of tree '" ++ name ++
          "' must be an unattached program node" ∧
      (BuildError.unattached id name).message =
        "node #" ++ toString id ++ " of tree '" ++ name ++ "' was never attached" := by
  rw [describes_iff_attached]
  rcases exists_failsWith_or_attached name nodes root with ⟨failure, hfails⟩ | hattached
  · have herror := ofNodes_of_failsWith hfails
    refine ⟨⟨?_, fun hattached => ?_⟩, ?_, fun failure' => ⟨fun h => ?_, ofNodes_of_failsWith⟩,
      buildError_messages name root⟩
    · rintro ⟨t, ht⟩
      cases herror.symm.trans ht
    · obtain ⟨t, ht, -⟩ := exists_ofNodes_of_attached name hattached
      exact ⟨t, ht⟩
    · intro t ht
      cases herror.symm.trans ht
    · cases herror.symm.trans h
      exact hfails
  · obtain ⟨t, ht, hnodes, hname, hroot⟩ := exists_ofNodes_of_attached name hattached
    refine ⟨⟨fun _ => hattached, fun _ => ⟨t, ht⟩⟩, ?_, fun failure =>
      ⟨fun h => ?_, fun h => ofNodes_of_failsWith h⟩, buildError_messages name root⟩
    · intro t' ht'
      cases ht.symm.trans ht'
      refine ⟨hnodes, hname, hroot, fun part parent => ?_, fun id hid => ?_⟩
      · rw [Forest.parent?_eq_some_iff, Forest.children, childrenIn, ← hnodes, Array.getElem?_toList]
        cases t.nodes[parent]? <;> simp
      · rw [← hroot, parent?_eq_none_iff]
        rw [← hnodes, Array.length_toList] at hid
        exact hid
    · cases ht.symm.trans h

theorem ofNodes_eq_get (h : (ofNodes name nodes root).toOption.isSome = true) :
    ofNodes name nodes root = .ok ((ofNodes name nodes root).toOption.get h) := by
  generalize ofNodes name nodes root = result at h ⊢
  cases result with
  | error failure => cases h
  | ok t => rfl

/-- The nodes of the main program describe a tree. With its module listed twice they fail at the
second link to the module, and with another node as the root they fail at the end. -/
theorem ofNodes_describes_mainNodes :
    Describes (mainNodes "LIB") 5 ∧ mainTree.parent? 0 = some 5 ∧ mainTree.parent? 5 = none ∧
      FailsWith "main.tw" (mainNodes "LIB" ++ [⟨.program ⟨[5], [4]⟩, ⟨1, 1⟩⟩]) 6
        ⟨6, .link (.alreadyAttached 4 5 6)⟩ ∧
      (BuildError.link (.alreadyAttached 4 5 6)).message =
        "node #4 is already attached to #5; cannot attach it to #6" ∧
      FailsWith "main.tw" (mainNodes "LIB") 3 ⟨6, .unsuitableRoot 3 "main.tw"⟩ := by
  obtain ⟨haccepts, htree, -⟩ := ofNodes_describes "main.tw" (mainNodes "LIB") 5
  obtain ⟨-, -, hfailsAgain, hmessages⟩ :=
    ofNodes_describes "main.tw" (mainNodes "LIB" ++ [⟨.program ⟨[5], [4]⟩, ⟨1, 1⟩⟩]) 6
  obtain ⟨-, -, hfailsRoot, -⟩ := ofNodes_describes "main.tw" (mainNodes "LIB") 3
  have hmain := ofNodes_eq_get isSome_mainTree
  obtain ⟨-, -, -, hparent, hroot⟩ := htree _ hmain
  refine ⟨haccepts.1 ⟨_, hmain⟩, ?_, ?_, ?_, ?_, ?_⟩
  · exact (hparent 0 5).2 ⟨_, rfl, by decide⟩
  · exact (hroot 5 (by decide)).2 rfl
  · exact (hfailsAgain _).1 rfl
  · obtain ⟨-, hattached, -⟩ := hmessages 4 5 6 0
    exact hattached.trans (by decide)
  · exact (hfailsRoot _).1 rfl

end Tree

end ProgramCheck
