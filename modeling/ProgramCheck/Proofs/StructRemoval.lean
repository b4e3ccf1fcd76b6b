import ProgramCheck.Proofs.RenumberedReports

/-!
# Trees without structs

From every tree all structs of modules can be deleted, with everything in them: the other nodes keep
their order and are numbered anew. What is left is a tree, and the old tree matches it. So the
built-in rules report the same without the structs, and the same with any other structs.
-/

namespace ProgramCheck

namespace NodeKind

@[simp] theorem slots_renumber (σ : NodeId → NodeId) (k : NodeKind) :
    (k.renumber σ).slots = k.slots.map fun slot => (slot.1, σ slot.2) := by
  cases k with
  | program p => simp [renumber, slots, Program.renumber, Function.comp_def]
  | moduleDecl m => simp [renumber, slots, Module.renumber, Function.comp_def]
  | structDecl s => simp [renumber, slots, Struct.renumber, Function.comp_def]
  | fieldDecl f => cases h : f.initializer <;> simp [renumber, slots, Field.renumber, h]
  | functionDecl g =>
    simp only [renumber, slots, Function.body_renumber, List.map_append, List.map_map]
    simp [Function.renumber, Function.comp_def]
  | statement s => simp [renumber, slots, Function.comp_def]
  | expression e => simp [renumber, slots, Function.comp_def]
  | importDecl | parameterDecl => rfl

/-- Without the structs of modules there are no places for structs. -/
theorem mem_slots_of_withoutStructs {k : NodeKind} {slot : NodeSort × NodeId}
    (h : slot ∈ k.withoutStructs.slots) : slot ∈ k.slots ∧ slot.1 ≠ .structDecl := by
  constructor
  · cases k with
    | moduleDecl m => exact List.mem_append_left _ (by simpa [withoutStructs, slots] using h)
    | _ => exact h
  · obtain ⟨s, id⟩ := slot
    rintro rfl
    cases k <;> simp [withoutStructs, slots] at h

end NodeKind

namespace Tree

variable {t : Tree} {id child : NodeId}

/-! ### The nodes outside of structs -/

theorem OutsideStructs.of_parent? {parent : NodeId} (h : t.OutsideStructs id)
    (hparent : t.parent? id = some parent) :
    t.OutsideStructs parent ∧ id ∈ t.plainParts parent := by
  cases h with
  | root =>
    rw [t.parent?_root] at hparent
    cases hparent
  | @part p _ h hid =>
    have hp := Forest.parent?_eq_some_iff.2 ((t.plainParts_sublist p).subset hid)
    obtain rfl := Option.some.inj (hp.symm.trans hparent)
    exact ⟨h, hid⟩

theorem eq_root_of_parent? (hid : id < t.size) (h : t.parent? id = none) : id = t.root := by
  refine (t.parents_eq_none_iff id).1 ?_
  have hlt : id < t.parents.size := t.size_parents ▸ hid
  rw [Forest.parent?, Array.getElem?_eq_getElem hlt, Option.join_some] at h
  rw [Array.getElem?_eq_getElem hlt, h]

/-- A node is outside of structs if neither it nor a node above it is a struct of its module. -/
theorem outsideStructs_iff : t.OutsideStructs id ↔ id < t.size ∧
    ∀ a ∈ id :: t.ancestors id, ∀ p ∈ t.parent? a, a ∈ t.plainParts p := by
  constructor
  · intro h
    refine ⟨h.lt_size, fun a ha p hp => ?_⟩
    have houtside : t.OutsideStructs a := by
      rcases List.mem_cons.1 ha with rfl | ha
      · exact h
      · exact h.of_mem_ancestors a ha
    exact (houtside.of_parent? hp).2
  · rintro ⟨hlt, hall⟩
    fun_induction t.ancestors id with
    | case1 id hparent => exact eq_root_of_parent? hlt hparent ▸ .root
    | case2 id parent hparent ih =>
      obtain ⟨hid, habove⟩ := List.forall_mem_cons.1 hall
      have hsize := Forest.lt_size_of_mem_children (Forest.parent?_eq_some_iff.1 hparent)
      exact (ih hsize habove).part (hid parent hparent)

instance (t : Tree) : DecidablePred t.OutsideStructs := fun _ =>
  decidable_of_iff _ outsideStructs_iff.symm

/-- The nodes outside of structs in the order of their numbers. -/
def outsideNodes (t : Tree) : List NodeId := (List.range t.size).filter (t.OutsideStructs ·)

/-- The number of a node among the nodes outside of structs. -/
def outsideNumber (t : Tree) (id : NodeId) : NodeId := t.outsideNodes.idxOf id

theorem mem_outsideNodes_iff : id ∈ t.outsideNodes ↔ t.OutsideStructs id := by
  rw [outsideNodes, List.mem_filter, List.mem_range, decide_eq_true_iff]
  exact ⟨And.right, fun h => ⟨h.lt_size, h⟩⟩

theorem lt_of_mem_outsideNodes (h : id ∈ t.outsideNodes) : id < t.nodes.size :=
  (mem_outsideNodes_iff.1 h).lt_size

theorem pairwise_outsideNodes (t : Tree) : t.outsideNodes.Pairwise (· < ·) :=
  List.pairwise_lt_range.filter _

theorem getElem?_outsideNodes_iff {i : Nat} :
    t.outsideNodes[i]? = some id ↔ t.OutsideStructs id ∧ t.outsideNumber id = i := by
  have hnodup : t.outsideNodes.Nodup := t.pairwise_outsideNodes.imp Nat.ne_of_lt
  constructor
  · intro h
    obtain ⟨hi, rfl⟩ := List.getElem?_eq_some_iff.1 h
    exact ⟨mem_outsideNodes_iff.1 (List.getElem_mem hi), hnodup.idxOf_getElem i hi⟩
  · rintro ⟨h, rfl⟩
    exact List.getElem?_idxOf (mem_outsideNodes_iff.2 h)

theorem outsideNumber_injective {a b : NodeId} (ha : t.OutsideStructs a) (hb : t.OutsideStructs b)
    (h : t.outsideNumber a = t.outsideNumber b) : a = b := by
  have hgeta := getElem?_outsideNodes_iff.2 ⟨ha, h⟩
  exact Option.some.inj (hgeta.symm.trans (getElem?_outsideNodes_iff.2 ⟨hb, rfl⟩))

/-- The nodes outside of structs keep their order. -/
theorem outsideNumber_lt {a b : NodeId} (ha : t.OutsideStructs a) (hb : t.OutsideStructs b)
    (h : a < b) : t.outsideNumber a < t.outsideNumber b := by
  obtain ⟨hi, hgeta⟩ := List.getElem?_eq_some_iff.1 (getElem?_outsideNodes_iff.2 ⟨ha, rfl⟩)
  obtain ⟨hj, hgetb⟩ := List.getElem?_eq_some_iff.1 (getElem?_outsideNodes_iff.2 ⟨hb, rfl⟩)
  refine Nat.lt_of_not_le fun hle => ?_
  rcases Nat.lt_or_eq_of_le hle with hlt | heq
  · have hba := List.pairwise_iff_getElem.1 t.pairwise_outsideNodes _ _ hj hi hlt
    rw [hgeta, hgetb] at hba
    exact Nat.lt_asymm h hba
  · simp only [heq, hgeta] at hgetb
    exact Nat.ne_of_lt h hgetb

/-! ### The tree without structs -/

variable (t)

/-- The node that is left of a node outside of structs. -/
def remnant (n : Node) : Node := ⟨n.kind.withoutStructs.renumber t.outsideNumber, n.position⟩

/-- What is left of the nodes outside of structs. -/
def remnants : Array Node :=
  (t.outsideNodes.pmap (fun id (_ : id < t.nodes.size) => t.remnant t.nodes[id])
    fun _ => lt_of_mem_outsideNodes).toArray

/-- The parents of the nodes that are left. -/
def remnantParents : Array (Option NodeId) :=
  (t.outsideNodes.map fun id => (t.parent? id).map t.outsideNumber).toArray

theorem getElem?_remnants (i : Nat) :
    t.remnants[i]? = t.outsideNodes[i]?.bind fun id => t.nodes[id]?.map t.remnant := by
  rw [remnants, List.getElem?_toArray]
  by_cases hi : i < t.outsideNodes.length
  · have hlt := lt_of_mem_outsideNodes (List.getElem_mem hi)
    rw [List.getElem?_eq_getElem (by rwa [List.length_pmap]), List.getElem_pmap,
      List.getElem?_eq_getElem hi, Option.bind_some, Array.getElem?_eq_getElem hlt, Option.map_some]
  · rw [List.getElem?_eq_none (by rw [List.length_pmap]; exact Nat.le_of_not_lt hi),
      List.getElem?_eq_none (Nat.le_of_not_lt hi), Option.bind_none]

theorem getElem?_remnantParents (i : Nat) :
    t.remnantParents[i]? = t.outsideNodes[i]?.map fun id => (t.parent? id).map t.outsideNumber := by
  rw [remnantParents, List.getElem?_toArray, List.getElem?_map]

variable {t}

theorem childrenIn_remnants {i : Nat} (h : t.outsideNodes[i]? = some id) :
    childrenIn t.remnants i = (t.plainParts id).map t.outsideNumber := by
  have hlt := lt_of_mem_outsideNodes (List.mem_of_getElem? h)
  have hkind : t.kind? id = some t.nodes[id].kind := by
    rw [Forest.kind?, Array.getElem?_eq_getElem hlt, Option.map_some]
  rw [childrenIn, getElem?_remnants, h, Option.bind_some, Array.getElem?_eq_getElem hlt,
    Option.map_some, Forest.plainParts_of_kind? hkind]
  exact NodeKind.children_renumber t.outsideNumber _

/-- The parts of the nodes that are left are their parts that are left. -/
theorem mem_childrenIn_remnants {i j : Nat} : j ∈ childrenIn t.remnants i ↔
    ∃ parent, t.outsideNodes[i]? = some parent ∧
      ∃ child ∈ t.plainParts parent, t.outsideNodes[j]? = some child := by
  cases hi : t.outsideNodes[i]? with
  | none => simp [childrenIn, getElem?_remnants, hi]
  | some parent =>
    have hparent := (getElem?_outsideNodes_iff.1 hi).1
    simp only [childrenIn_remnants hi, List.mem_map, Option.some.injEq, exists_eq_left']
    refine exists_congr fun child => and_congr_right fun hchild => ?_
    rw [getElem?_outsideNodes_iff]
    exact ⟨fun heq => ⟨hparent.part hchild, heq⟩, And.right⟩

theorem lt_of_mem_childrenIn_remnants {i j : Nat} (h : j ∈ childrenIn t.remnants i) : j < i := by
  obtain ⟨parent, hi, child, hchild, hj⟩ := mem_childrenIn_remnants.1 h
  obtain ⟨hparent, rfl⟩ := getElem?_outsideNodes_iff.1 hi
  obtain ⟨hchild', rfl⟩ := getElem?_outsideNodes_iff.1 hj
  exact outsideNumber_lt hchild' hparent
    (t.lt_of_mem_childrenIn ((t.plainParts_sublist parent).subset hchild))

theorem nodup_childrenIn_remnants (i : Nat) : (childrenIn t.remnants i).Nodup := by
  cases hi : t.outsideNodes[i]? with
  | none => simp [childrenIn, getElem?_remnants, hi]
  | some parent =>
    have hparent := (getElem?_outsideNodes_iff.1 hi).1
    have hnodup := (t.plainParts_sublist parent).nodup (t.nodup_childrenIn parent)
    rw [childrenIn_remnants hi]
    exact hnodup.map_on fun a ha b hb =>
      outsideNumber_injective (hparent.part ha) (hparent.part hb)

theorem remnantParents_eq_some_iff {i j : Nat} :
    t.remnantParents[j]? = some (some i) ↔ j ∈ childrenIn t.remnants i := by
  rw [mem_childrenIn_remnants, getElem?_remnantParents]
  constructor
  · intro h
    obtain ⟨child, hj, hmap⟩ := Option.map_eq_some_iff.1 h
    obtain ⟨parent, hparent, rfl⟩ := Option.map_eq_some_iff.1 hmap
    obtain ⟨houtside, hchild⟩ := (getElem?_outsideNodes_iff.1 hj).1.of_parent? hparent
    exact ⟨parent, getElem?_outsideNodes_iff.2 ⟨houtside, rfl⟩, child, hchild, hj⟩
  · rintro ⟨parent, hi, child, hchild, hj⟩
    obtain ⟨-, rfl⟩ := getElem?_outsideNodes_iff.1 hi
    have hparent := Forest.parent?_eq_some_iff.2 ((t.plainParts_sublist parent).subset hchild)
    rw [hj, Option.map_some, hparent, Option.map_some]

theorem remnantParents_eq_none_iff {j : Nat} :
    t.remnantParents[j]? = some none ↔ j = t.outsideNumber t.root := by
  rw [getElem?_remnantParents]
  constructor
  · intro h
    obtain ⟨id, hj, hnone⟩ := Option.map_eq_some_iff.1 h
    obtain ⟨houtside, rfl⟩ := getElem?_outsideNodes_iff.1 hj
    rw [eq_root_of_parent? houtside.lt_size (Option.map_eq_none_iff.1 hnone)]
  · rintro rfl
    rw [getElem?_outsideNodes_iff.2 ⟨.root, rfl⟩, Option.map_some, t.parent?_root, Option.map_none]

/-- The tree without its structs. -/
def withoutStructs (t : Tree) : Tree where
  nodes := t.remnants
  parents := t.remnantParents
  size_parents := by simp [remnants, remnantParents]
  lt_of_mem_childrenIn := lt_of_mem_childrenIn_remnants
  nodup_childrenIn := nodup_childrenIn_remnants
  parents_eq_some_iff _ _ := remnantParents_eq_some_iff
  name := t.name
  root := t.outsideNumber t.root
  program := t.program.renumber t.outsideNumber
  kind_root := by
    have hroot :=
      congrArg (Option.map fun k => k.withoutStructs.renumber t.outsideNumber) t.kind_root
    rw [getElem?_remnants, getElem?_outsideNodes_iff.2 ⟨.root, rfl⟩, Option.bind_some,
      Option.map_map]
    rw [Option.map_map] at hroot
    exact hroot
  parents_eq_none_iff _ := remnantParents_eq_none_iff

theorem kind?_withoutStructs (h : t.OutsideStructs id) :
    t.withoutStructs.kind? (t.outsideNumber id) =
      (t.kind? id).map fun k => k.withoutStructs.renumber t.outsideNumber := by
  change (t.remnants[t.outsideNumber id]?).map Node.kind = _
  rw [getElem?_remnants, getElem?_outsideNodes_iff.2 ⟨h, rfl⟩, Option.bind_some, Option.map_map,
    Forest.kind?, Option.map_map]
  rfl

/-- **A tree matches what is left of it without structs.** -/
theorem matching_withoutStructs (t : Tree) : Matching Eq t t.withoutStructs t.outsideNumber where
  root := rfl
  withoutStructs id h := by
    rw [kind?_withoutStructs h, Option.map_map]
    refine Option.map_congr fun k _ => ?_
    cases k <;> rfl
  position id h := by
    rw [Forest.position, Forest.position]
    change _ = (t.remnants[t.outsideNumber id]?.map Node.position).getD {}
    rw [getElem?_remnants, getElem?_outsideNodes_iff.2 ⟨h, rfl⟩, Option.bind_some, Option.map_map]
    rfl

/-- Every node of the tree without structs is what is left of a node. -/
theorem exists_of_lt_withoutStructs {i : Nat} (h : i < t.withoutStructs.size) :
    ∃ id, t.OutsideStructs id ∧ t.outsideNumber id = i := by
  have hlength : t.withoutStructs.size = t.outsideNodes.length := by
    simp [Forest.size, withoutStructs, remnants]
  exact ⟨_, getElem?_outsideNodes_iff.1 (List.getElem?_eq_getElem (hlength ▸ h))⟩

/-! ### Well-kinded trees -/

/-- In a well-kinded tree the parts that are left are no structs. -/
theorem sort_of_mem_plainParts (h : t.WellKinded) {parent : NodeId}
    (hid : id ∈ t.plainParts parent) : t.sort? id ≠ some .structDecl := by
  cases hk : t.kind? parent with
  | none =>
    rw [Forest.plainParts, hk] at hid
    cases hid
  | some k =>
    rw [Forest.plainParts_of_kind? hk, ← NodeKind.map_snd_slots] at hid
    obtain ⟨⟨s, id⟩, hslot, rfl⟩ := List.mem_map.1 hid
    obtain ⟨hmem, hne⟩ := NodeKind.mem_slots_of_withoutStructs hslot
    rw [(h.slotsFit parent).sort? hk hmem]
    exact fun heq => hne (Option.some.inj heq)

/-- There is no struct in a well-kinded tree without structs. -/
theorem sort?_withoutStructs (h : t.WellKinded) (i : NodeId) :
    t.withoutStructs.sort? i ≠ some .structDecl := by
  intro hsort
  have hi : i < t.withoutStructs.size := by
    obtain ⟨k, hk, -⟩ := Option.map_eq_some_iff.1 hsort
    exact Forest.lt_size_of_kind? hk
  obtain ⟨id, hid, rfl⟩ := exists_of_lt_withoutStructs hi
  rw [t.matching_withoutStructs.sort? hid] at hsort
  cases hid with
  | root =>
    rw [t.sort?_root] at hsort
    cases hsort
  | part _ hid => exact sort_of_mem_plainParts h hid hsort

theorem wellKinded_withoutStructs (h : t.WellKinded) : t.withoutStructs.WellKinded := by
  intro i hi slot hslot
  obtain ⟨id, hid, rfl⟩ := exists_of_lt_withoutStructs hi
  have hkind := kind?_withoutStructs hid
  cases hk : t.kind? id with
  | none =>
    rw [hk, Option.map_none] at hkind
    rw [Forest.slots, hkind] at hslot
    cases hslot
  | some k =>
    rw [hk, Option.map_some] at hkind
    rw [Forest.slots_of_kind? hkind, NodeKind.slots_renumber] at hslot
    obtain ⟨⟨s, part⟩, hpart, rfl⟩ := List.mem_map.1 hslot
    have hplain : part ∈ t.plainParts id := by
      rw [Forest.plainParts_of_kind? hk, ← NodeKind.map_snd_slots]
      exact List.mem_map_of_mem hpart
    rw [t.matching_withoutStructs.sort? (hid.part hplain)]
    exact (h.slotsFit id).sort? hk (NodeKind.mem_slots_of_withoutStructs hpart).1

end Tree

/-- Matching well-kinded trees declare modules of the same names. -/
theorem Matching.resolves_iff {P : Position → Position → Prop} {t t' : Tree} {σ : NodeId → NodeId}
    (r : Matching P t t' σ) (h : t.WellKinded) (h' : t'.WellKinded) (name : String) :
    Resolves [t'] name ↔ Resolves [t] name := by
  have hnames : ∀ {id}, t.OutsideStructs id →
      ((∃ m, t'.module? (σ id) = some m ∧ lowercase m.name = lowercase name) ↔
        ∃ m, t.module? id = some m ∧ lowercase m.name = lowercase name) := by
    intro id hid
    have hname := r.map_name_module? hid
    cases hm : t.module? id <;> cases hm' : t'.module? (σ id) <;> simp_all
  have hmodule : ∀ {t : Tree} {id m}, t.WellKinded → t.module? id = some m →
      id ∈ t.program.modules := fun h hm =>
    Tree.mem_modules_of_module? h
      (Tree.mem_preorder_root_iff.2 (Forest.lt_size_of_kind? (Forest.module?_eq_some_iff.1 hm))) hm
  simp only [Resolves, List.mem_singleton, exists_eq_left]
  constructor
  · rintro ⟨id', m', hm', heq⟩
    have hmem := hmodule h' hm'
    rw [r.program] at hmem
    obtain ⟨id, hid, rfl⟩ := List.mem_map.1 hmem
    exact ⟨id, (hnames (.of_module hid)).1 ⟨m', hm', heq⟩⟩
  · rintro ⟨id, m, hm, heq⟩
    exact ⟨σ id, (hnames (.of_module (hmodule h hm))).2 ⟨m, hm, heq⟩⟩

/-! ### A whole check -/

namespace Compilation

variable {trees trees' : List Tree}

theorem exists_analyze_of_wellKinded (bs : List Builtin) (h : ∀ t ∈ trees, t.WellKinded) :
    ∃ a, (Analyzer.ofBuiltin bs).analyze (ofTrees trees) = .ok a := by
  obtain ⟨a, ha, -, -⟩ := Analyzer.analyze_builtin bs
    (allVisits_of_wellKinded (c := ofTrees trees) (by rwa [trees_ofTrees]))
  exact ⟨a, ha⟩

/-- Well-kinded trees are reported on as what is left of them without structs. -/
theorem report_withoutStructs (bs : List Builtin) (h : ∀ t ∈ trees, t.WellKinded)
    {a b : Analysis} (ha : (Analyzer.ofBuiltin bs).analyze (ofTrees trees) = .ok a)
    (hb : (Analyzer.ofBuiltin bs).analyze (ofTrees (trees.map Tree.withoutStructs)) = .ok b) :
    b.report = a.report := by
  have hmatch : List.Forall₂ (fun t t' => ∃ σ, Matching Eq t t' σ) trees
      (trees.map Tree.withoutStructs) :=
    List.forall₂_map_right_iff.2
      (List.forall₂_same.2 fun t _ => ⟨t.outsideNumber, t.matching_withoutStructs⟩)
  have hresolves : List.Forall₂ (fun t t' => ∀ name, Resolves [t'] name ↔ Resolves [t] name) trees
      (trees.map Tree.withoutStructs) :=
    List.forall₂_map_right_iff.2 (List.forall₂_same.2 fun t ht =>
      t.matching_withoutStructs.resolves_iff (h t ht) (Tree.wellKinded_withoutStructs (h t ht)))
  rcases analyze_of_matching bs hmatch (resolves_iff_of_forall₂ hresolves) with
    ⟨d, -, hd, -⟩ | ⟨a', b', ha', hb', hsimilar⟩
  · cases ha.symm.trans hd
  · cases ha.symm.trans ha'
    cases hb.symm.trans hb'
    exact hsimilar.eq.symm

/-- Well-kinded trees of which the same is left without structs are reported on alike. -/
theorem report_of_withoutStructs (bs : List Builtin) (h : ∀ t ∈ trees, t.WellKinded)
    (h' : ∀ t ∈ trees', t.WellKinded)
    (houtlines : trees.map (fun t => t.withoutStructs.outline t.withoutStructs.root) =
      trees'.map fun t => t.withoutStructs.outline t.withoutStructs.root)
    {a a' : Analysis} (ha : (Analyzer.ofBuiltin bs).analyze (ofTrees trees) = .ok a)
    (ha' : (Analyzer.ofBuiltin bs).analyze (ofTrees trees') = .ok a') : a'.report = a.report := by
  have hleft : ∀ {trees : List Tree}, (∀ t ∈ trees, t.WellKinded) →
      ∀ t ∈ trees.map Tree.withoutStructs, t.WellKinded := fun h =>
    List.forall_mem_map.2 fun t ht => Tree.wellKinded_withoutStructs (h t ht)
  obtain ⟨b, hb⟩ := exists_analyze_of_wellKinded bs (hleft h)
  obtain ⟨b', hb'⟩ := exists_analyze_of_wellKinded bs (hleft h')
  have hrenumbered : List.Forall₂ (fun t t' => ∃ σ, Renumbering t t' σ)
      (trees.map Tree.withoutStructs) (trees'.map Tree.withoutStructs) := by
    rw [List.forall₂_map_left_iff, List.forall₂_map_right_iff]
    exact (map_eq_map_iff_forall₂.1 houtlines).imp fun _ _ => outline_eq_iff_exists_renumbering.1
  rcases analyze_of_outlines bs hrenumbered with
    ⟨d, -, hd, -⟩ | ⟨c, c', hc, hc', hreport⟩
  · cases hb.symm.trans hd
  · cases hb.symm.trans hc
    cases hb'.symm.trans hc'
    rw [← report_withoutStructs bs h' ha' hb', hreport, report_withoutStructs bs h ha hb]

/-- **Structs are inert.** Well-kinded trees are checked with built-in rules, under a configuration
that is accepted for them. With all structs deleted the errors and the warnings are the same; what
is left is well kinded, and there is no struct in it. With any other structs they are the same as
well: for all well-kinded trees of which the same is left without structs. -/
theorem withConfig_structs_inert {bs : List Builtin} {config : Config} {analyzer : Analyzer}
    (hconfig : Analyzer.withConfig (bs.map (·.rule)) config = .ok analyzer)
    (hkinded : ∀ t ∈ trees, t.WellKinded) :
    ∃ c, withConfig trees (bs.map (·.rule)) config = .ok (.ok c) ∧
      (∃ c', withConfig (trees.map Tree.withoutStructs) (bs.map (·.rule)) config = .ok (.ok c') ∧
        c'.report.errors = c.report.errors ∧ c'.report.warnings = c.report.warnings) ∧
      (∀ t ∈ trees, t.withoutStructs.WellKinded ∧
        ∀ id, t.withoutStructs.sort? id ≠ some .structDecl) ∧
      ∀ trees' : List Tree, (∀ t ∈ trees', t.WellKinded) →
        trees.map (fun t => t.withoutStructs.outline t.withoutStructs.root) =
          trees'.map (fun t => t.withoutStructs.outline t.withoutStructs.root) →
        ∃ c', withConfig trees' (bs.map (·.rule)) config = .ok (.ok c') ∧
          c'.report.errors = c.report.errors ∧ c'.report.warnings = c.report.warnings := by
  obtain ⟨-, rfl⟩ := Analyzer.withConfig_eq_ok_iff.1 hconfig
  have hcheck : ∀ {trees : List Tree} {a : Analysis},
      (Analyzer.ofBuiltin (config.kept bs)).analyze (ofTrees trees) = .ok a →
      withConfig trees (bs.map (·.rule)) config = .ok (.ok { a.compilation with
        report := if config.warningsAsErrors then a.report.promoteWarnings else a.report }) := by
    intro trees a ha
    simp only [withConfig, hconfig, analyzed, ha]
  have hleft : ∀ t ∈ trees, t.withoutStructs.WellKinded := fun t ht =>
    Tree.wellKinded_withoutStructs (hkinded t ht)
  obtain ⟨a, ha⟩ := exists_analyze_of_wellKinded (config.kept bs) hkinded
  obtain ⟨b, hb⟩ := exists_analyze_of_wellKinded (config.kept bs) (List.forall_mem_map.2 hleft)
  refine ⟨_, hcheck ha, ⟨_, hcheck hb, ?_⟩, fun t ht => ⟨hleft t ht, fun id =>
    Tree.sort?_withoutStructs (hkinded t ht) id⟩, fun trees' hkinded' houtlines => ?_⟩
  · rw [report_withoutStructs _ hkinded ha hb]
    exact ⟨rfl, rfl⟩
  · obtain ⟨a', ha'⟩ := exists_analyze_of_wellKinded (config.kept bs) hkinded'
    refine ⟨_, hcheck ha', ?_⟩
    rw [report_of_withoutStructs _ hkinded hkinded' houtlines ha ha']
    exact ⟨rfl, rfl⟩

end Compilation

/-! ### Two structs for one program -/

/-- The nodes of a program that calls a function that only its struct has. The struct has another
method of the name of the function that calls. -/
def methodNodes : List Node :=
  [⟨.expression (.call "helper" []), ⟨2, 5⟩⟩,
   ⟨.statement (.evaluation 0), ⟨2, 5⟩⟩,
   ⟨.functionDecl ⟨"main", .void, {}, [], some [1]⟩, ⟨1, 1⟩⟩,
   ⟨.functionDecl ⟨"helper", .void, { exported := true }, [], some []⟩, ⟨5, 5⟩⟩,
   ⟨.functionDecl ⟨"main", .void, {}, [], none⟩, ⟨6, 5⟩⟩,
   ⟨.structDecl ⟨"S", {}, [], [3, 4]⟩, ⟨4, 1⟩⟩,
   ⟨.moduleDecl ⟨"Main", [2], [5]⟩, ⟨1, 1⟩⟩,
   ⟨.program ⟨[], [6]⟩, ⟨1, 1⟩⟩]

/-- The nodes of this program with another struct. Its field is initialized with a value of another
type. -/
def fieldNodes : List Node :=
  [⟨.expression (.text "none"), ⟨5, 16⟩⟩,
   ⟨.fieldDecl ⟨"count", .i32, some 0⟩, ⟨5, 5⟩⟩,
   ⟨.structDecl ⟨"T", {}, [1], []⟩, ⟨4, 1⟩⟩,
   ⟨.expression (.call "helper" []), ⟨2, 5⟩⟩,
   ⟨.statement (.evaluation 3), ⟨2, 5⟩⟩,
   ⟨.functionDecl ⟨"main", .void, {}, [], some [4]⟩, ⟨1, 1⟩⟩,
   ⟨.moduleDecl ⟨"Main", [5], [2]⟩, ⟨1, 1⟩⟩,
   ⟨.program ⟨[], [6]⟩, ⟨1, 1⟩⟩]

theorem isSome_methodTree : (Tree.ofNodes "method.tw" methodNodes 7).toOption.isSome = true := by
  decide +kernel

/-- The program with the first struct. -/
def methodTree : Tree := (Tree.ofNodes "method.tw" methodNodes 7).toOption.get isSome_methodTree

theorem isSome_fieldTree : (Tree.ofNodes "field.tw" fieldNodes 7).toOption.isSome = true := by
  decide +kernel

/-- The program with the second struct. -/
def fieldTree : Tree := (Tree.ofNodes "field.tw" fieldNodes 7).toOption.get isSome_fieldTree

example : methodTree.withoutStructs.preorder methodTree.withoutStructs.root = [4, 3, 2, 1, 0] := by
  decide +kernel

/-- With either struct and without them the call is reported, and nothing else. -/
theorem Compilation.withConfig_structs_inert_methodTree :
    ∃ c c' c'', withConfig [methodTree] (Builtin.all.map (·.rule)) {} = .ok (.ok c) ∧
      withConfig [fieldTree] (Builtin.all.map (·.rule)) {} = .ok (.ok c') ∧
      withConfig [methodTree.withoutStructs] (Builtin.all.map (·.rule)) {} = .ok (.ok c'') ∧
      c.report.errors = [⟨.error, ⟨2, 5⟩, "Tried to call unknown function 'helper'."⟩] ∧
      c'.report.errors = c.report.errors ∧ c''.report.errors = c.report.errors := by
  have hconfig : Analyzer.withConfig (Builtin.all.map (·.rule)) {} =
      .ok (Analyzer.ofBuiltin Builtin.all) := by
    rfl
  have hmethod : ∀ t ∈ [methodTree], t.WellKinded := by
    refine List.forall_mem_singleton.2 ?_
    decide +kernel
  have hfield : ∀ t ∈ [fieldTree], t.WellKinded := by
    refine List.forall_mem_singleton.2 ?_
    decide +kernel
  have houtlines : [methodTree].map (fun t => t.withoutStructs.outline t.withoutStructs.root) =
      [fieldTree].map fun t => t.withoutStructs.outline t.withoutStructs.root := by
    decide +kernel
  have herrors : (withConfig [methodTree] (Builtin.all.map (·.rule)) {}).toOption.bind
      (·.toOption.map (·.report.errors)) =
      some [⟨.error, ⟨2, 5⟩, "Tried to call unknown function 'helper'."⟩] := by
    decide +kernel
  obtain ⟨c, hc, ⟨c'', hc'', hdeleted, -⟩, -, hothers⟩ := withConfig_structs_inert hconfig hmethod
  obtain ⟨c', hc', hreplaced, -⟩ := hothers [fieldTree] hfield houtlines
  rw [hc] at herrors
  exact ⟨c, c', c'', hc, hc', hc'', Option.some.inj herrors, hreplaced, hdeleted⟩

end ProgramCheck
