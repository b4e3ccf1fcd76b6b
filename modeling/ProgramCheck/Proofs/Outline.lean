import Mathlib.Data.List.Forall2
import Mathlib.Data.List.Zip
import ProgramCheck.Proofs.StackListing

/-!
# Outlines

The numbers of the nodes say in which order a tree was built, and nothing about the program. The
outline of a tree is the program without them: what each node is and where it stands in the source,
with the outlines of its parts in order. Two trees have the same outline if and only if one of them
is the other under other numbers.
-/

namespace ProgramCheck

/-! ### Other numbers -/

section Renumber

variable (σ : NodeId → NodeId)

/-- A program under other numbers. -/
def Program.renumber (p : Program) : Program := ⟨p.imports.map σ, p.modules.map σ⟩

/-- A module under other numbers. -/
def Module.renumber (m : Module) : Module :=
  { m with functions := m.functions.map σ, structs := m.structs.map σ }

/-- A struct under other numbers. -/
def Struct.renumber (s : Struct) : Struct :=
  { s with fields := s.fields.map σ, functions := s.functions.map σ }

/-- A field under other numbers. -/
def Field.renumber (f : Field) : Field := { f with initializer := f.initializer.map σ }

/-- A function under other numbers. -/
def Function.renumber (f : Function) : Function :=
  { f with parameters := f.parameters.map σ, body := f.body.map (·.map σ) }

/-- A statement under other numbers. -/
def Statement.renumber : Statement → Statement
  | .declaration name type initializer => .declaration name type (σ initializer)
  | .assignment name value => .assignment name (σ value)
  | .result value => .result (value.map σ)
  | .branch condition thenBlock elseBlock =>
    .branch (σ condition) (thenBlock.map σ) (elseBlock.map (·.map σ))
  | .evaluation operand => .evaluation (σ operand)

/-- An expression under other numbers. -/
def Expression.renumber : Expression → Expression
  | .binary op left right => .binary op (σ left) (σ right)
  | .call name arguments => .call name (arguments.map σ)
  | e => e

/-- What a node is, under other numbers. -/
def NodeKind.renumber : NodeKind → NodeKind
  | .program p => .program (p.renumber σ)
  | .importDecl i => .importDecl i
  | .moduleDecl m => .moduleDecl (m.renumber σ)
  | .structDecl s => .structDecl (s.renumber σ)
  | .fieldDecl f => .fieldDecl (f.renumber σ)
  | .functionDecl f => .functionDecl (f.renumber σ)
  | .parameterDecl p => .parameterDecl p
  | .statement s => .statement (s.renumber σ)
  | .expression e => .expression (e.renumber σ)

/-- A node under other numbers. -/
def Node.renumber (n : Node) : Node := ⟨n.kind.renumber σ, n.position⟩

@[simp] theorem Statement.operands_renumber (s : Statement) :
    (s.renumber σ).operands = s.operands.map σ := by
  cases s with
  | result value => cases value <;> rfl
  | _ => rfl

@[simp] theorem Statement.nested_renumber (s : Statement) :
    (s.renumber σ).nested = s.nested.map σ := by
  cases s with
  | branch condition thenBlock elseBlock => cases elseBlock <;> simp [renumber, nested]
  | _ => rfl

@[simp] theorem Expression.children_renumber (e : Expression) :
    (e.renumber σ).children = e.children.map σ := by
  cases e <;> rfl

@[simp] theorem Function.body_renumber (f : Function) :
    (f.renumber σ).body.getD [] = (f.body.getD []).map σ := by
  cases h : f.body <;> simp [renumber, h]

@[simp] theorem NodeKind.sort_renumber (k : NodeKind) : (k.renumber σ).sort = k.sort := by
  cases k <;> rfl

@[simp] theorem NodeKind.children_renumber (k : NodeKind) :
    (k.renumber σ).children = k.children.map σ := by
  cases k with
  | program p => exact List.map_append.symm
  | moduleDecl m => exact List.map_append.symm
  | structDecl s => exact List.map_append.symm
  | fieldDecl f => cases h : f.initializer <;> simp [renumber, Field.renumber, children, h]
  | functionDecl f =>
    simp only [renumber, children, Function.body_renumber, List.map_append]
    rfl
  | statement s => simp [renumber, children, Statement.children]
  | expression e => exact e.children_renumber σ
  | importDecl | parameterDecl => rfl

end Renumber

theorem Node.renumber_id (n : Node) : n.renumber id = n := by
  obtain ⟨k, position⟩ := n
  refine congrArg (Node.mk · position) ?_
  cases k with
  | program p => simp [NodeKind.renumber, Program.renumber]
  | moduleDecl m => simp [NodeKind.renumber, Module.renumber]
  | structDecl s => simp [NodeKind.renumber, Struct.renumber]
  | fieldDecl f => simp [NodeKind.renumber, Field.renumber]
  | functionDecl f => simp [NodeKind.renumber, Function.renumber]
  | statement s => cases s <;> simp [NodeKind.renumber, Statement.renumber]
  | expression e => cases e <;> simp [NodeKind.renumber, Expression.renumber]
  | importDecl | parameterDecl => rfl

/-- Other numbers may be given in several steps. -/
theorem NodeKind.renumber_renumber (σ τ : NodeId → NodeId) (k : NodeKind) :
    (k.renumber σ).renumber τ = k.renumber (τ ∘ σ) := by
  cases k with
  | program p => simp [renumber, Program.renumber]
  | moduleDecl m => simp [renumber, Module.renumber]
  | structDecl s => simp [renumber, Struct.renumber]
  | fieldDecl f => simp [renumber, Field.renumber]
  | functionDecl f => simp [renumber, Function.renumber, Function.comp_def]
  | statement s => cases s <;> simp [renumber, Statement.renumber, Function.comp_def]
  | expression e => cases e <;> simp [renumber, Expression.renumber]
  | importDecl | parameterDecl => rfl

/-- A node without the numbers of its parts. -/
def Node.label (n : Node) : Node := n.renumber fun _ => 0

@[simp] theorem Node.label_renumber (σ : NodeId → NodeId) (n : Node) :
    (n.renumber σ).label = n.label :=
  congrArg (Node.mk · n.position) (n.kind.renumber_renumber σ fun _ => 0)

section Label

variable {σ : NodeId → NodeId}

theorem length_of_map_const {xs xs' : List NodeId}
    (h : xs'.map (fun _ => 0) = xs.map fun _ => 0) : xs'.length = xs.length := by
  simpa using congrArg List.length h

/-- Two lists under other numbers are read off their concatenation, if one knows where to cut. -/
theorem map_of_append {xs xs' ys ys' : List NodeId}
    (hlabel : xs'.map (fun _ => 0) = xs.map fun _ => 0)
    (h : xs' ++ ys' = (xs ++ ys).map σ) : xs' = xs.map σ ∧ ys' = ys.map σ := by
  rw [List.map_append] at h
  exact List.append_inj h (by rw [length_of_map_const hlabel, List.length_map])

theorem map_of_getD {xs xs' : Option (List NodeId)}
    (hlabel : xs'.map (·.map fun _ => 0) = xs.map (·.map fun _ => 0))
    (h : xs'.getD [] = (xs.getD []).map σ) : xs' = xs.map (·.map σ) := by
  cases xs <;> cases xs' <;> simp_all

theorem map_of_toList {x x' : Option NodeId} (h : x'.toList = x.toList.map σ) : x' = x.map σ := by
  cases x <;> cases x' <;> simp_all

/-- What a statement is under other numbers is known from what it is without numbers and from the
list of its parts. -/
theorem Statement.eq_renumber {s s' : Statement}
    (hlabel : s'.renumber (fun _ => 0) = s.renumber fun _ => 0)
    (hchildren : s'.children = s.children.map σ) : s' = s.renumber σ := by
  cases s with
  | branch condition thenBlock elseBlock =>
    cases s' with
    | branch condition' thenBlock' elseBlock' =>
      simp only [renumber, branch.injEq, true_and] at hlabel
      simp only [children, operands, nested, List.singleton_append, List.map_cons,
        List.cons.injEq] at hchildren
      obtain ⟨hthen, helse⟩ := map_of_append hlabel.1 hchildren.2
      rw [hchildren.1, hthen, map_of_getD hlabel.2 helse, renumber]
    | _ => cases hlabel
  | result value =>
    cases s' with
    | result value' =>
      simp only [children, operands, nested, List.append_nil] at hchildren
      rw [map_of_toList hchildren, renumber]
    | _ => cases hlabel
  | _ => cases s' <;> simp_all [renumber, children, operands, nested]

theorem Expression.eq_renumber {e e' : Expression}
    (hlabel : e'.renumber (fun _ => 0) = e.renumber fun _ => 0)
    (hchildren : e'.children = e.children.map σ) : e' = e.renumber σ := by
  cases e <;> cases e' <;> simp_all [renumber, children]

theorem Function.eq_renumber {f f' : Function}
    (hlabel : f'.renumber (fun _ => 0) = f.renumber fun _ => 0)
    (hchildren : f'.parameters ++ f'.body.getD [] = (f.parameters ++ f.body.getD []).map σ) :
    f' = f.renumber σ := by
  obtain ⟨name, returnType, modifiers, parameters, body⟩ := f
  obtain ⟨name', returnType', modifiers', parameters', body'⟩ := f'
  simp only [renumber, Function.mk.injEq] at hlabel ⊢
  obtain ⟨hname, htype, hmodifiers, hparameters, hbody⟩ := hlabel
  obtain ⟨hparameters', hbody'⟩ := map_of_append hparameters hchildren
  exact ⟨hname, htype, hmodifiers, hparameters', map_of_getD hbody hbody'⟩

/-- What a node is under other numbers is known from what it is without numbers and from the list of
its parts. -/
theorem NodeKind.eq_renumber {k k' : NodeKind}
    (hlabel : k'.renumber (fun _ => 0) = k.renumber fun _ => 0)
    (hchildren : k'.children = k.children.map σ) : k' = k.renumber σ := by
  cases k with
  | program p =>
    cases k' with
    | program p' =>
      simp only [renumber, Program.renumber, program.injEq, Program.mk.injEq] at hlabel ⊢
      obtain ⟨himports, hmodules⟩ := map_of_append hlabel.1 hchildren
      rw [← himports, ← hmodules]
    | _ => cases hlabel
  | moduleDecl m =>
    cases k' with
    | moduleDecl m' =>
      simp only [renumber, Module.renumber, moduleDecl.injEq, Module.mk.injEq] at hlabel ⊢
      obtain ⟨hfunctions, hstructs⟩ := map_of_append hlabel.2.1 hchildren
      rw [← hfunctions, ← hstructs, ← hlabel.1]
    | _ => cases hlabel
  | structDecl s =>
    cases k' with
    | structDecl s' =>
      simp only [renumber, Struct.renumber, structDecl.injEq, Struct.mk.injEq] at hlabel ⊢
      obtain ⟨hfields, hfunctions⟩ := map_of_append hlabel.2.2.1 hchildren
      rw [← hfields, ← hfunctions, ← hlabel.1, ← hlabel.2.1]
    | _ => cases hlabel
  | fieldDecl f =>
    cases k' with
    | fieldDecl f' =>
      simp only [renumber, Field.renumber, fieldDecl.injEq, Field.mk.injEq] at hlabel ⊢
      rw [← map_of_toList hchildren, ← hlabel.1, ← hlabel.2.1]
    | _ => cases hlabel
  | functionDecl f =>
    cases k' with
    | functionDecl f' =>
      rw [Function.eq_renumber (functionDecl.inj hlabel) hchildren]
      rfl
    | _ => cases hlabel
  | statement s =>
    cases k' with
    | statement s' =>
      rw [Statement.eq_renumber (statement.inj hlabel) hchildren]
      rfl
    | _ => cases hlabel
  | expression e =>
    cases k' with
    | expression e' =>
      rw [Expression.eq_renumber (expression.inj hlabel) hchildren]
      rfl
    | _ => cases hlabel
  | importDecl | parameterDecl => cases k' <;> simp_all [renumber]

theorem Node.eq_renumber {n n' : Node} (hlabel : n'.label = n.label)
    (hchildren : n'.kind.children = n.kind.children.map σ) : n' = n.renumber σ := by
  obtain ⟨kind, position⟩ := n
  obtain ⟨kind', position'⟩ := n'
  obtain ⟨hkind, rfl⟩ := Node.mk.inj hlabel
  exact congrArg (Node.mk · position') (NodeKind.eq_renumber hkind hchildren)

end Label

/-! ### Outlines -/

/-- A tree of nodes without their numbers. -/
inductive Outline
  | node (label : Option Node) (parts : List Outline)

namespace Outline

mutual

/-- Whether two outlines are the same. -/
def decEq : (a b : Outline) → Decidable (a = b)
  | .node label parts, .node label' parts' =>
    match inferInstanceAs (Decidable (label = label')), decEqParts parts parts' with
    | isTrue hlabel, isTrue hparts => isTrue (by rw [hlabel, hparts])
    | isFalse hlabel, _ => isFalse fun h => hlabel (Outline.node.inj h).1
    | _, isFalse hparts => isFalse fun h => hparts (Outline.node.inj h).2

/-- Whether two lists of outlines are the same. -/
def decEqParts : (as bs : List Outline) → Decidable (as = bs)
  | [], [] => isTrue rfl
  | [], _ :: _ => isFalse nofun
  | _ :: _, [] => isFalse nofun
  | a :: as, b :: bs =>
    match decEq a b, decEqParts as bs with
    | isTrue hhead, isTrue htail => isTrue (by rw [hhead, htail])
    | isFalse hhead, _ => isFalse fun h => hhead (List.cons.inj h).1
    | _, isFalse htail => isFalse fun h => htail (List.cons.inj h).2

end

instance : DecidableEq Outline := decEq

end Outline

theorem map_eq_map_iff_forall₂ {α β γ : Type} {g : α → γ} {g' : β → γ} {as : List α} {bs : List β} :
    as.map g = bs.map g' ↔ List.Forall₂ (fun a b => g a = g' b) as bs := by
  rw [← List.forall₂_eq_eq_eq, List.forall₂_map_left_iff, List.forall₂_map_right_iff]

namespace Forest

/-- A node without the numbers of its parts, and the same of its parts and so on. -/
def outline (f : Forest) (id : NodeId) : Outline :=
  .node (f.nodes[id]?.map Node.label) ((f.children id).attach.map fun child => f.outline child.1)
termination_by id
decreasing_by exact lt_of_mem_children child.2

theorem outline_eq (f : Forest) (id : NodeId) :
    f.outline id = .node (f.nodes[id]?.map Node.label) ((f.children id).map f.outline) := by
  rw [outline]
  conv_rhs => rw [← List.attach_map_subtype_val (f.children id), List.map_map]
  rfl

variable {f f' : Forest} {a b : NodeId}

/-- Nodes of one outline are alike, and so are their parts. -/
theorem outline_eq_outline_iff :
    f.outline a = f'.outline b ↔
      f.nodes[a]?.map Node.label = f'.nodes[b]?.map Node.label ∧
        List.Forall₂ (fun c d => f.outline c = f'.outline d) (f.children a) (f'.children b) := by
  rw [outline_eq f a, outline_eq f' b, Outline.node.injEq, map_eq_map_iff_forall₂]

/-- Parts of alike nodes that correspond have smaller numbers than these. -/
theorem outline_children (h : f.outline a = f'.outline b) :
    List.Forall₂ (fun c d => c < a ∧ f.outline c = f'.outline d) (f.children a) (f'.children b) :=
  (List.forall₂_and_left _ _).2 ⟨fun _ hc => lt_of_mem_children hc, (outline_eq_outline_iff.1 h).2⟩

/-- Alike nodes have equally many nodes below them. -/
theorem length_preorder_of_outline (h : f.outline a = f'.outline b) :
    (f.preorder a).length = (f'.preorder b).length := by
  induction a using Nat.strongRecOn generalizing b with
  | ind a ih =>
    have hlengths : (f.children a).map (fun c => (f.preorder c).length) =
        (f'.children b).map fun d => (f'.preorder d).length :=
      map_eq_map_iff_forall₂.2 ((outline_children h).imp fun c d hcd => ih c hcd.1 hcd.2)
    rw [preorder_eq f a, preorder_eq f' b, List.length_cons, List.length_cons, List.length_flatMap,
      List.length_flatMap, hlengths]

theorem zip_flatMap {α β : Type} {as bs : List NodeId} {g : NodeId → List α} {g' : NodeId → List β}
    (h : List.Forall₂ (fun a b => (g a).length = (g' b).length) as bs) :
    (as.flatMap g).zip (bs.flatMap g') =
      (as.zip bs).flatMap fun x => (g x.1).zip (g' x.2) := by
  induction h with
  | nil => rfl
  | cons hlength _ ih =>
    rw [List.flatMap_cons, List.flatMap_cons, List.zip_append hlength, ih, List.zip_cons_cons,
      List.flatMap_cons]

/-- The nodes below alike nodes are alike one by one, and their parts correspond. -/
theorem outline_of_mem_zip (h : f.outline a = f'.outline b) {x y : NodeId}
    (hxy : (x, y) ∈ (f.preorder a).zip (f'.preorder b)) :
    f.outline x = f'.outline y ∧
      List.Forall₂ (fun c d => (c, d) ∈ (f.preorder a).zip (f'.preorder b))
        (f.children x) (f'.children y) := by
  induction a using Nat.strongRecOn generalizing b with
  | ind a ih =>
    obtain ⟨hlength, hparts⟩ := List.forall₂_iff_zip.1 (outline_children h)
    have hzip : (f.preorder a).zip (f'.preorder b) =
        (a, b) :: ((f.children a).zip (f'.children b)).flatMap fun x =>
          (f.preorder x.1).zip (f'.preorder x.2) := by
      rw [preorder_eq f a, preorder_eq f' b, List.zip_cons_cons, zip_flatMap]
      exact (outline_children h).imp fun c d hcd => length_preorder_of_outline hcd.2
    rw [hzip] at hxy ⊢
    rcases List.mem_cons.1 hxy with heq | hxy
    · cases heq
      refine ⟨h, List.forall₂_iff_zip.2 ⟨hlength, fun {c d} hcd => ?_⟩⟩
      refine List.mem_cons_of_mem _ (List.mem_flatMap.2 ⟨(c, d), hcd, ?_⟩)
      rw [preorder_eq f c, preorder_eq f' d]
      exact List.mem_cons_self
    · obtain ⟨⟨c, d⟩, hcd, hxy⟩ := List.mem_flatMap.1 hxy
      obtain ⟨hlt, houtline⟩ := hparts hcd
      obtain ⟨hx, hchildren⟩ := ih c hlt houtline hxy
      exact ⟨hx, hchildren.imp fun _ _ hmem =>
        List.mem_cons_of_mem _ (List.mem_flatMap.2 ⟨(c, d), hcd, hmem⟩)⟩

end Forest

/-! ### Renumberings -/

/-- Whether a tree is another one under other numbers. -/
structure Renumbering (t t' : Tree) (σ : NodeId → NodeId) : Prop where
  bijective : Function.Bijective σ
  nodes : ∀ id : NodeId, t'.nodes[σ id]? = t.nodes[id]?.map (Node.renumber σ)
  root : t'.root = σ t.root

namespace Tree

/-- The node that stands in the preorder of another tree where a node stands in the preorder of its
own. What is no node is left as it is. -/
def counterpart (t t' : Tree) (id : NodeId) : NodeId :=
  (t'.preorder t'.root).getD ((t.preorder t.root).idxOf id) id

variable {t t' : Tree} {x y id : NodeId}

theorem counterpart_of_mem_zip (h : (x, y) ∈ (t.preorder t.root).zip (t'.preorder t'.root)) :
    t.counterpart t' x = y := by
  obtain ⟨k, hk⟩ := List.mem_iff_getElem?.1 h
  obtain ⟨hx, hy⟩ := List.getElem?_zip_eq_some.1 hk
  obtain ⟨hlt, rfl⟩ := List.getElem?_eq_some_iff.1 hx
  have hidx : (t.preorder t.root).idxOf ((t.preorder t.root)[k]) = k :=
    List.get_idxOf (t.nodup_preorder t.root) ⟨k, hlt⟩
  rw [counterpart, hidx, List.getD_eq_getElem?_getD, hy, Option.getD_some]

theorem counterpart_of_le (h : t.size ≤ id) (hsize : t.size = t'.size) :
    t.counterpart t' id = id := by
  have hnot : id ∉ t.preorder t.root := fun hmem =>
    Nat.not_lt.2 h (mem_preorder_root_iff.1 hmem)
  have hlength : ∀ t : Tree, (t.preorder t.root).length = t.size := fun t => by
    simpa using t.preorder_root_perm.length_eq
  rw [counterpart, List.idxOf_of_notMem hnot, List.getD_eq_getElem?_getD,
    List.getElem?_eq_none (by rw [hlength, hlength, hsize]), Option.getD_none]

section Alike

variable (h : t.outline t.root = t'.outline t'.root)
include h

theorem size_eq_of_outline : t.size = t'.size := by
  have hlength := Forest.length_preorder_of_outline h
  rwa [t.preorder_root_perm.length_eq, t'.preorder_root_perm.length_eq, List.length_range,
    List.length_range] at hlength

theorem mem_zip_counterpart (hid : id < t.size) :
    (id, t.counterpart t' id) ∈ (t.preorder t.root).zip (t'.preorder t'.root) := by
  obtain ⟨k, hk⟩ := List.mem_iff_getElem?.1 (mem_preorder_root_iff.2 hid)
  obtain ⟨hlt, -⟩ := List.getElem?_eq_some_iff.1 hk
  rw [Forest.length_preorder_of_outline h] at hlt
  have hmem : (id, (t'.preorder t'.root)[k]) ∈ (t.preorder t.root).zip (t'.preorder t'.root) :=
    List.mem_of_getElem? (List.getElem?_zip_eq_some.2 ⟨hk, List.getElem?_eq_getElem hlt⟩)
  rwa [counterpart_of_mem_zip hmem]

theorem counterpart_counterpart (id : NodeId) : t'.counterpart t (t.counterpart t' id) = id := by
  have hsize := size_eq_of_outline h
  rcases Nat.lt_or_ge id t.size with hid | hid
  · refine counterpart_of_mem_zip ?_
    have hmem := mem_zip_counterpart h hid
    rw [← List.zip_swap]
    exact List.mem_map_of_mem hmem
  · rw [counterpart_of_le hid hsize, counterpart_of_le (hsize ▸ hid) hsize.symm]

/-- The parts of the counterpart of a node are the counterparts of its parts. -/
theorem children_counterpart (hid : id < t.size) :
    t'.children (t.counterpart t' id) = (t.children id).map (t.counterpart t') := by
  have hparts := (Forest.outline_of_mem_zip h (mem_zip_counterpart h hid)).2
  rw [eq_comm, ← List.forall₂_eq_eq_eq, List.forall₂_map_left_iff]
  exact hparts.imp fun _ _ hmem => counterpart_of_mem_zip hmem

theorem nodes_counterpart (id : NodeId) :
    t'.nodes[t.counterpart t' id]? = t.nodes[id]?.map (Node.renumber (t.counterpart t')) := by
  have hsize := size_eq_of_outline h
  rcases Nat.lt_or_ge id t.size with hid | hid
  · have houtline := (Forest.outline_of_mem_zip h (mem_zip_counterpart h hid)).1
    have hlabels := (Forest.outline_eq_outline_iff.1 houtline).1
    have hchildren := children_counterpart h hid
    have hnode : t.nodes[id]? = some t.nodes[id] := Array.getElem?_eq_getElem hid
    rw [hnode, Option.map_some, eq_comm, Option.map_eq_some_iff] at hlabels
    obtain ⟨node', hnode', hlabel⟩ := hlabels
    have hparts : node'.kind.children = t.nodes[id].kind.children.map (t.counterpart t') := by
      simpa only [Forest.children, childrenIn, hnode, hnode'] using hchildren
    rw [hnode, hnode', Node.eq_renumber hlabel hparts, Option.map_some]
  · have hid' : t'.nodes.size ≤ id := Nat.le_trans (Nat.le_of_eq hsize.symm) hid
    rw [counterpart_of_le hid hsize, Array.getElem?_eq_none hid', Array.getElem?_eq_none hid,
      Option.map_none]

/-- Trees of one outline are the same under other numbers. -/
theorem renumbering_counterpart : Renumbering t t' (t.counterpart t') where
  bijective := Function.bijective_iff_has_inverse.2
    ⟨t'.counterpart t, counterpart_counterpart h, counterpart_counterpart h.symm⟩
  nodes := nodes_counterpart h
  root := by
    refine (counterpart_of_mem_zip ?_).symm
    rw [Forest.preorder_eq, Forest.preorder_eq t'.toForest, List.zip_cons_cons]
    exact List.mem_cons_self

end Alike

end Tree

namespace Renumbering

variable {t t' : Tree} {σ : NodeId → NodeId}

/-- The parts of a node under other numbers. -/
theorem children (r : Renumbering t t' σ) (id : NodeId) :
    t'.children (σ id) = (t.children id).map σ := by
  simp only [Forest.children, childrenIn, r.nodes]
  cases t.nodes[id]? with
  | none => rfl
  | some node => exact node.kind.children_renumber σ

/-- The outline does not show the numbers. -/
theorem outline (r : Renumbering t t' σ) (id : NodeId) : t'.outline (σ id) = t.outline id := by
  induction id using Nat.strongRecOn with
  | ind id ih =>
    rw [Forest.outline_eq, t.outline_eq, r.nodes, r.children, List.map_map, Option.map_map]
    refine congr (congrArg Outline.node (congrArg (Option.map · _) (funext fun n => ?_))) ?_
    · exact n.label_renumber σ
    · exact List.map_congr_left fun child hchild => ih child (Forest.lt_of_mem_children hchild)

end Renumbering

/-- **Trees have the same outline if they are the same under other numbers**, and only then. -/
theorem outline_eq_iff_exists_renumbering {t t' : Tree} :
    t.outline t.root = t'.outline t'.root ↔ ∃ σ, Renumbering t t' σ := by
  constructor
  · exact fun h => ⟨_, Tree.renumbering_counterpart h⟩
  · rintro ⟨σ, r⟩
    rw [r.root, r.outline]

end ProgramCheck
