import Mathlib.Data.List.Flatten
import ProgramCheck.Proofs.Replies
import ProgramCheck.Proofs.WalkShape

/-!
# Lexical scope

The types of values, checked from the top down. `Tree.typeFaults` goes over a block once and carries
the declarations in force with it, in a stack of scopes: a block of a branch opens a scope that ends
with the block, a declaration is in force behind itself, and of the declarations of a name the
latest of the innermost scope counts. The rule on the types of values searches upwards from each
assignment instead, and both find the same faults in the same order.
-/

namespace ProgramCheck

/-! ### Scopes -/

/-- The declarations in force, by scopes: the innermost scope in front, and in each scope the latest
declaration. -/
abbrev Scopes := List (List (String × TypeRef))

namespace Scopes

/-- The scopes in a block that opens. -/
def enter (scopes : Scopes) : Scopes := [] :: scopes

/-- The scopes behind a declaration. -/
def declare (scopes : Scopes) (name : String) (type : TypeRef) : Scopes :=
  match scopes with
  | [] => [[(name, type)]]
  | scope :: outer => ((name, type) :: scope) :: outer

/-- The scopes at the start of a function with the given parameters. -/
def ofParameters (parameters : List Parameter) : Scopes :=
  [(parameters.map fun p => (p.name, p.type)).reverse]

/-- The type of a name. -/
def type? (scopes : Scopes) (name : String) : Option TypeRef :=
  scopes.findSome? fun scope => scope.lookup name

theorem type?_declare (scopes : Scopes) (declared name : String) (type : TypeRef) :
    (scopes.declare declared type).type? name =
      if declared = name then some type else scopes.type? name := by
  by_cases h : declared = name
  · subst h
    cases scopes <;> simp [declare, type?]
  · have hne : (name == declared) = false := by simpa using Ne.symm h
    cases scopes <;> simp [declare, type?, List.findSome?_cons, List.lookup_cons, hne, h]

end Scopes

/-! ### The check from the top down -/

/-- The type of a literal. -/
def Expression.literalType? : Expression → Option TypeRef
  | .text _ => some .charPointer
  | .character _ => some .char
  | .integer _ => some .i32
  | .boolean _ => some .bool
  | .identifier _ => none
  | .binary .. => none
  | .call .. => none

/-- What is wrong with a declaration or an assignment. -/
inductive TypeFault
  /-- A variable is declared with a literal of another type. -/
  | initializer (actual declared : TypeRef)
  /-- A name is assigned to that is not in force. -/
  | undeclared (name : String)
  /-- A literal is assigned to a variable of another type. -/
  | value (name : String) (actual declared : TypeRef)
  deriving DecidableEq

/-- The wording of a fault. -/
def TypeFault.message : TypeFault → String
  | .initializer actual declared =>
    "Type mismatch: Expression type '" ++ actual.display ++
      "' does not match declared type '" ++ declared.display ++ "'."
  | .undeclared name => "Undeclared variable '" ++ name ++ "' cannot be assigned."
  | .value name actual declared =>
    "Type mismatch: Cannot assign expression of type '" ++ actual.display ++
      "' to variable '" ++ name ++ "' of type '" ++ declared.display ++ "'."

/-- The visit that a step makes of a statement, if it makes one. -/
def Step.statementVisit? : Step → Option Visit
  | .visit ⟨id, .statement s⟩ => some ⟨id, .statement s⟩
  | _ => none

theorem Step.statementVisit?_eq_some_iff {step : Step} {v : Visit} :
    step.statementVisit? = some v ↔ step = .visit v ∧ ∃ s, v.subject = .statement s := by
  constructor
  · intro h
    unfold statementVisit? at h
    split at h
    · cases h
      exact ⟨rfl, _, rfl⟩
    · cases h
  · rintro ⟨rfl, s, hs⟩
    obtain ⟨id, subject⟩ := v
    obtain rfl : subject = .statement s := hs
    rfl

namespace Tree

/-- The type of a literal, if the node is one and its type is not the given one. -/
def otherLiteralType? (t : Tree) (id : NodeId) (type : TypeRef) : Option TypeRef :=
  ((t.expression? id).bind Expression.literalType?).filter (· ≠ type)

/-- The faults of an assignment where the given scopes are in force. -/
def assignmentFaults (t : Tree) (scopes : Scopes) (name : String) (value : NodeId) :
    List TypeFault :=
  match scopes.type? name with
  | none => [.undeclared name]
  | some type => ((t.otherLiteralType? value type).map fun actual => .value name actual type).toList

theorem children_of_branch {t : Tree} {id condition : NodeId} {thenBlock : List NodeId}
    {elseBlock : Option (List NodeId)}
    (h : t.statement? id = some (.branch condition thenBlock elseBlock)) :
    t.children id = condition :: (thenBlock ++ elseBlock.getD []) := by
  rw [Forest.children_eq_of_kind? (Forest.statement?_eq_some_iff.1 h)]
  rfl

theorem length_flatMap_preorder_tail (t : Tree) (id : NodeId) (rest : List NodeId) :
    (rest.flatMap t.preorder).length < ((id :: rest).flatMap t.preorder).length := by
  have hpos := t.preorder_length_pos id
  rw [List.flatMap_cons, List.length_append]
  omega

/-- A block that is part of the first of some nodes takes less room in preorder than all of them. -/
theorem length_flatMap_preorder_block {t : Tree} {id : NodeId} {block rest : List NodeId}
    (h : block.Sublist (t.children id)) :
    (block.flatMap t.preorder).length < ((id :: rest).flatMap t.preorder).length := by
  have hchildren := t.preorder_length_children id
  have hblock := (h.flatMap t.preorder).length_le
  rw [List.flatMap_cons, List.length_append]
  omega

/-- The faults in a block where the given scopes are in force, each with its statement. -/
def typeFaults (t : Tree) (scopes : Scopes) : List NodeId → List (NodeId × TypeFault)
  | [] => []
  | id :: rest =>
    match h : t.statement? id with
    | some (.declaration name type initializer) =>
      ((t.otherLiteralType? initializer type).map fun actual =>
        (id, .initializer actual type)).toList ++
        t.typeFaults (scopes.declare name type) rest
    | some (.assignment name value) =>
      (t.assignmentFaults scopes name value).map (fun fault => (id, fault)) ++
        t.typeFaults scopes rest
    | some (.branch _ thenBlock elseBlock) =>
      t.typeFaults scopes.enter thenBlock ++ t.typeFaults scopes.enter (elseBlock.getD []) ++
        t.typeFaults scopes rest
    | _ => t.typeFaults scopes rest
termination_by block => (block.flatMap t.preorder).length
decreasing_by
  · exact t.length_flatMap_preorder_tail id rest
  · exact t.length_flatMap_preorder_tail id rest
  · refine length_flatMap_preorder_block ?_
    rw [children_of_branch h]
    exact (List.sublist_append_left thenBlock _).cons _
  · refine length_flatMap_preorder_block ?_
    rw [children_of_branch h]
    exact (List.sublist_append_right thenBlock _).cons _
  · exact t.length_flatMap_preorder_tail id rest
  · exact t.length_flatMap_preorder_tail id rest

/-! ### What the search upwards sees -/

theorem preceding_append {α : Type} [DecidableEq α] {before after : List α} {a : α}
    (h : a ∉ before) : preceding (before ++ a :: after) a = before := by
  have hne : ∀ b ∈ before, decide (b ≠ a) = true := by
    intro b hb
    simpa using fun heq : b = a => h (heq ▸ hb)
  rw [preceding, if_pos (by simp), List.takeWhile_append_of_pos hne, List.takeWhile_cons_of_neg,
    List.append_nil]
  simp

theorem not_mem_before_of_nodup {α : Type} {before after : List α} {a : α}
    (h : (before ++ a :: after).Nodup) : a ∉ before :=
  fun hin => (List.nodup_append.1 h).2.2 a hin a List.mem_cons_self rfl

variable {t : Tree} {id : NodeId}

/-- In scope at a statement in the body of a function are the statements in front of it and the
parameters. -/
theorem scope_of_body {g : Function} {p : NodeId} {before after : List NodeId}
    (hg : t.function? p = some g) (hbody : g.body.getD [] = before ++ id :: after) :
    t.scope id = before.reverse ++ g.parameters.reverse := by
  have hkind := Forest.function?_eq_some_iff.1 hg
  have hmem : id ∈ t.children p := mem_children_of_body hg (by simp [hbody])
  have hnodup := t.nodup_childrenIn p
  have hid : id ∉ before := by
    rw [show childrenIn t.nodes p = g.parameters ++ g.body.getD [] from
      Forest.children_eq_of_kind? hkind, hbody] at hnodup
    exact not_mem_before_of_nodup (List.nodup_append.1 hnodup).2.1
  rw [Forest.scope, Forest.ancestors_of_mem_children hmem, Forest.scopeWithin, hkind]
  simp only [hbody, preceding_append hid]

/-- In scope at a statement in a block of a branch are the statements in front of it and what is in
scope at the branch. -/
theorem scope_of_branch {p condition : NodeId} {thenBlock : List NodeId}
    {elseBlock : Option (List NodeId)} {before after : List NodeId}
    (hs : t.statement? p = some (.branch condition thenBlock elseBlock))
    (hblock : thenBlock = before ++ id :: after ∨ elseBlock.getD [] = before ++ id :: after) :
    t.scope id = before.reverse ++ t.scope p := by
  have hkind := Forest.statement?_eq_some_iff.1 hs
  have hchildren := children_of_branch hs
  have hmem : id ∈ t.children p := by
    rw [hchildren]
    rcases hblock with h | h <;> simp [h]
  have hnodup : (thenBlock ++ elseBlock.getD []).Nodup := by
    have := t.nodup_childrenIn p
    rw [show childrenIn t.nodes p = _ from hchildren] at this
    exact (List.nodup_cons.1 this).2
  obtain ⟨hthen, helse, hdisjoint⟩ := List.nodup_append.1 hnodup
  rw [Forest.scope, Forest.ancestors_of_mem_children hmem, Forest.scopeWithin, hkind, Forest.scope]
  rcases hblock with h | h
  · have hblock : (if id ∈ thenBlock then thenBlock else elseBlock.getD []) =
        before ++ id :: after := by
      rw [if_pos (by simp [h]), h]
    simp only [hblock, preceding_append (not_mem_before_of_nodup (h ▸ hthen))]
  · -- the blocks share no node, so that membership tells them apart
    have hnot : id ∉ thenBlock := fun hin => hdisjoint id hin id (by simp [h]) rfl
    simp only [if_neg hnot, h, preceding_append (not_mem_before_of_nodup (h ▸ helse))]

/-! ### What declares a type -/

theorem valueType?_of_declaration {name declared : String} {type : TypeRef} {initializer : NodeId}
    (h : t.statement? id = some (.declaration declared type initializer)) :
    t.valueType? name id = if declared = name then some type else none := by
  rw [Forest.valueType?, Forest.symbol?, Forest.statement?_eq_some_iff.1 h]
  rfl

theorem valueType?_of_parameter {name : String} {p : Parameter} (h : t.parameter? id = some p) :
    t.valueType? name id = if p.name = name then some p.type else none := by
  rw [Forest.valueType?, Forest.symbol?, Forest.parameter?_eq_some_iff.1 h]
  rfl

/-- A statement that is no declaration declares no type. -/
theorem valueType?_of_other {name : String} {s : Statement} (h : t.statement? id = some s)
    (hs : ∀ name type initializer, s ≠ .declaration name type initializer) :
    t.valueType? name id = none := by
  rw [Forest.valueType?, Forest.symbol?, Forest.statement?_eq_some_iff.1 h]
  cases s with
  | declaration name type initializer => exact absurd rfl (hs name type initializer)
  | _ => rfl

/-- Scopes stand for a list of nodes, the nearest first, if both give every name the same type. -/
def Represents (t : Tree) (scopes : Scopes) (visible : List NodeId) : Prop :=
  ∀ name, visible.findSome? (t.valueType? name) = scopes.type? name

section Represents

variable {scopes : Scopes} {visible : List NodeId}

theorem Represents.enter (h : t.Represents scopes visible) : t.Represents scopes.enter visible := h

theorem Represents.declare {declared : String} {type : TypeRef} {initializer : NodeId}
    (h : t.Represents scopes visible)
    (hs : t.statement? id = some (.declaration declared type initializer)) :
    t.Represents (scopes.declare declared type) (id :: visible) := by
  intro name
  rw [List.findSome?_cons, valueType?_of_declaration hs, Scopes.type?_declare, ← h name]
  by_cases heq : declared = name <;> simp [heq]

theorem Represents.other {s : Statement} (h : t.Represents scopes visible)
    (hs : t.statement? id = some s)
    (hother : ∀ name type initializer, s ≠ .declaration name type initializer) :
    t.Represents scopes (id :: visible) := by
  intro name
  rw [List.findSome?_cons, valueType?_of_other hs hother]
  exact h name

/-- Looking through parameters one by one is looking them up in a list. -/
theorem findSome?_parameters {ps : List NodeId} (h : ∀ p ∈ ps, ∃ q, t.parameter? p = some q)
    (name : String) :
    ps.findSome? (t.valueType? name) =
      ((ps.filterMap t.parameter?).map fun q => (q.name, q.type)).lookup name := by
  induction ps with
  | nil => rfl
  | cons p ps ih =>
    obtain ⟨q, hq⟩ := h p List.mem_cons_self
    rw [List.findSome?_cons, valueType?_of_parameter hq, List.filterMap_cons_some hq, List.map_cons,
      List.lookup_cons, ih fun p' hp' => h p' (List.mem_cons_of_mem _ hp')]
    by_cases heq : q.name = name
    · simp [heq]
    · have hne : (name == q.name) = false := by simpa using Ne.symm heq
      simp [heq, hne]

theorem represents_parameters {ps : List NodeId} (h : ∀ p ∈ ps, ∃ q, t.parameter? p = some q) :
    t.Represents (.ofParameters (ps.filterMap t.parameter?)) ps.reverse := by
  intro name
  rw [findSome?_parameters (fun p hp => h p (List.mem_reverse.1 hp)), List.filterMap_reverse,
    List.map_reverse]
  simp [Scopes.ofParameters, Scopes.type?]

end Represents

/-! ### The two checks find the same -/

/-- What the rule on the types of values reports at a visit. -/
def valueReports (t : Tree) (v : Visit) : List Diagnostic :=
  match v.subject with
  | .statement (.declaration name _ initializer) => t.declarationErrors v.id name initializer
  | .statement (.assignment name value) => t.assignmentErrors v.id name value
  | _ => []

/-- The error about a fault at a statement. -/
def typeFaultError (t : Tree) (x : NodeId × TypeFault) : Diagnostic := t.error x.1 x.2.message

/-- Identifiers, operations and calls are no literals and never differ from the expected type. -/
theorem mismatch?_eq (t : Tree) (id : NodeId) (type : TypeRef) :
    t.mismatch? id type = t.otherLiteralType? id type := by
  unfold mismatch? otherLiteralType?
  cases t.expression? id with
  | none => rfl
  | some e => cases e <;> simp [Expression.inferredType?, Expression.literalType?]

theorem declarationErrors_eq {name : String} {type : TypeRef} {initializer : NodeId}
    (h : t.statement? id = some (.declaration name type initializer)) :
    t.declarationErrors id name initializer =
      ((t.otherLiteralType? initializer type).map fun actual =>
        (id, TypeFault.initializer actual type)).toList.map t.typeFaultError := by
  have hsymbol : t.symbol? id = some ⟨name, .localVariable type, id⟩ := by
    rw [Forest.symbol?, Forest.statement?_eq_some_iff.1 h]
    rfl
  simp only [declarationErrors, hsymbol, mismatch?_eq]
  cases t.otherLiteralType? initializer type <;> rfl

theorem assignmentErrors_eq {scopes : Scopes} (h : t.Represents scopes (t.scope id)) (name : String)
    (value : NodeId) :
    t.assignmentErrors id name value =
      ((t.assignmentFaults scopes name value).map fun fault => (id, fault)).map
        t.typeFaultError := by
  rw [assignmentErrors, assignmentFaults, Forest.visibleType?, h name]
  cases scopes.type? name with
  | none => rfl
  | some type =>
    simp only [mismatch?_eq]
    cases t.otherLiteralType? value type <;> rfl

/-- The statements that are visited in a block and in the blocks nested in it, in their order. -/
def blockVisits (t : Tree) (block : List NodeId) : List Visit :=
  (block.flatMap t.statementSteps).filterMap Step.statementVisit?

/-- No statement is visited in an expression. -/
theorem filterMap_expressionSteps (t : Tree) (id : NodeId) :
    (t.expressionSteps id).filterMap Step.statementVisit? = [] := by
  rw [List.filterMap_eq_nil_iff]
  intro step hstep
  cases step with
  | defect d => rfl
  | visit v =>
    obtain ⟨⟨e, he⟩, -⟩ := of_mem_expressionSteps hstep
    cases v with
    | mk id subject => cases he; rfl

theorem blockVisits_append (t : Tree) (xs ys : List NodeId) :
    t.blockVisits (xs ++ ys) = t.blockVisits xs ++ t.blockVisits ys := by
  rw [blockVisits, List.flatMap_append, List.filterMap_append]
  rfl

theorem blockVisits_cons {s : Statement} (h : t.statement? id = some s) (rest : List NodeId) :
    t.blockVisits (id :: rest) =
      ⟨id, .statement s⟩ :: (t.blockVisits s.nested ++ t.blockVisits rest) := by
  have hvisit : Step.statementVisit? (.visit ⟨id, .statement s⟩) = some ⟨id, .statement s⟩ := rfl
  have hoperands : (s.operands.flatMap t.expressionSteps).filterMap Step.statementVisit? = [] := by
    rw [List.filterMap_flatMap, List.flatMap_eq_nil_iff]
    exact fun e _ => t.filterMap_expressionSteps e
  rw [blockVisits, List.flatMap_cons, statementSteps_of_some h, List.filterMap_append,
    List.filterMap_cons_some hvisit, List.filterMap_append, hoperands]
  rfl

/-- The statements of a block see the listed nodes behind those in front of them in the block. -/
def SeenFrom (t : Tree) (visible block : List NodeId) : Prop :=
  ∀ before id after, block = before ++ id :: after → t.scope id = before.reverse ++ visible

theorem SeenFrom.head {visible rest : List NodeId} (h : t.SeenFrom visible (id :: rest)) :
    t.scope id = visible := h [] id rest rfl

theorem SeenFrom.tail {visible rest : List NodeId} (h : t.SeenFrom visible (id :: rest)) :
    t.SeenFrom (id :: visible) rest := by
  intro before id' after hrest
  rw [h (id :: before) id' after (by rw [hrest, List.cons_append]), List.reverse_cons,
    List.append_assoc, List.singleton_append]

/-- Searching upwards from each assignment of a block finds the faults that going over the block
with its scopes finds. -/
theorem valueReports_blockVisits {scopes : Scopes} {block visible : List NodeId}
    (hscopes : t.Represents scopes visible) (hseen : t.SeenFrom visible block)
    (hblock : t.WellKindedBlock block) :
    (t.blockVisits block).flatMap t.valueReports =
      (t.typeFaults scopes block).map t.typeFaultError := by
  -- along the recursion of `typeFaults`: what the next statement sees is what its scopes stand for
  fun_induction t.typeFaults scopes block generalizing visible with
  | case1 scopes => rfl
  | case2 scopes id rest name type initializer hs ih =>
    rw [blockVisits_cons hs, List.flatMap_cons, List.flatMap_append,
      ih (hscopes.declare hs) hseen.tail hblock.tail, List.map_append, ← declarationErrors_eq hs]
    rfl
  | case3 scopes id rest name value hs ih =>
    rw [blockVisits_cons hs, List.flatMap_cons, List.flatMap_append,
      ih (hscopes.other hs (by simp)) hseen.tail hblock.tail, List.map_append,
      ← assignmentErrors_eq (hseen.head ▸ hscopes)]
    rfl
  | case4 scopes id rest condition thenBlock elseBlock hs ihThen ihElse ih =>
    have hnested : t.WellKindedBlock (thenBlock ++ elseBlock.getD []) := hblock.nested hs
    -- both blocks see what is in scope at the branch, and that is `visible`
    have hseenThen : t.SeenFrom visible thenBlock := fun before d after hd =>
      hseen.head ▸ scope_of_branch hs (Or.inl hd)
    have hseenElse : t.SeenFrom visible (elseBlock.getD []) := fun before d after hd =>
      hseen.head ▸ scope_of_branch hs (Or.inr hd)
    rw [blockVisits_cons hs, List.flatMap_cons, List.flatMap_append, Statement.nested,
      blockVisits_append, List.flatMap_append, ihThen hscopes.enter hseenThen hnested.left,
      ihElse hscopes.enter hseenElse hnested.right,
      ih (hscopes.other hs (by simp)) hseen.tail hblock.tail, List.map_append, List.map_append]
    rfl
  | case5 scopes id rest hdeclaration hassignment hbranch ih =>
    obtain ⟨s, hs⟩ := (hblock id List.mem_cons_self).2
    have hother : ∀ name type initializer, s ≠ .declaration name type initializer :=
      fun name type initializer heq => hdeclaration name type initializer (heq ▸ hs)
    rw [blockVisits_cons hs, List.flatMap_cons, List.flatMap_append,
      ih (hscopes.other hs hother) hseen.tail hblock.tail]
    cases s with
    | declaration name type initializer => exact absurd rfl (hother name type initializer)
    | assignment name value => exact (hassignment name value hs).elim
    | branch condition thenBlock elseBlock =>
      exact (hbranch condition thenBlock elseBlock hs).elim
    | result value => rfl
    | evaluation operand => rfl

/-- The statements that are visited in a function, in their order. -/
def functionStatements (t : Tree) (id : NodeId) : List Visit :=
  (t.functionSteps id).filterMap Step.statementVisit?

/-- The faults in the body of a function, behind whose parameters the body starts. -/
def functionFaults (t : Tree) (g : Function) : List (NodeId × TypeFault) :=
  t.typeFaults (.ofParameters (g.parameters.filterMap t.parameter?)) (g.body.getD [])

theorem functionStatements_of_some {g : Function} (h : t.function? id = some g) :
    t.functionStatements id = t.blockVisits (g.body.getD []) := by
  rw [functionStatements, functionSteps_of_some h]
  rfl

/-- What the rule on the types of values reports in a function is what the check from the top down
finds. -/
theorem valueReports_functionStatements {g : Function} (hg : t.function? id = some g)
    (hk : t.WellKindedFrom id) :
    (t.functionStatements id).flatMap t.valueReports =
      (t.functionFaults g).map t.typeFaultError := by
  rw [functionStatements_of_some hg]
  have hparameters : t.Represents (.ofParameters (g.parameters.filterMap t.parameter?))
      g.parameters.reverse :=
    represents_parameters fun p hp => hk.slotsFit.exists_parameter hg hp
  have hseen : t.SeenFrom g.parameters.reverse (g.body.getD []) :=
    fun before d after hd => scope_of_body hg hd
  exact valueReports_blockVisits hparameters hseen (wellKindedBlock_body hk hg)

end Tree

/-- The rule on the types of values has no state and never fails. -/
theorem Rule.respond_valueType (cx : Context) (v : Visit) :
    ∃ consulted, Rule.valueType.respond cx v () = .ok ⟨(), cx.tree.valueReports v, consulted⟩ := by
  obtain ⟨id, subject⟩ := v
  cases subject with
  | statement s =>
    cases s with
    | declaration name type initializer => exact ⟨[(cx.place, id)], rfl⟩
    | assignment name value =>
      exact ⟨(cx.tree.searched id name).map fun id => (cx.place, id), rfl⟩
    | _ => exact ⟨[], rfl⟩
  | _ => exact ⟨[], rfl⟩

/-- **The rule on the types of values is lexically scoped**: asked about the statements of any
function in the order of the walk, in whatever state the symbol tables are at each of them, it
reports the faults that one pass from the top down with a stack of scopes finds, in the same
order. -/
theorem run_valueType_functionStatements {t : Tree} {id : NodeId} {g : Function}
    (hg : t.function? id = some g) (hk : t.WellKindedFrom id) {cx : Visit → Context}
    (hcx : ∀ v, (cx v).tree = t) :
    Rule.valueType.run () ((t.functionStatements id).map fun v => (cx v, v)) =
      .ok ((), (t.functionFaults g).map t.typeFaultError) := by
  have hrespond : ∀ x ∈ (t.functionStatements id).map fun v => (cx v, v), ∃ consulted,
      Rule.valueType.respond x.1 x.2 () = .ok ⟨(), x.1.tree.valueReports x.2, consulted⟩ :=
    fun x _ => Rule.respond_valueType x.1 x.2
  rw [Rule.run_eq_ok (fun cx v => cx.tree.valueReports v) hrespond,
    ← Tree.valueReports_functionStatements hg hk, List.flatMap_map]
  simp only [hcx]

/-! ### A function with a branch -/

/-- A function with two parameters of one name that assigns an integer to the later one, a boolean,
and of whose branch one block declares the variable that the other block assigns to. -/
def branchFunction : Function := ⟨"f", .void, {}, [0, 1], some [3, 9]⟩

/-- The nodes of a program of this function. -/
def branchNodes : List Node :=
  [⟨.parameterDecl ⟨"n", .i32⟩, ⟨1, 1⟩⟩,
   ⟨.parameterDecl ⟨"n", .bool⟩, ⟨1, 2⟩⟩,
   ⟨.expression (.integer 1), ⟨2, 1⟩⟩,
   ⟨.statement (.assignment "n" 2), ⟨2, 1⟩⟩,
   ⟨.expression (.boolean true), ⟨3, 1⟩⟩,
   ⟨.expression (.integer 2), ⟨4, 1⟩⟩,
   ⟨.statement (.declaration "x" .i32 5), ⟨4, 1⟩⟩,
   ⟨.expression (.text "s"), ⟨5, 1⟩⟩,
   ⟨.statement (.assignment "x" 7), ⟨5, 1⟩⟩,
   ⟨.statement (.branch 4 [6] (some [8])), ⟨3, 1⟩⟩,
   ⟨.functionDecl branchFunction, ⟨1, 1⟩⟩,
   ⟨.moduleDecl ⟨"M", [10], []⟩, ⟨1, 1⟩⟩,
   ⟨.program ⟨[], [11]⟩, ⟨1, 1⟩⟩]

theorem isSome_branchTree : (Tree.ofNodes "branch.tw" branchNodes 12).toOption.isSome = true := by
  decide +kernel

/-- The tree of these nodes. -/
def branchTree : Tree := (Tree.ofNodes "branch.tw" branchNodes 12).toOption.get isSome_branchTree

theorem run_valueType_branchTree :
    branchTree.function? 10 = some branchFunction ∧ branchTree.WellKindedFrom 10 ∧
      Rule.valueType.run () ((branchTree.functionStatements 10).map fun v =>
          (⟨.ofTrees [branchTree], 0, branchTree⟩, v)) =
        .ok ((), [(3, .value "n" .i32 .bool), (8, .undeclared "x")].map
          branchTree.typeFaultError) := by
  have hg : branchTree.function? 10 = some branchFunction := by decide +kernel
  have hk : branchTree.WellKindedFrom 10 := Forest.WellKinded.from (by decide +kernel) 10
  have hfaults : branchTree.functionFaults branchFunction =
      [(3, .value "n" .i32 .bool), (8, .undeclared "x")] := by
    decide +kernel
  refine ⟨hg, hk, ?_⟩
  rw [run_valueType_functionStatements hg hk fun _ => rfl, hfaults]

end ProgramCheck
