import ProgramCheck.Proofs.LexicalScope

/-!
# Well-typed blocks

The typing of declarations and assignments as a relation, with one rule for each form of statement.
A block of statements is well typed in some scopes exactly if going over it with these scopes finds
no fault.
-/

namespace ProgramCheck

namespace Tree

/-- A node that is a literal has the given type. -/
def LiteralFits (t : Tree) (id : NodeId) (type : TypeRef) : Prop :=
  ∀ e actual, t.expression? id = some e → e.literalType? = some actual → actual = type

theorem otherLiteralType?_eq_none_iff {t : Tree} {id : NodeId} {type : TypeRef} :
    t.otherLiteralType? id type = none ↔ t.LiteralFits id type := by
  rw [otherLiteralType?, Option.filter_eq_none_iff]
  constructor
  · intro h e actual he hactual
    simpa using h actual (by rw [he, Option.bind_some, hactual])
  · intro h actual hactual
    obtain ⟨e, he, hactual⟩ := Option.bind_eq_some_iff.1 hactual
    simpa using h e actual he hactual

/-- The blocks in which every literal has the type of the variable that is declared with it or that
it is assigned to, and every assigned name is in force. -/
inductive WellTyped (t : Tree) : Scopes → List NodeId → Prop
  | nil {scopes : Scopes} : WellTyped t scopes []
  | declaration {scopes : Scopes} {id initializer : NodeId} {rest : List NodeId} {name : String}
      {type : TypeRef} (h : t.statement? id = some (.declaration name type initializer))
      (hvalue : t.LiteralFits initializer type)
      (hrest : WellTyped t (scopes.declare name type) rest) : WellTyped t scopes (id :: rest)
  | assignment {scopes : Scopes} {id value : NodeId} {rest : List NodeId} {name : String}
      {type : TypeRef} (h : t.statement? id = some (.assignment name value))
      (hname : scopes.type? name = some type) (hvalue : t.LiteralFits value type)
      (hrest : WellTyped t scopes rest) : WellTyped t scopes (id :: rest)
  | branch {scopes : Scopes} {id condition : NodeId} {rest thenBlock : List NodeId}
      {elseBlock : Option (List NodeId)}
      (h : t.statement? id = some (.branch condition thenBlock elseBlock))
      (hthen : WellTyped t scopes.enter thenBlock)
      (helse : WellTyped t scopes.enter (elseBlock.getD []))
      (hrest : WellTyped t scopes rest) : WellTyped t scopes (id :: rest)
  | result {scopes : Scopes} {id : NodeId} {rest : List NodeId} {value : Option NodeId}
      (h : t.statement? id = some (.result value)) (hrest : WellTyped t scopes rest) :
      WellTyped t scopes (id :: rest)
  | evaluation {scopes : Scopes} {id operand : NodeId} {rest : List NodeId}
      (h : t.statement? id = some (.evaluation operand)) (hrest : WellTyped t scopes rest) :
      WellTyped t scopes (id :: rest)

variable {t : Tree}

theorem assignmentFaults_eq_nil_iff {scopes : Scopes} {name : String} {value : NodeId} :
    t.assignmentFaults scopes name value = [] ↔
      ∃ type, scopes.type? name = some type ∧ t.LiteralFits value type := by
  simp only [← otherLiteralType?_eq_none_iff, assignmentFaults]
  cases scopes.type? name <;> simp

section Equations

variable {scopes : Scopes} {id : NodeId} {rest : List NodeId}

theorem typeFaults_declaration {name : String} {type : TypeRef} {initializer : NodeId}
    (h : t.statement? id = some (.declaration name type initializer)) :
    t.typeFaults scopes (id :: rest) =
      ((t.otherLiteralType? initializer type).map fun actual =>
        (id, TypeFault.initializer actual type)).toList ++
        t.typeFaults (scopes.declare name type) rest := by
  rw [typeFaults]
  split <;> simp_all

theorem typeFaults_assignment {name : String} {value : NodeId}
    (h : t.statement? id = some (.assignment name value)) :
    t.typeFaults scopes (id :: rest) =
      (t.assignmentFaults scopes name value).map (fun fault => (id, fault)) ++
        t.typeFaults scopes rest := by
  rw [typeFaults]
  split <;> simp_all

theorem typeFaults_branch {condition : NodeId} {thenBlock : List NodeId}
    {elseBlock : Option (List NodeId)}
    (h : t.statement? id = some (.branch condition thenBlock elseBlock)) :
    t.typeFaults scopes (id :: rest) =
      t.typeFaults scopes.enter thenBlock ++ t.typeFaults scopes.enter (elseBlock.getD []) ++
        t.typeFaults scopes rest := by
  rw [typeFaults]
  split <;> simp_all

theorem typeFaults_result {value : Option NodeId} (h : t.statement? id = some (.result value)) :
    t.typeFaults scopes (id :: rest) = t.typeFaults scopes rest := by
  rw [typeFaults]
  split <;> simp_all

theorem typeFaults_evaluation {operand : NodeId}
    (h : t.statement? id = some (.evaluation operand)) :
    t.typeFaults scopes (id :: rest) = t.typeFaults scopes rest := by
  rw [typeFaults]
  split <;> simp_all

end Equations

/-- A well-typed block has no faults. -/
theorem WellTyped.typeFaults_eq_nil {scopes : Scopes} {block : List NodeId}
    (h : t.WellTyped scopes block) : t.typeFaults scopes block = [] := by
  induction h with
  | nil => rw [typeFaults]
  | declaration h hvalue hrest ih =>
    rw [typeFaults_declaration h, otherLiteralType?_eq_none_iff.2 hvalue, ih]
    rfl
  | assignment h hname hvalue hrest ih =>
    rw [typeFaults_assignment h, assignmentFaults_eq_nil_iff.2 ⟨_, hname, hvalue⟩, ih]
    rfl
  | branch h hthen helse hrest ihThen ihElse ih =>
    rw [typeFaults_branch h, ihThen, ihElse, ih]
    rfl
  | result h hrest ih => rw [typeFaults_result h, ih]
  | evaluation h hrest ih => rw [typeFaults_evaluation h, ih]

/-- A block without faults is well typed, if it is well kinded. -/
theorem wellTyped_of_typeFaults_eq_nil {scopes : Scopes} {block : List NodeId}
    (hblock : t.WellKindedBlock block) (h : t.typeFaults scopes block = []) :
    t.WellTyped scopes block := by
  fun_induction t.typeFaults scopes block with
  | case1 scopes => exact .nil
  | case2 scopes id rest name type initializer hs ih =>
    obtain ⟨hvalue, hrest⟩ := List.append_eq_nil_iff.1 h
    refine .declaration hs (otherLiteralType?_eq_none_iff.1 ?_) (ih hblock.tail hrest)
    simpa using hvalue
  | case3 scopes id rest name value hs ih =>
    obtain ⟨hvalue, hrest⟩ := List.append_eq_nil_iff.1 h
    obtain ⟨type, hname, hfits⟩ := assignmentFaults_eq_nil_iff.1 (List.map_eq_nil_iff.1 hvalue)
    exact .assignment hs hname hfits (ih hblock.tail hrest)
  | case4 scopes id rest condition thenBlock elseBlock hs ihThen ihElse ih =>
    obtain ⟨hboth, hrest⟩ := List.append_eq_nil_iff.1 h
    obtain ⟨hthen, helse⟩ := List.append_eq_nil_iff.1 hboth
    have hnested : t.WellKindedBlock (thenBlock ++ elseBlock.getD []) := hblock.nested hs
    exact .branch hs (ihThen hnested.left hthen) (ihElse hnested.right helse)
      (ih hblock.tail hrest)
  | case5 scopes id rest hdeclaration hassignment hbranch ih =>
    -- a node that is no statement has no faults either, but in this block there is none
    obtain ⟨s, hs⟩ := (hblock id List.mem_cons_self).2
    have hrest := ih hblock.tail h
    cases s with
    | declaration name type initializer => exact (hdeclaration name type initializer hs).elim
    | assignment name value => exact (hassignment name value hs).elim
    | branch condition thenBlock elseBlock =>
      exact (hbranch condition thenBlock elseBlock hs).elim
    | result value => exact .result hs hrest
    | evaluation operand => exact .evaluation hs hrest

/-- The body of a function is well typed behind its parameters if the function has no faults. -/
theorem functionFaults_eq_nil_iff {id : NodeId} {g : Function} (hg : t.function? id = some g)
    (hk : t.WellKindedFrom id) :
    t.functionFaults g = [] ↔
      t.WellTyped (.ofParameters (g.parameters.filterMap t.parameter?)) (g.body.getD []) :=
  ⟨wellTyped_of_typeFaults_eq_nil (wellKindedBlock_body hk hg), WellTyped.typeFaults_eq_nil⟩

end Tree

end ProgramCheck
