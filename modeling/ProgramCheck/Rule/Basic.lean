import ProgramCheck.Compilation
import ProgramCheck.Walk

/-!
# Rules

A rule is a state machine that answers every visit of a walk. It sees the compilation and the tree
that is walked, and responds with its next state, with diagnostics, and with the nodes whose symbols
it consulted. A rule cannot change the compilation; that the consulted symbols are kept from then on
is the work of whoever runs the rule.
-/

namespace ProgramCheck

/-- What a rule sees at a visit: the compilation, the tree that is walked and its place. -/
structure Context where
  compilation : Compilation
  place : Nat
  tree : Tree

/-- The answer of a rule to a visit: its next state, what it reports in this order, and the nodes
whose symbols it consulted, each with the place of its tree. -/
structure Response (σ : Type) where
  state : σ
  reports : List Diagnostic := []
  consulted : List (Nat × NodeId) := []

/-- A named state machine that answers the visits of a walk. -/
structure Rule where
  name : String
  State : Type
  start : State
  respond : Context → Visit → State → Except Defect (Response State)

/-- A rule together with its current state. -/
structure ActiveRule where
  rule : Rule
  state : rule.State

namespace Rule

/-- The rule in its first state. -/
def activate (r : Rule) : ActiveRule := ⟨r, r.start⟩

/-- A rule without a state that consults no symbols. -/
def ofReports (name : String) (reports : Context → Visit → List Diagnostic) : Rule where
  name := name
  State := Unit
  start := ()
  respond cx v _ := .ok { state := (), reports := reports cx v }

end Rule

namespace Tree

/-- An error at a node. -/
def error (t : Tree) (id : NodeId) (message : String) : Diagnostic :=
  ⟨.error, t.position id, message⟩

/-- A warning at a node. -/
def warning (t : Tree) (id : NodeId) (message : String) : Diagnostic :=
  ⟨.warning, t.position id, message⟩

end Tree

end ProgramCheck
