import ProgramCheck.Tree.Navigation

/-!
# Symbols

A symbol is what a node declares: a name, with the type or the modifiers that belong to it. Modules,
functions, parameters, local variables, structs and fields declare a symbol, other nodes do not.
-/

namespace ProgramCheck

/-- The kinds of symbols. -/
inductive SymbolKind
  | moduleSymbol
  | function
  | parameter
  | localVariable
  | struct
  | field
  deriving DecidableEq

/-- The name of a kind of symbols. -/
def SymbolKind.name : SymbolKind → String
  | .moduleSymbol => "module"
  | .function => "function"
  | .parameter => "parameter"
  | .localVariable => "variable"
  | .struct => "struct"
  | .field => "field"

/-- What is known of a symbol besides its name, by its kind. -/
inductive SymbolDetail
  | moduleSymbol
  | function (returnType : TypeRef) (modifiers : Modifiers)
  | parameter (type : TypeRef)
  | localVariable (type : TypeRef)
  | struct (modifiers : Modifiers)
  | field (type : TypeRef)
  deriving DecidableEq

/-- A name that a node declares. -/
structure Symbol where
  name : String
  detail : SymbolDetail
  declaration : NodeId
  deriving DecidableEq

namespace Symbol

/-- The kind of a symbol. -/
def kind (s : Symbol) : SymbolKind :=
  match s.detail with
  | .moduleSymbol => .moduleSymbol
  | .function .. => .function
  | .parameter _ => .parameter
  | .localVariable _ => .localVariable
  | .struct _ => .struct
  | .field _ => .field

/-- The modifiers of a symbol, none for the kinds that cannot have any. -/
def modifiers (s : Symbol) : Modifiers :=
  match s.detail with
  | .function _ modifiers => modifiers
  | .struct modifiers => modifiers
  | _ => {}

/-- The declared type of a symbol, if its kind has one. -/
def type? (s : Symbol) : Option TypeRef :=
  match s.detail with
  | .parameter type => some type
  | .localVariable type => some type
  | .field type => some type
  | _ => none

/-- The return type of a function. -/
def returnType? (s : Symbol) : Option TypeRef :=
  match s.detail with
  | .function returnType _ => some returnType
  | _ => none

/-- Whether a symbol is of the wanted kind, where no kind stands for any. -/
def matchesKind (s : Symbol) (kind : Option SymbolKind) : Bool :=
  match kind with
  | none => true
  | some kind => s.kind == kind

end Symbol

/-- The symbol that a node of a kind declares under its number. -/
def NodeKind.symbol? (id : NodeId) : NodeKind → Option Symbol
  | .moduleDecl m => some ⟨m.name, .moduleSymbol, id⟩
  | .functionDecl f => some ⟨f.name, .function f.returnType f.modifiers, id⟩
  | .parameterDecl p => some ⟨p.name, .parameter p.type, id⟩
  | .statement (.declaration name type _) => some ⟨name, .localVariable type, id⟩
  | .structDecl s => some ⟨s.name, .struct s.modifiers, id⟩
  | .fieldDecl f => some ⟨f.name, .field f.type, id⟩
  | _ => none

namespace Forest

/-- The symbol that the node under a number declares. -/
def symbol? (f : Forest) (id : NodeId) : Option Symbol := (f.kind? id).bind (·.symbol? id)

/-- The symbols of a kind that are declared from a node downwards, in preorder. -/
def symbolsBelow (f : Forest) (kind : Option SymbolKind) (id : NodeId) : List Symbol :=
  (f.preorder id).filterMap fun id => (f.symbol? id).filter (·.matchesKind kind)

theorem declaration_of_symbol? {f : Forest} {id : NodeId} {s : Symbol}
    (h : f.symbol? id = some s) : s.declaration = id := by
  obtain ⟨k, -, hk⟩ := Option.bind_eq_some_iff.1 h
  unfold NodeKind.symbol? at hk
  split at hk <;> cases hk <;> rfl

end Forest

end ProgramCheck
