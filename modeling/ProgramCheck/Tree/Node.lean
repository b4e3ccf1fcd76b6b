import ProgramCheck.Modifiers
import ProgramCheck.Position
import ProgramCheck.TypeRef

/-!
# Nodes

The nodes of a program tree. A node refers to its parts by their ids, the numbers under which they
stand in the node table of the tree. `NodeKind.children` lists the parts of a node in the order in
which they appear in the program; which kinds of nodes stand there is not fixed by the type.
-/

namespace ProgramCheck

/-- The number of a node in the node table of its tree. -/
abbrev NodeId := Nat

/-- The id as it is written in messages. -/
def NodeId.display (id : NodeId) : String := "#" ++ toString id

/-- A program: its imports and its modules. -/
structure Program where
  imports : List NodeId
  modules : List NodeId
  deriving DecidableEq

/-- The import of a module by its name. -/
structure Import where
  moduleName : String
  deriving DecidableEq

/-- A module with its functions and its structs. -/
structure Module where
  name : String
  functions : List NodeId
  structs : List NodeId
  deriving DecidableEq

/-- A struct with its fields and its methods. -/
structure Struct where
  name : String
  modifiers : Modifiers
  fields : List NodeId
  functions : List NodeId
  deriving DecidableEq

/-- A field of a struct, with the expression that initializes it, if any. -/
structure Field where
  name : String
  type : TypeRef
  initializer : Option NodeId
  deriving DecidableEq

/-- A function. A body of no statements is not the same as no body. -/
structure Function where
  name : String
  returnType : TypeRef
  modifiers : Modifiers
  parameters : List NodeId
  body : Option (List NodeId)
  deriving DecidableEq

/-- A parameter of a function. -/
structure Parameter where
  name : String
  type : TypeRef
  deriving DecidableEq

/-- A statement. A branch without a second block is not the same as one with an empty block. -/
inductive Statement
  | declaration (name : String) (type : TypeRef) (initializer : NodeId)
  | assignment (name : String) (value : NodeId)
  | result (value : Option NodeId)
  | branch (condition : NodeId) (thenBlock : List NodeId) (elseBlock : Option (List NodeId))
  | evaluation (operand : NodeId)
  deriving DecidableEq

/-- An operator between two operands. -/
inductive BinaryOp
  | add | sub | mul | div
  | eq | ne | lt | le | gt | ge
  | and | or
  deriving DecidableEq

/-- An expression. -/
inductive Expression
  | identifier (name : String)
  | boolean (value : Bool)
  | integer (value : Int)
  | character (value : Char)
  | text (value : String)
  | binary (op : BinaryOp) (left right : NodeId)
  | call (name : String) (arguments : List NodeId)
  deriving DecidableEq

/-- What a node is, with its parts. -/
inductive NodeKind
  | program (p : Program)
  | importDecl (i : Import)
  | moduleDecl (m : Module)
  | structDecl (s : Struct)
  | fieldDecl (f : Field)
  | functionDecl (f : Function)
  | parameterDecl (p : Parameter)
  | statement (s : Statement)
  | expression (e : Expression)
  deriving DecidableEq

/-- A node: what it is, and where it stands in the source. -/
structure Node where
  kind : NodeKind
  position : Position
  deriving DecidableEq

/-- The sorts of nodes, without their parts. -/
inductive NodeSort
  | program
  | importDecl
  | moduleDecl
  | structDecl
  | fieldDecl
  | functionDecl
  | parameterDecl
  | statement
  | expression
  deriving DecidableEq

/-- The name of a sort of nodes. -/
def NodeSort.name : NodeSort → String
  | .program => "program"
  | .importDecl => "import"
  | .moduleDecl => "module"
  | .structDecl => "struct"
  | .fieldDecl => "field"
  | .functionDecl => "function"
  | .parameterDecl => "parameter"
  | .statement => "statement"
  | .expression => "expression"

/-- The name of a sort of nodes behind its indefinite article. -/
def NodeSort.withArticle : NodeSort → String
  | .importDecl => "an import"
  | .expression => "an expression"
  | s => "a " ++ s.name

/-! ### Parts of a node -/

namespace Statement

/-- The expressions that a statement evaluates itself. -/
def operands : Statement → List NodeId
  | declaration _ _ initializer => [initializer]
  | assignment _ value => [value]
  | result value => value.toList
  | branch condition _ _ => [condition]
  | evaluation operand => [operand]

/-- The statements nested in a statement: those of the first block, then those of the second. -/
def nested : Statement → List NodeId
  | branch _ thenBlock elseBlock => thenBlock ++ elseBlock.getD []
  | _ => []

/-- The parts of a statement. -/
def children (s : Statement) : List NodeId := s.operands ++ s.nested

end Statement

/-- The operands of an expression. -/
def Expression.children : Expression → List NodeId
  | .binary _ left right => [left, right]
  | .call _ arguments => arguments
  | _ => []

namespace NodeKind

/-- The sort of a node. -/
def sort : NodeKind → NodeSort
  | program _ => .program
  | importDecl _ => .importDecl
  | moduleDecl _ => .moduleDecl
  | structDecl _ => .structDecl
  | fieldDecl _ => .fieldDecl
  | functionDecl _ => .functionDecl
  | parameterDecl _ => .parameterDecl
  | statement _ => .statement
  | expression _ => .expression

/-- The parts of a node, in the order in which they appear in the program. -/
def children : NodeKind → List NodeId
  | program p => p.imports ++ p.modules
  | importDecl _ => []
  | moduleDecl m => m.functions ++ m.structs
  | structDecl s => s.fields ++ s.functions
  | fieldDecl f => f.initializer.toList
  | functionDecl f => f.parameters ++ f.body.getD []
  | parameterDecl _ => []
  | statement s => s.children
  | expression e => e.children

end NodeKind

end ProgramCheck
