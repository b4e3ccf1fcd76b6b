import ProgramCheck.Refusal
import ProgramCheck.Report
import ProgramCheck.Symbol.Table

/-!
# Compilations

A compilation holds the trees that are checked together, each with its symbol table, and the report
of the check. A tree belongs to a compilation by having been registered with it, and not by what it
contains: `TreeRef` is a tree together with the place at which it was registered, if any.
-/

namespace ProgramCheck

/-- The symbol tables of the trees that are checked together, in the order of their registration,
and the report of the check. -/
structure Compilation where
  tables : List SymbolTable
  report : Report := {}

/-- A tree, with the place at which a compilation has registered it. -/
structure TreeRef where
  tree : Tree
  place : Option Nat

namespace Compilation

/-- The compilation of some trees before any check. -/
def ofTrees (trees : List Tree) : Compilation := ⟨trees.map .ofTree, {}⟩

/-- The registered trees. -/
def trees (c : Compilation) : List Tree := c.tables.map (·.tree)

/-- The registered trees with their places. -/
def treeRefs (c : Compilation) : List TreeRef := c.trees.mapIdx fun i t => ⟨t, some i⟩

/-- Whether the check found errors. -/
def hasErrors (c : Compilation) : Bool := !c.report.errors.isEmpty

/-- The number of symbols that each table keeps. -/
def cachedSizes (c : Compilation) : List Nat := c.tables.map (·.size)

/-- The symbol table of a registered tree, with its place. -/
def tableOf (c : Compilation) (ref : TreeRef) : Except Refusal (Nat × SymbolTable) :=
  match ref.place with
  | none => .error (.unknownTree ref.tree.name)
  | some i =>
    match c.tables[i]? with
    | none => .error (.unknownTree ref.tree.name)
    | some table => .ok (i, table)

/-- The compilation after some nodes, each named with the place of its tree, have been looked up. -/
def consult (c : Compilation) (nodes : List (Nat × NodeId)) : Compilation :=
  { c with
    tables := nodes.foldl (fun tables n => tables.modify n.1 fun s => (s.lookup n.2).2) c.tables }

/-- The answer of the table at a place to a query, with the compilation that it leaves behind. -/
def ask (c : Compilation) (place : Nat) (query : SymbolTable.Query) :
    Except Defect (List Entry) × Compilation :=
  match c.tables[place]? with
  | none => (.ok [], c)
  | some s => ((s.ask query).1, { c with tables := c.tables.set place (s.ask query).2 })

/-- The entries of the wanted kind, table by table, all of them or only so many. -/
def listTables (kind : Option SymbolKind) :
    Option Nat → List SymbolTable → List Entry × List SymbolTable
  | _, [] => ([], [])
  | wanted, s :: tables =>
    let here := s.list kind wanted
    let rest := listTables kind (wanted.map (· - here.1.length)) tables
    (here.1 ++ rest.1, here.2 :: rest.2)

/-- The entries of the wanted kind in all trees, in the order of registration, all of them or only
so many. -/
def list (c : Compilation) (kind : Option SymbolKind) (wanted : Option Nat) :
    List Entry × Compilation :=
  let answer := listTables kind wanted c.tables
  (answer.1, { c with tables := answer.2 })

/-- Every node of every tree with the place of the tree, tree by tree in preorder. -/
def allNodes (c : Compilation) : List (Nat × NodeId) :=
  (c.trees.mapIdx fun i t => (t.preorder t.root).map fun id => (i, id)).flatten

/-- The names of the modules declared in the trees, tree by tree in preorder. -/
def moduleNames (c : Compilation) : List String :=
  c.trees.flatMap fun t => (t.symbolsBelow (some .moduleSymbol) t.root).map (·.name)

/-- Looking at symbols leaves the trees as they are. -/
@[simp] theorem trees_consult (c : Compilation) (nodes : List (Nat × NodeId)) :
    (c.consult nodes).trees = c.trees := by
  cases c with
  | mk tables report =>
    simp only [consult, Compilation.trees]
    induction nodes generalizing tables with
    | nil => rfl
    | cons n nodes ih =>
      rw [List.foldl_cons, ih]
      refine List.ext_getElem? fun i => ?_
      simp only [List.getElem?_map, List.getElem?_modify]
      split <;> cases tables[i]? <;> simp

@[simp] theorem report_consult (c : Compilation) (nodes : List (Nat × NodeId)) :
    (c.consult nodes).report = c.report := rfl

@[simp] theorem trees_ofTrees (trees : List Tree) : (ofTrees trees).trees = trees := by
  simp [ofTrees, Compilation.trees, Function.comp_def]

end Compilation

end ProgramCheck
