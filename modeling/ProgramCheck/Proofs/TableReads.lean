import Mathlib.Data.List.Induction
import ProgramCheck.Proofs.HookLog

/-!
# Reading through the symbol tables

Rules learn of symbols through the tables, which compute and keep what they are asked for. Whatever a
table keeps already, it answers with what its tree declares, and afterwards it keeps exactly what it
would keep had the nodes been looked up one by one. So what a rule learns does not depend on what was
asked before, by whichever rule.
-/

namespace ProgramCheck

namespace SymbolTable

/-- The table after some nodes have been looked up. -/
def lookupEach (s : SymbolTable) (ids : List NodeId) : SymbolTable :=
  ids.foldl (fun s id => (s.lookup id).2) s

@[simp] theorem lookupEach_nil (s : SymbolTable) : s.lookupEach [] = s := rfl

@[simp] theorem lookupEach_cons (s : SymbolTable) (id : NodeId) (ids : List NodeId) :
    s.lookupEach (id :: ids) = (s.lookup id).2.lookupEach ids := rfl

theorem symbol_lookupAs (s : SymbolTable) (kind : Option SymbolKind) (id : NodeId) :
    (s.lookupAs kind id).1.map Entry.symbol =
      (s.tree.symbol? id).filter (·.matchesKind kind) := by
  rw [lookupAs, ← symbol_lookup]
  cases (s.lookup id).1 with
  | none => rfl
  | some entry =>
    rw [Option.map_some, Option.filter_some, Option.filter_some]
    split <;> rfl

/-- Collecting all symbols of a kind finds those that the tree declares, and looks up every node. -/
theorem collect_none (kind : Option SymbolKind) (s : SymbolTable) (ids : List NodeId) :
    (s.collect kind none ids).1.map Entry.symbol =
        ids.filterMap (fun id => (s.tree.symbol? id).filter (·.matchesKind kind)) ∧
      (s.collect kind none ids).2 = s.lookupEach ids := by
  induction ids generalizing s with
  | nil => exact ⟨rfl, rfl⟩
  | cons id ids ih =>
    have hsymbol := s.symbol_lookupAs kind id
    have htree := s.tree_lookupAs kind id
    have htable : (s.lookupAs kind id).2 = (s.lookup id).2 := rfl
    rw [collect, List.filterMap_cons, lookupEach_cons, ← htable, ← hsymbol]
    case x_2 =>
      intro h
      cases h
    obtain ⟨hentries, hs'⟩ := ih (s.lookupAs kind id).2
    rw [htree] at hentries
    cases hanswer : s.lookupAs kind id with
    | mk entry? s' =>
      rw [hanswer] at hentries hs'
      cases entry? with
      | none => exact ⟨hentries, hs'⟩
      | some entry => exact ⟨congrArg (entry.symbol :: ·) hentries, hs'⟩

/-- Listing all symbols of a kind. -/
theorem list_none (kind : Option SymbolKind) (s : SymbolTable) :
    (s.list kind none).1.map Entry.symbol = s.tree.symbolsBelow kind s.tree.root ∧
      (s.list kind none).2 = s.lookupEach (s.tree.preorder s.tree.root) :=
  collect_none kind s _

end SymbolTable

namespace Compilation

variable {c : Compilation} {place : Nat} {t : Tree}

/-- Consulting nodes looks them up in the tables of their trees. -/
theorem getElem?_tables_consult (c : Compilation) (nodes : List (Nat × NodeId)) (i : Nat) :
    (c.consult nodes).tables[i]? =
      c.tables[i]?.map (·.lookupEach ((nodes.filter (·.1 = i)).map Prod.snd)) := by
  induction nodes generalizing c with
  | nil => simp
  | cons n nodes ih =>
    have hfirst : (c.consult [n]).tables[i]? =
        c.tables[i]?.map fun s => if n.1 = i then (s.lookup n.2).2 else s := by
      rw [consult, List.foldl_cons, List.foldl_nil, List.getElem?_modify]
      split <;> simp
    rw [← List.singleton_append, consult_append, ih, hfirst, Option.map_map]
    refine congrArg (Option.map · _) (funext fun s => ?_)
    by_cases hn : n.1 = i <;> simp [hn]

/-- Compilations with the same report are told apart by their tables only. -/
theorem eq_of_getElem?_tables {c c' : Compilation} (hreport : c.report = c'.report)
    (h : ∀ i : Nat, c.tables[i]? = c'.tables[i]?) : c = c' := by
  cases c
  cases c'
  exact congr (congrArg Compilation.mk (List.ext_getElem? h)) hreport

theorem listTables_none (kind : Option SymbolKind) (tables : List SymbolTable) :
    (listTables kind none tables).1.map Entry.symbol =
        (tables.map (·.tree)).flatMap (fun t => t.symbolsBelow kind t.root) ∧
      (listTables kind none tables).2 =
        tables.map fun s => s.lookupEach (s.tree.preorder s.tree.root) := by
  induction tables with
  | nil => exact ⟨rfl, rfl⟩
  | cons s tables ih =>
    obtain ⟨hentries, htable⟩ := s.list_none kind
    simp only [listTables, Option.map_none, List.map_append, List.map_cons, List.flatMap_cons,
      hentries, htable, ih.1, ih.2, and_self]

theorem map_snd_filter_pair (ids : List NodeId) (i j : Nat) :
    (((ids.map (j, ·)).filter (·.1 = i)).map Prod.snd) = if j = i then ids else [] := by
  rw [List.filter_map, List.map_map]
  by_cases hj : j = i <;> simp [hj, Function.comp_def]

/-- The nodes of the tree at a place among all nodes. -/
theorem map_snd_filter_allNodes (c : Compilation) (i : Nat) :
    (c.allNodes.filter (·.1 = i)).map Prod.snd =
      (c.trees[i]?.map fun t => t.preorder t.root).getD [] := by
  unfold allNodes
  induction c.trees using List.reverseRecOn with
  | nil => rfl
  | append_singleton ts t ih =>
    rw [List.mapIdx_append, List.flatten_append, List.filter_append, List.map_append, ih,
      List.mapIdx_singleton, List.flatten_singleton, map_snd_filter_pair]
    rcases Nat.lt_trichotomy i ts.length with h | h | h
    · rw [if_neg (by omega), List.append_nil, List.getElem?_append_left h]
    · subst h
      simp
    · rw [if_neg (by omega), List.append_nil, List.getElem?_eq_none (Nat.le_of_lt h),
        List.getElem?_eq_none (by simp; omega)]

/-- Listing all symbols of a kind finds those that the trees declare, and consults every node. -/
theorem list_none (kind : Option SymbolKind) (c : Compilation) :
    (c.list kind none).1.map Entry.symbol =
        c.trees.flatMap (fun t => t.symbolsBelow kind t.root) ∧
      (c.list kind none).2 = c.consult c.allNodes := by
  obtain ⟨hentries, htables⟩ := listTables_none kind c.tables
  refine ⟨hentries, eq_of_getElem?_tables rfl fun i => ?_⟩
  rw [getElem?_tables_consult, map_snd_filter_allNodes]
  change (listTables kind none c.tables).2[i]? = _
  rw [htables, List.getElem?_map, Compilation.trees, List.getElem?_map]
  cases c.tables[i]? <;> rfl

/-! ### Single nodes -/

/-- The symbol that the table at a place answers for a node, with the compilation that the look-up
leaves behind. -/
def lookup (c : Compilation) (place : Nat) (id : NodeId) : Option Symbol × Compilation :=
  match c.tables[place]? with
  | none => (none, c)
  | some s =>
    ((s.lookup id).1.map Entry.symbol, { c with tables := c.tables.set place (s.lookup id).2 })

/-- The first value among the symbols of some nodes, looked up one after the other up to the first
that has one, with the compilation that the search leaves behind. -/
def search {α : Type} (c : Compilation) (place : Nat) (value : Symbol → Option α) :
    List NodeId → Option α × Compilation
  | [] => (none, c)
  | id :: ids =>
    match (c.lookup place id).1.bind value with
    | some a => (some a, (c.lookup place id).2)
    | none => (c.lookup place id).2.search place value ids

theorem lookup_eq (h : c.trees[place]? = some t) (id : NodeId) :
    c.lookup place id = (t.symbol? id, c.consult [(place, id)]) := by
  rw [Compilation.trees, List.getElem?_map] at h
  obtain ⟨s, hs, rfl⟩ := Option.map_eq_some_iff.1 h
  simp only [lookup, hs, SymbolTable.symbol_lookup]
  refine congrArg (s.tree.symbol? id, ·) (eq_of_getElem?_tables rfl fun i => ?_)
  rw [consult, List.foldl_cons, List.foldl_nil, List.getElem?_modify, List.getElem?_set]
  by_cases hi : place = i
  · obtain ⟨hlt, rfl⟩ := List.getElem?_eq_some_iff.1 hs
    subst hi
    simp [hlt]
  · simp [hi]

/-- A search stops at the first node whose symbol has a value, and consults the nodes up to it. -/
theorem search_eq {α : Type} (h : c.trees[place]? = some t) (value : Symbol → Option α)
    (ids : List NodeId) :
    let value? := fun id => (t.symbol? id).bind value
    let missed := ids.takeWhile fun id => (value? id).isNone
    c.search place value ids = (ids.findSome? value?,
      c.consult ((missed ++ (ids.drop missed.length).take 1).map (place, ·))) := by
  induction ids generalizing c with
  | nil => rfl
  | cons id ids ih =>
    have hnext : (c.consult [(place, id)]).trees[place]? = some t := by rwa [trees_consult]
    simp only [search, lookup_eq h, List.findSome?_cons]
    cases hvalue : (t.symbol? id).bind value with
    | some a => simp [hvalue]
    | none => simp [hvalue, ih hnext, ← consult_append]

end Compilation

/-! ### What the rules read -/

/-- The type of a variable or parameter, if the symbol is one of this name. -/
def Symbol.valueType? (name : String) : Symbol → Option TypeRef
  | ⟨declared, .localVariable type, _⟩ => if declared = name then some type else none
  | ⟨declared, .parameter type, _⟩ => if declared = name then some type else none
  | _ => none

theorem Forest.valueType?_eq (f : Forest) (name : String) :
    f.valueType? name = fun id => (f.symbol? id).bind (Symbol.valueType? name) := by
  funext id
  unfold Forest.valueType?
  cases f.symbol? id with
  | none => rfl
  | some s =>
    obtain ⟨declared, detail, declaration⟩ := s
    cases detail <;> rfl

/-- Whether the reads of the built-in rules, made through the tables of a compilation, answer what
the trees declare, and leave the compilation as after consulting the nodes that the rules name. -/
structure Compilation.ReadsTrees (c : Compilation) : Prop where
  /-- The names of all modules, which the rule on imports asks for. -/
  modules : (c.list (some .moduleSymbol) none).1.map (·.symbol.name) = c.moduleNames ∧
    (c.list (some .moduleSymbol) none).2 = c.consult c.allNodes
  /-- The symbol of a declaration, which the rule on values asks for. -/
  declaration : ∀ {place : Nat} {t : Tree} (id : NodeId), c.trees[place]? = some t →
    c.lookup place id = (t.symbol? id, c.consult [(place, id)])
  /-- The type of the variable of an assignment, which the rule on values searches. -/
  assignment : ∀ {place : Nat} {t : Tree} (id : NodeId) (name : String),
    c.trees[place]? = some t →
      c.search place (Symbol.valueType? name) (t.scope id) =
        (t.visibleType? id name, c.consult ((t.searched id name).map (place, ·)))

/-- **The tables answer for the trees**, whatever they keep already. -/
theorem Compilation.readsTrees (c : Compilation) : c.ReadsTrees where
  modules := by
    obtain ⟨hentries, htables⟩ := c.list_none (some .moduleSymbol)
    refine ⟨?_, htables⟩
    have hnames := congrArg (List.map Symbol.name) hentries
    rwa [List.map_map, List.map_flatMap] at hnames
  declaration id h := lookup_eq h id
  assignment id name h := by
    rw [search_eq h, Forest.visibleType?, Forest.searched, Forest.valueType?_eq]

end ProgramCheck
