import ProgramCheck.Symbol.Basic

/-!
# Symbol tables

The symbol table of a tree computes the symbol of a node when it is first asked for it, and keeps
it. An entry of the table is a symbol with a serial number, by which two answers can be told to be
the same entry. A table only ever holds the symbols that its tree declares, and its type says so;
hence what has been asked before shows in how much is kept, and never in which symbols are answered.
-/

namespace ProgramCheck

/-- A symbol kept in a table, with the number of entries that were there before it. -/
structure Entry where
  symbol : Symbol
  serial : Nat
  deriving DecidableEq

/-- The symbols of a tree that have been computed so far. -/
structure SymbolTable where
  tree : Tree
  slots : Array (Option Entry)
  size_slots : slots.size = tree.size
  symbol?_of_slot : ∀ {id : NodeId} {entry : Entry},
    slots[id]? = some (some entry) → tree.symbol? id = some entry.symbol

namespace SymbolTable

/-- The table of a tree of which nothing has been asked yet. -/
def ofTree (tree : Tree) : SymbolTable where
  tree := tree
  slots := Array.replicate tree.size none
  size_slots := by simp
  symbol?_of_slot := by simp [Array.getElem?_replicate]

/-- The entry that is kept for a node. -/
def cached? (s : SymbolTable) (id : NodeId) : Option Entry := s.slots[id]?.join

/-- The number of entries. -/
def size (s : SymbolTable) : Nat := s.slots.toList.countP Option.isSome

/-- The table with an entry for a node. -/
def insert (s : SymbolTable) (id : NodeId) (entry : Entry)
    (h : s.tree.symbol? id = some entry.symbol) : SymbolTable :=
  { s with
    slots := s.slots.setIfInBounds id (some entry)
    size_slots := by simp [s.size_slots]
    symbol?_of_slot := by
      intro id' entry' h'
      rw [Array.getElem?_setIfInBounds] at h'
      split at h'
      · next heq =>
        subst heq
        split at h' <;> simp_all
      · exact s.symbol?_of_slot h' }

/-- The entry of a node: the one that is kept, or a new one for the symbol that the node declares. A
node that declares nothing has none. -/
def lookup (s : SymbolTable) (id : NodeId) : Option Entry × SymbolTable :=
  match s.cached? id with
  | some entry => (some entry, s)
  | none =>
    match h : s.tree.symbol? id with
    | some symbol => (some ⟨symbol, s.size⟩, s.insert id ⟨symbol, s.size⟩ h)
    | none => (none, s)

@[simp] theorem tree_ofTree (tree : Tree) : (ofTree tree).tree = tree := rfl

@[simp] theorem tree_lookup (s : SymbolTable) (id : NodeId) : (s.lookup id).2.tree = s.tree := by
  unfold lookup
  split
  · rfl
  · split <;> rfl

/-- The answer to a look-up is the symbol that the node declares. -/
theorem symbol_lookup (s : SymbolTable) (id : NodeId) :
    (s.lookup id).1.map Entry.symbol = s.tree.symbol? id := by
  unfold lookup
  split
  · next entry h =>
    rw [s.symbol?_of_slot (Option.join_eq_some_iff.1 h)]
    rfl
  · split
    · next h => exact h.symm
    · next h => exact h.symm

theorem lt_size_of_symbol? {t : Tree} {id : NodeId} {symbol : Symbol}
    (h : t.symbol? id = some symbol) : id < t.size := by
  obtain ⟨kind, hkind, -⟩ := Option.bind_eq_some_iff.1 h
  obtain ⟨node, hnode, -⟩ := Option.map_eq_some_iff.1 hkind
  exact (Array.getElem?_eq_some_iff.1 hnode).1

@[simp] theorem cached?_insert (s : SymbolTable) (id id' : NodeId) (entry : Entry)
    (h : s.tree.symbol? id = some entry.symbol) :
    (s.insert id entry h).cached? id' = if id = id' then some entry else s.cached? id' := by
  have hlt : id < s.slots.size := s.size_slots ▸ lt_size_of_symbol? h
  simp only [cached?, insert, Array.getElem?_setIfInBounds, hlt, if_true]
  split <;> rfl

/-- A look-up answers with the entry that is kept afterwards. -/
theorem cached?_lookup_self (s : SymbolTable) (id : NodeId) :
    (s.lookup id).2.cached? id = (s.lookup id).1 := by
  unfold lookup
  split
  · assumption
  · split
    · simp
    · assumption

/-- An entry that is kept once is kept for good. -/
theorem cached?_lookup_of_some {s : SymbolTable} {id id' : NodeId} {entry : Entry}
    (h : s.cached? id' = some entry) : (s.lookup id).2.cached? id' = some entry := by
  unfold lookup
  split
  · exact h
  · next hnone =>
    split
    · rw [cached?_insert, if_neg (by rintro rfl; simp [h] at hnone), h]
    · exact h

/-- Looks up a node and keeps quiet about a symbol that is not of the wanted kind. -/
def lookupAs (s : SymbolTable) (kind : Option SymbolKind) (id : NodeId) :
    Option Entry × SymbolTable :=
  ((s.lookup id).1.filter (·.symbol.matchesKind kind), (s.lookup id).2)

/-- Looks up the listed nodes in order and collects the entries of the wanted kind. Given a number
of entries, it stops as soon as it has that many. -/
def collect (s : SymbolTable) (kind : Option SymbolKind) :
    Option Nat → List NodeId → List Entry × SymbolTable
  | some 0, _ => ([], s)
  | _, [] => ([], s)
  | wanted, id :: ids =>
    match s.lookupAs kind id with
    | (some entry, s') =>
      let rest := s'.collect kind (wanted.map (· - 1)) ids
      (entry :: rest.1, rest.2)
    | (none, s') => s'.collect kind wanted ids

@[simp] theorem tree_lookupAs (s : SymbolTable) (kind : Option SymbolKind) (id : NodeId) :
    (s.lookupAs kind id).2.tree = s.tree := tree_lookup s id

@[simp] theorem tree_collect (s : SymbolTable) (kind : Option SymbolKind) (wanted : Option Nat)
    (ids : List NodeId) : (s.collect kind wanted ids).2.tree = s.tree := by
  fun_induction s.collect kind wanted ids with
  | case1 => rfl
  | case2 => rfl
  | case3 s wanted id ids _ entry s' h rest ih =>
    have := tree_lookupAs s kind id
    rw [h] at this
    exact ih.trans this
  | case4 s wanted id ids _ s' h ih =>
    have := tree_lookupAs s kind id
    rw [h] at this
    exact ih.trans this

/-- The entries of the wanted kind in preorder, all of them or only so many. -/
def list (s : SymbolTable) (kind : Option SymbolKind) (wanted : Option Nat) :
    List Entry × SymbolTable :=
  s.collect kind wanted (s.tree.preorder s.tree.root)

/-- The entry of the nearest module above a node. -/
def containingModule (s : SymbolTable) (id : NodeId) : Option Entry × SymbolTable :=
  match s.tree.enclosingModule? id with
  | some m => s.lookupAs (some .moduleSymbol) m
  | none => (none, s)

@[simp] theorem tree_list (s : SymbolTable) (kind : Option SymbolKind) (wanted : Option Nat) :
    (s.list kind wanted).2.tree = s.tree := tree_collect s kind wanted _

@[simp] theorem tree_containingModule (s : SymbolTable) (id : NodeId) :
    (s.containingModule id).2.tree = s.tree := by
  unfold containingModule
  split
  · exact tree_lookupAs s _ _
  · rfl

/-! ### Queries -/

/-- A question to a symbol table. -/
inductive Query
  /-- The symbol that a node declares, if it is of the wanted kind. -/
  | declared (kind : Option SymbolKind) (id : NodeId)
  /-- The symbols of a kind in preorder, all of them or only so many. -/
  | list (kind : Option SymbolKind) (wanted : Option Nat)
  /-- The symbol of the nearest module above a node. -/
  | containingModule (id : NodeId)
  deriving DecidableEq

/-- The answer to a query, with the table that it leaves behind. A question about a number that is
no node's is refused. -/
def ask (s : SymbolTable) : Query → Except Defect (List Entry) × SymbolTable
  | .declared kind id =>
    match s.tree.checked id () with
    | .error d => (.error d, s)
    | .ok () => (.ok (s.lookupAs kind id).1.toList, (s.lookupAs kind id).2)
  | .list kind wanted => (.ok (s.list kind wanted).1, (s.list kind wanted).2)
  | .containingModule id =>
    match s.tree.checked id () with
    | .error d => (.error d, s)
    | .ok () => (.ok (s.containingModule id).1.toList, (s.containingModule id).2)

@[simp] theorem tree_ask (s : SymbolTable) (query : Query) : (s.ask query).2.tree = s.tree := by
  cases query with
  | declared kind id =>
    rw [ask]
    split
    · rfl
    · exact tree_lookupAs s kind id
  | list kind wanted => exact tree_list s kind wanted
  | containingModule id =>
    rw [ask]
    split
    · rfl
    · exact tree_containingModule s id

end SymbolTable

end ProgramCheck
