import ProgramCheck.Proofs.StackListing
import ProgramCheck.Proofs.SymbolQueries

/-!
# Complete listings

A complete listing goes through the tree in preorder and answers with what is kept of the nodes that
declare a symbol of the wanted kind. Every node of the tree is passed once, so every declaring node
is listed once, whatever the table has kept before. A symbol that is listed says what its node says,
and the table gives it again when it is asked for the node.
-/

namespace ProgramCheck

/-! ### What a node declares -/

namespace NodeKind

/-- The kind of the symbol that a node declares, if it declares one. -/
def declaredKind? : NodeKind → Option SymbolKind
  | .moduleDecl _ => some .moduleSymbol
  | .functionDecl _ => some .function
  | .parameterDecl _ => some .parameter
  | .statement (.declaration ..) => some .localVariable
  | .structDecl _ => some .struct
  | .fieldDecl _ => some .field
  | _ => none

/-- The name that a node declares. -/
def declaredName? : NodeKind → Option String
  | .moduleDecl m => some m.name
  | .functionDecl f => some f.name
  | .parameterDecl p => some p.name
  | .statement (.declaration name _ _) => some name
  | .structDecl s => some s.name
  | .fieldDecl f => some f.name
  | _ => none

/-- The type that a node gives to the variable, the parameter or the field that it declares. -/
def declaredType? : NodeKind → Option TypeRef
  | .parameterDecl p => some p.type
  | .statement (.declaration _ type _) => some type
  | .fieldDecl f => some f.type
  | _ => none

/-- The return type of the function that a node declares. -/
def declaredReturnType? : NodeKind → Option TypeRef
  | .functionDecl f => some f.returnType
  | _ => none

/-- The modifiers of the function or the struct that a node declares. -/
def declaredModifiers : NodeKind → Modifiers
  | .functionDecl f => f.modifiers
  | .structDecl s => s.modifiers
  | _ => {}

end NodeKind

/-- Whether a symbol says of a node what the node says of itself. -/
structure Symbol.Describes (s : Symbol) (id : NodeId) (k : NodeKind) : Prop where
  declaration : s.declaration = id
  kind : k.declaredKind? = some s.kind
  name : k.declaredName? = some s.name
  type : k.declaredType? = s.type?
  returnType : k.declaredReturnType? = s.returnType?
  modifiers : k.declaredModifiers = s.modifiers

/-- The symbol of a node describes it. -/
theorem NodeKind.describes_of_symbol? {k : NodeKind} {id : NodeId} {s : Symbol}
    (h : k.symbol? id = some s) : s.Describes id k := by
  unfold NodeKind.symbol? at h
  split at h <;> cases h <;> exact ⟨rfl, rfl, rfl, rfl, rfl, rfl⟩

theorem NodeKind.map_kind_symbol? (k : NodeKind) (id : NodeId) :
    (k.symbol? id).map Symbol.kind = k.declaredKind? := by
  cases k with
  | statement s => cases s <;> rfl
  | _ => rfl

namespace Forest

variable {f : Forest} {id : NodeId} {kind : Option SymbolKind}

/-- Whether a node declares a symbol of the wanted kind, where no kind stands for any. -/
def declaresKind (f : Forest) (kind : Option SymbolKind) (id : NodeId) : Bool :=
  ((f.kind? id).bind NodeKind.declaredKind?).any fun k => kind.all (k == ·)

/-- Whether a node declares a symbol shows in its symbol. -/
theorem any_symbol? (f : Forest) (kind : Option SymbolKind) (id : NodeId) :
    (f.symbol? id).any (·.matchesKind kind) = f.declaresKind kind id := by
  rw [symbol?, declaresKind]
  cases f.kind? id with
  | none => rfl
  | some k =>
    rw [Option.bind_some, Option.bind_some, ← k.map_kind_symbol? id, Option.any_map]
    refine congrArg (Option.any · _) (funext fun s => ?_)
    cases kind with
    | none => rfl
    | some kind => rfl

theorem isSome_symbol? (f : Forest) (id : NodeId) :
    (f.symbol? id).isSome = f.declaresKind none id := by
  rw [← any_symbol?]
  cases f.symbol? id <;> rfl

theorem declaresKind_none_of_declaresKind (h : f.declaresKind kind id = true) :
    f.declaresKind none id = true := by
  rw [declaresKind, Option.any_eq_true] at h ⊢
  obtain ⟨k, hk, -⟩ := h
  exact ⟨k, hk, rfl⟩

theorem describes_of_symbol? {s : Symbol} (h : f.symbol? id = some s) :
    ∃ k, f.kind? id = some k ∧ s.Describes id k := by
  obtain ⟨k, hk, hs⟩ := Option.bind_eq_some_iff.1 h
  exact ⟨k, hk, NodeKind.describes_of_symbol? hs⟩

end Forest

/-- Every declaring node is a node of the tree, and so a listing comes by it. -/
theorem Tree.mem_filter_declaresKind_iff {t : Tree} {kind : Option SymbolKind} {id : NodeId} :
    id ∈ (t.preorder t.root).filter (t.declaresKind kind) ↔ t.declaresKind kind id = true := by
  rw [List.mem_filter]
  refine ⟨And.right, fun h => ⟨?_, h⟩⟩
  rw [← Forest.any_symbol?, Option.any_eq_true] at h
  obtain ⟨symbol, hsymbol, -⟩ := h
  exact mem_preorder_root_iff.2 (SymbolTable.lt_size_of_symbol? hsymbol)

/-! ### Reading in one table -/

section Wanted

variable {α β : Type} {hit : α → Bool} {wanted : Option Nat}

theorem map_atMost (g : α → β) (xs : List α) :
    (atMost wanted xs).map g = atMost wanted (xs.map g) := by
  cases wanted with
  | none => rfl
  | some k => exact List.map_take

theorem upTo_map (g : α → β) (hit : β → Bool) (wanted : Option Nat) (xs : List α) :
    upTo hit wanted (xs.map g) = (upTo (hit ∘ g) wanted xs).map g := by
  induction xs generalizing wanted with
  | nil => simp
  | cons x xs ih =>
    by_cases hwanted : wanted = some 0
    · subst hwanted
      simp
    · rw [List.map_cons, upTo_cons hwanted, upTo_cons hwanted, List.map_cons, ih]
      rfl

end Wanted

namespace SymbolTable

variable {s : SymbolTable} {id : NodeId} {entry : Entry} {kind : Option SymbolKind}

/-- What is kept for a node is what is answered for it, and nothing is added. -/
theorem lookup_of_cached? (h : s.cached? id = some entry) : s.lookup id = (some entry, s) := by
  rw [lookup, h]

/-- Looking up some nodes in a table is consulting them in the compilation of this table alone. -/
theorem consult_singleton (s : SymbolTable) (ids : List NodeId) :
    (Compilation.mk [s] {}).consult (ids.map (0, ·)) = ⟨[s.lookupEach ids], {}⟩ := by
  refine Compilation.eq_of_getElem?_tables rfl fun i => ?_
  rw [Compilation.getElem?_tables_consult, Compilation.map_snd_filter_pair]
  cases i with
  | zero => rfl
  | succ i => rfl

/-- Reading in a table is reading in the compilation of this table alone. -/
theorem collect_singleton (s : SymbolTable) (kind : Option SymbolKind) (wanted : Option Nat)
    (ids : List NodeId) :
    (Compilation.mk [s] {}).collect kind wanted (ids.map (0, ·)) =
      ((s.collect kind wanted ids).1, ⟨[(s.collect kind wanted ids).2], {}⟩) :=
  Compilation.collect_map_pair rfl kind wanted ids

theorem cached?_lookupEach_of_some (ids : List NodeId) (h : s.cached? id = some entry) :
    (s.lookupEach ids).cached? id = some entry := by
  have hkept := Compilation.cachedAt?_consult_of_some (c := ⟨[s], {}⟩) (n := (0, id))
    (ids.map (0, ·)) h
  rw [consult_singleton] at hkept
  exact hkept

theorem map_symbol_cached?_lookupEach (s : SymbolTable) (ids : List NodeId) (id : NodeId) :
    ((s.lookupEach ids).cached? id).map Entry.symbol =
      if id ∈ ids then s.tree.symbol? id else (s.cached? id).map Entry.symbol := by
  have hkept := Compilation.map_symbol_cachedAt?_consult ⟨[s], {}⟩ (ids.map (0, ·)) (0, id)
  rw [consult_singleton] at hkept
  simpa [Compilation.cachedAt?, symbolAt?, Compilation.trees] using hkept

/-- **What reading in a table does**: it looks up the nodes as far as it has to, and answers with
what is kept of the first nodes that declare a symbol of the wanted kind. -/
theorem collect_eq (s : SymbolTable) (kind : Option SymbolKind) (wanted : Option Nat)
    (ids : List NodeId) :
    let after := (s.collect kind wanted ids).2
    after = s.lookupEach (upTo (s.tree.declaresKind kind) wanted ids) ∧
      (s.collect kind wanted ids).1.map some =
        (atMost wanted (ids.filter (s.tree.declaresKind kind))).map after.cached? := by
  have hdeclares : (declares (Compilation.mk [s] {}).trees kind) ∘ (0, ·) =
      s.tree.declaresKind kind := by
    funext id
    exact s.tree.any_symbol? kind id
  obtain ⟨hafter, hentries⟩ :=
    Compilation.collect_eq ⟨[s], {}⟩ kind wanted (ids.map ((0, ·) : NodeId → Nat × NodeId))
  rw [collect_singleton, upTo_map, hdeclares, consult_singleton] at hafter
  rw [collect_singleton, List.filter_map, hdeclares, ← map_atMost, List.map_map] at hentries
  exact ⟨by simpa using hafter, hentries⟩

theorem symbol?_of_cached? (h : s.cached? id = some entry) :
    s.tree.symbol? id = some entry.symbol :=
  s.symbol?_of_slot (Option.join_eq_some_iff.1 h)

/-- What is kept of some nodes is declared by these nodes. -/
theorem map_declaration_of_map_cached? {entries : List Entry} {ids : List NodeId}
    (h : entries.map some = ids.map s.cached?) :
    entries.map (·.symbol.declaration) = ids := by
  induction ids generalizing entries with
  | nil => simpa using h
  | cons id ids ih =>
    cases entries with
    | nil => cases h
    | cons entry entries =>
      obtain ⟨hentry, hentries⟩ := List.cons.inj h
      have hid := Forest.declaration_of_symbol? (symbol?_of_cached? hentry.symm)
      rw [List.map_cons, ih hentries, hid]

/-- What is read is declared by the first nodes that declare a symbol of the wanted kind, and kept
for these nodes from then on. -/
theorem map_declaration_collect (s : SymbolTable) (kind : Option SymbolKind) (wanted : Option Nat)
    (ids : List NodeId) :
    (s.collect kind wanted ids).1.map (·.symbol.declaration) =
        atMost wanted (ids.filter (s.tree.declaresKind kind)) ∧
      ∀ entry ∈ (s.collect kind wanted ids).1,
        (s.collect kind wanted ids).2.cached? entry.symbol.declaration = some entry := by
  obtain ⟨-, hentries⟩ := s.collect_eq kind wanted ids
  refine ⟨map_declaration_of_map_cached? hentries, fun entry hentry => ?_⟩
  obtain ⟨id, -, hid⟩ := List.mem_map.1 (hentries ▸ List.mem_map_of_mem (f := some) hentry)
  rw [Forest.declaration_of_symbol? (symbol?_of_cached? hid), hid]

end SymbolTable

namespace Compilation

/-- Table by table, a complete listing is that of the table. -/
theorem listTables_none_eq (kind : Option SymbolKind) (tables : List SymbolTable) :
    listTables kind none tables =
      (tables.flatMap fun s => (s.list kind none).1, tables.map fun s => (s.list kind none).2) := by
  induction tables with
  | nil => rfl
  | cons s tables ih =>
    rw [listTables, Option.map_none, ih]
    rfl

/-- **Complete listings.** The listing of a tree names the nodes that declare a symbol of the wanted
kind in preorder, each such node of the tree once and no other. A listed symbol is the one that was
kept for its node before, if any was; it describes the node, and when the node is looked up it is
given again and nothing changes. All trees together are listed one after the other, in the order of
registration. -/
theorem list_complete (c : Compilation) (kind : Option SymbolKind) :
    (∀ s : SymbolTable,
      let listing := (s.list kind none).1
      let after := (s.list kind none).2
      listing.map (·.symbol.declaration) =
        (s.tree.preorder s.tree.root).filter (s.tree.declaresKind kind) ∧
      (∀ id, (listing.map (·.symbol.declaration)).count id =
        if s.tree.declaresKind kind id then 1 else 0) ∧
      ∀ entry ∈ listing,
        entry.symbol.matchesKind kind = true ∧
        (∃ k, s.tree.kind? entry.symbol.declaration = some k ∧
          entry.symbol.Describes entry.symbol.declaration k) ∧
        after.lookup entry.symbol.declaration = (some entry, after) ∧
        ∀ before, s.cached? entry.symbol.declaration = some before → before = entry) ∧
    (c.list kind none).1 = c.tables.flatMap (fun s => (s.list kind none).1) ∧
    (c.list kind none).2.tables = c.tables.map fun s => (s.list kind none).2 := by
  refine ⟨fun s => ?_, congrArg Prod.fst (listTables_none_eq kind c.tables),
    congrArg Prod.snd (listTables_none_eq kind c.tables)⟩
  intro listing after
  have htree : after.tree = s.tree := s.tree_list kind none
  have hafter : after = s.lookupEach (s.tree.preorder s.tree.root) :=
    (s.collect_eq kind none (s.tree.preorder s.tree.root)).1
  obtain ⟨hdeclarations, hkept⟩ :
      listing.map (·.symbol.declaration) =
        (s.tree.preorder s.tree.root).filter (s.tree.declaresKind kind) ∧
      ∀ entry ∈ listing, after.cached? entry.symbol.declaration = some entry :=
    s.map_declaration_collect kind none (s.tree.preorder s.tree.root)
  refine ⟨hdeclarations, fun id => ?_, fun entry hentry => ?_⟩
  · have hnodup := (s.tree.nodup_preorder s.tree.root).filter (s.tree.declaresKind kind)
    rw [hdeclarations]
    simp only [hnodup.count, Tree.mem_filter_declaresKind_iff]
  · have hcached := hkept entry hentry
    have hsymbol : s.tree.symbol? entry.symbol.declaration = some entry.symbol :=
      htree ▸ SymbolTable.symbol?_of_cached? hcached
    refine ⟨?_, Forest.describes_of_symbol? hsymbol, SymbolTable.lookup_of_cached? hcached, ?_⟩
    · have hdeclares : entry.symbol.declaration ∈ listing.map (·.symbol.declaration) :=
        List.mem_map_of_mem hentry
      rw [hdeclarations, Tree.mem_filter_declaresKind_iff, ← Forest.any_symbol?,
        hsymbol] at hdeclares
      exact hdeclares
    · intro before hbefore
      have hstays : after.cached? entry.symbol.declaration = some before :=
        hafter ▸ SymbolTable.cached?_lookupEach_of_some _ hbefore
      exact Option.some.inj (hstays.symm.trans hcached)

/-- Where the symbol of the variable is kept already, the listing of all symbols gives this one, in
its place behind the module, the function and the parameters. -/
theorem list_complete_branchTree :
    let s := ((SymbolTable.ofTree branchTree).lookup 6).2
    (s.list none none).1.map (·.symbol.declaration) = [11, 10, 0, 1, 6] ∧
      ∃ entry ∈ (s.list none none).1, entry.symbol.name = "x" ∧
        entry.symbol.type? = some .i32 ∧ s.cached? 6 = some entry := by
  intro s
  obtain ⟨hlist, -⟩ := list_complete ⟨[s], {}⟩ none
  obtain ⟨hdeclarations, -, hentries⟩ := hlist s
  have htree : s.tree = branchTree := SymbolTable.tree_lookup _ 6
  have hnodes : (branchTree.preorder branchTree.root).filter (branchTree.declaresKind none) =
      [11, 10, 0, 1, 6] := by
    decide +kernel
  rw [htree, hnodes] at hdeclarations
  refine ⟨hdeclarations, ?_⟩
  obtain ⟨entry, hentry, hid⟩ : ∃ entry ∈ (s.list none none).1, entry.symbol.declaration = 6 :=
    List.mem_map.1 (by rw [hdeclarations]; simp)
  obtain ⟨-, ⟨k, hk, hdescribes⟩, -, hkept⟩ := hentries entry hentry
  rw [hid] at hk hkept
  have hnode : branchTree.kind? 6 = some (.statement (.declaration "x" .i32 5)) := by
    decide +kernel
  obtain rfl : NodeKind.statement (.declaration "x" .i32 5) = k :=
    Option.some.inj (hnode.symm.trans (htree ▸ hk))
  refine ⟨entry, hentry, (Option.some.inj hdescribes.name).symm, hdescribes.type.symm, ?_⟩
  have hcached : s.cached? 6 = ((SymbolTable.ofTree branchTree).lookup 6).1 :=
    SymbolTable.cached?_lookup_self _ 6
  have hsome : ((SymbolTable.ofTree branchTree).lookup 6).1.isSome = true := by decide +kernel
  obtain ⟨before, hbefore⟩ := Option.isSome_iff_exists.1 hsome
  rw [hcached, hbefore, hkept before (hcached.trans hbefore)]

end Compilation

end ProgramCheck
