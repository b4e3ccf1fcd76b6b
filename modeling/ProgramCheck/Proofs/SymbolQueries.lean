import Mathlib.Data.List.Infix
import ProgramCheck.Proofs.TableReads

/-!
# Queries to the symbol tables

A compilation answers questions about single nodes, lists the symbols of one tree or of all trees as
far as they are wanted, and goes on with listings that were left off. All of these come down to one
way of reading: go over some nodes in order, look up each of them, and stop once there are as many
symbols as are wanted. So what a query leaves behind is what is left behind by looking up the nodes
that it reads, and what it answers is what is kept of these nodes from then on.
-/

namespace ProgramCheck

/-! ### As many as are wanted -/

section Wanted

variable {α : Type}

/-- The first members of a list, all of them or only so many. -/
def atMost (wanted : Option Nat) (xs : List α) : List α :=
  match wanted with
  | none => xs
  | some k => xs.take k

/-- The shortest initial part of a list that has as many hits as are wanted, or else the whole
list. -/
def upTo (hit : α → Bool) (wanted : Option Nat) (xs : List α) : List α :=
  match wanted with
  | none => xs
  | some k => (xs.inits.find? fun part => part.countP hit == k).getD xs

variable {hit : α → Bool} {wanted : Option Nat} {x : α} {xs : List α}

@[simp] theorem atMost_none : atMost none xs = xs := rfl

@[simp] theorem atMost_zero : atMost (some 0) xs = [] := rfl

@[simp] theorem atMost_nil : atMost wanted ([] : List α) = [] := by cases wanted <;> simp [atMost]

theorem atMost_cons (h : wanted ≠ some 0) :
    atMost wanted (x :: xs) = x :: atMost (wanted.map (· - 1)) xs := by
  cases wanted with
  | none => rfl
  | some k => cases k with
    | zero => exact absurd rfl h
    | succ k => rfl

@[simp] theorem upTo_none : upTo hit none xs = xs := rfl

@[simp] theorem upTo_zero : upTo hit (some 0) xs = [] := by cases xs <;> simp [upTo]

@[simp] theorem upTo_nil : upTo hit wanted [] = [] := by
  cases wanted with
  | none => rfl
  | some k => cases k <;> simp [upTo]

/-- A hit in front makes for one less that is wanted behind it. -/
theorem upTo_cons (h : wanted ≠ some 0) :
    upTo hit wanted (x :: xs) =
      x :: upTo hit (if hit x then wanted.map (· - 1) else wanted) xs := by
  cases wanted with
  | none => simp
  | some k =>
    have hk : k ≠ 0 := fun hk => h (congrArg some hk)
    -- an initial part behind `x` has all hits that are wanted if it makes up for those but `x`
    have hcount : (fun part => List.countP hit (x :: part) == k) =
        fun part => part.countP hit == if hit x then k - 1 else k := by
      funext part
      rw [List.countP_cons, Bool.eq_iff_iff, beq_iff_eq, beq_iff_eq]
      split <;> omega
    have hfind : (List.inits (x :: xs)).find? (fun part => part.countP hit == k) =
        ((xs.inits.find? fun part => part.countP hit == if hit x then k - 1 else k)).map
          (List.cons x) := by
      rw [List.inits_cons, List.find?_cons_of_neg (by simpa using Ne.symm hk), List.find?_map,
        Function.comp_def, hcount]
    have hwanted : (if hit x then (some k).map (· - 1) else some k) =
        some (if hit x then k - 1 else k) := by
      split <;> rfl
    rw [hwanted, upTo, hfind, upTo]
    cases xs.inits.find? fun part => part.countP hit == if hit x then k - 1 else k <;> rfl

end Wanted

/-! ### Single nodes -/

namespace SymbolTable

theorem cached?_lookup_of_ne (s : SymbolTable) {id id' : NodeId} (h : id ≠ id') :
    (s.lookup id).2.cached? id' = s.cached? id' := by
  unfold lookup
  split
  · rfl
  · split
    · rw [cached?_insert, if_neg h]
    · rfl

theorem ask_declared_of_le {s : SymbolTable} {kind : Option SymbolKind} {id : NodeId}
    (h : s.tree.size ≤ id) :
    s.ask (.declared kind id) = (.error (.foreignNode id s.tree.name), s) := by
  rw [ask, Tree.checked, if_neg (Nat.not_lt.2 h)]

theorem ask_containingModule_of_le {s : SymbolTable} {id : NodeId} (h : s.tree.size ≤ id) :
    s.ask (.containingModule id) = (.error (.foreignNode id s.tree.name), s) := by
  rw [ask, Tree.checked, if_neg (Nat.not_lt.2 h)]

/-- The symbol of a node of the tree is asked for by reading this node. -/
theorem ask_declared_of_lt {s : SymbolTable} {kind : Option SymbolKind} {id : NodeId}
    (h : id < s.tree.size) :
    s.ask (.declared kind id) =
      (.ok (s.collect kind none [id]).1, (s.collect kind none [id]).2) := by
  rw [ask, Tree.checked, if_pos h]
  simp only [collect]
  cases s.lookupAs kind id with
  | mk entry? s' => cases entry? <;> rfl

/-- The symbol of the module above a node is asked for by reading the nearest module above it. -/
theorem ask_containingModule_of_lt {s : SymbolTable} {id : NodeId} (h : id < s.tree.size) :
    let nodes := (s.tree.enclosingModule? id).toList
    s.ask (.containingModule id) =
      (.ok (s.collect (some .moduleSymbol) none nodes).1,
        (s.collect (some .moduleSymbol) none nodes).2) := by
  rw [ask, Tree.checked, if_pos h, containingModule]
  cases s.tree.enclosingModule? id with
  | none => rfl
  | some m =>
    simp only [Option.toList_some, collect]
    cases s.lookupAs (some .moduleSymbol) m with
    | mk entry? s' => cases entry? <;> rfl

end SymbolTable

/-- The symbol that a node declares, where the node is named with the place of its tree. -/
def symbolAt? (trees : List Tree) (n : Nat × NodeId) : Option Symbol :=
  trees[n.1]?.bind fun t => t.symbol? n.2

/-- Whether a node declares a symbol, and one of the wanted kind. -/
def declares (trees : List Tree) (kind : Option SymbolKind) (n : Nat × NodeId) : Bool :=
  (symbolAt? trees n).any (·.matchesKind kind)

namespace Compilation

variable {c : Compilation} {n m : Nat × NodeId} {entry : Entry}

/-- The entry that is kept for a node. -/
def cachedAt? (c : Compilation) (n : Nat × NodeId) : Option Entry :=
  c.tables[n.1]?.bind fun s => s.cached? n.2

theorem tables_consult_singleton (c : Compilation) (n : Nat × NodeId) :
    (c.consult [n]).tables = c.tables.modify n.1 fun s => (s.lookup n.2).2 := rfl

theorem consult_cons (c : Compilation) (n : Nat × NodeId) (nodes : List (Nat × NodeId)) :
    c.consult (n :: nodes) = (c.consult [n]).consult nodes := rfl

/-- Only the entry of the node itself can change when a node is looked up. -/
theorem cachedAt?_consult_singleton_of_ne (h : n ≠ m) :
    (c.consult [n]).cachedAt? m = c.cachedAt? m := by
  rw [cachedAt?, cachedAt?, tables_consult_singleton, List.getElem?_modify]
  by_cases hplace : n.1 = m.1
  · have hid : n.2 ≠ m.2 := fun hid => h (Prod.ext hplace hid)
    cases c.tables[m.1]? with
    | none => rfl
    | some s =>
      simp only [hplace, if_true, Option.map_eq_map, Option.map_some, Option.bind_some]
      exact s.cached?_lookup_of_ne hid
  · cases c.tables[m.1]? <;> simp [hplace]

/-- The kept entry of a node holds the symbol that the node declares. -/
theorem symbolAt?_of_cachedAt? (h : c.cachedAt? n = some entry) :
    symbolAt? c.trees n = some entry.symbol := by
  obtain ⟨s, hs, hentry⟩ := Option.bind_eq_some_iff.1 h
  rw [symbolAt?, Compilation.trees, List.getElem?_map, hs]
  exact s.symbol?_of_slot (Option.join_eq_some_iff.1 hentry)

/-- A node that has been looked up has an entry if it declares a symbol. -/
theorem map_symbol_cachedAt?_consult_self (c : Compilation) (n : Nat × NodeId) :
    ((c.consult [n]).cachedAt? n).map Entry.symbol = symbolAt? c.trees n := by
  rw [cachedAt?, tables_consult_singleton, List.getElem?_modify, symbolAt?, Compilation.trees,
    List.getElem?_map]
  cases c.tables[n.1]? with
  | none => rfl
  | some s =>
    simp only [if_true, Option.map_eq_map, Option.map_some, Option.bind_some]
    rw [SymbolTable.cached?_lookup_self, SymbolTable.symbol_lookup]

/-- What is kept stays, whatever else is looked up. -/
theorem cachedAt?_consult_of_some (nodes : List (Nat × NodeId)) (h : c.cachedAt? n = some entry) :
    (c.consult nodes).cachedAt? n = some entry := by
  induction nodes generalizing c with
  | nil => exact h
  | cons m nodes ih =>
    rw [consult_cons]
    refine ih ?_
    by_cases hm : m = n
    · subst hm
      obtain ⟨s, hs, hentry⟩ := Option.bind_eq_some_iff.1 h
      rw [cachedAt?, tables_consult_singleton, List.getElem?_modify, hs]
      simpa using SymbolTable.cached?_lookup_of_some hentry
    · rw [cachedAt?_consult_singleton_of_ne hm, h]

/-- The symbols that are kept after some nodes have been looked up are those of these nodes, and
those that were kept before. -/
theorem map_symbol_cachedAt?_consult (c : Compilation) (nodes : List (Nat × NodeId))
    (n : Nat × NodeId) :
    ((c.consult nodes).cachedAt? n).map Entry.symbol =
      if n ∈ nodes then symbolAt? c.trees n else (c.cachedAt? n).map Entry.symbol := by
  induction nodes generalizing c with
  | nil => rfl
  | cons m nodes ih =>
    rw [consult_cons, ih, trees_consult]
    by_cases hm : m = n
    · subst hm
      simp [map_symbol_cachedAt?_consult_self]
    · rw [cachedAt?_consult_singleton_of_ne hm]
      simp [Ne.symm hm]

/-! ### One way of reading -/

section Reading

variable {kind : Option SymbolKind} {wanted : Option Nat}

/-- Looks up a node and keeps quiet about a symbol that is not of the wanted kind. -/
def lookupAs (c : Compilation) (kind : Option SymbolKind) (n : Nat × NodeId) :
    Option Entry × Compilation :=
  match c.tables[n.1]? with
  | none => (none, c)
  | some s =>
    ((s.lookupAs kind n.2).1, { c with tables := c.tables.set n.1 (s.lookupAs kind n.2).2 })

/-- Looks up the listed nodes in order and collects the entries of the wanted kind. Given a number
of entries, it stops as soon as it has that many. -/
def collect (c : Compilation) (kind : Option SymbolKind) :
    Option Nat → List (Nat × NodeId) → List Entry × Compilation
  | some 0, _ => ([], c)
  | _, [] => ([], c)
  | wanted, n :: nodes =>
    match c.lookupAs kind n with
    | (some entry, c') =>
      let rest := c'.collect kind (wanted.map (· - 1)) nodes
      (entry :: rest.1, rest.2)
    | (none, c') => c'.collect kind wanted nodes

@[simp] theorem collect_zero (c : Compilation) (nodes : List (Nat × NodeId)) :
    c.collect kind (some 0) nodes = ([], c) := by
  cases nodes <;> rfl

@[simp] theorem collect_nil (c : Compilation) (kind : Option SymbolKind) (wanted : Option Nat) :
    c.collect kind wanted [] = ([], c) := by
  cases wanted with
  | none => rfl
  | some k => cases k <;> rfl

theorem lookupAs_snd (c : Compilation) (kind : Option SymbolKind) (n : Nat × NodeId) :
    (c.lookupAs kind n).2 = c.consult [n] := by
  refine eq_of_getElem?_tables ?_ fun i => ?_
  · unfold lookupAs
    split <;> rfl
  · rw [tables_consult_singleton, List.getElem?_modify, lookupAs]
    cases hs : c.tables[n.1]? with
    | none =>
      by_cases hi : n.1 = i
      · subst hi
        simp [hs]
      · simp [hi]
    | some s =>
      obtain ⟨hlt, rfl⟩ := List.getElem?_eq_some_iff.1 hs
      simp only [List.getElem?_set]
      by_cases hi : n.1 = i
      · subst hi
        simp [hlt, SymbolTable.lookupAs]
      · simp [hi]

/-- A look-up answers with the entry that is kept from then on, if it is of the wanted kind. -/
theorem lookupAs_fst (c : Compilation) (kind : Option SymbolKind) (n : Nat × NodeId) :
    (c.lookupAs kind n).1 =
      ((c.consult [n]).cachedAt? n).filter (·.symbol.matchesKind kind) := by
  rw [cachedAt?, tables_consult_singleton, List.getElem?_modify, lookupAs]
  cases c.tables[n.1]? with
  | none => rfl
  | some s => simp [SymbolTable.lookupAs, SymbolTable.cached?_lookup_self]

/-- A look-up has an answer if the node declares a symbol of the wanted kind. -/
theorem isSome_lookupAs_fst (c : Compilation) (kind : Option SymbolKind) (n : Nat × NodeId) :
    (c.lookupAs kind n).1.isSome = declares c.trees kind n := by
  rw [lookupAs_fst, declares, ← map_symbol_cachedAt?_consult_self]
  cases (c.consult [n]).cachedAt? n with
  | none => rfl
  | some entry => cases h : entry.symbol.matchesKind kind <;> simp [h]

theorem cachedAt?_of_lookupAs_fst (h : (c.lookupAs kind n).1 = some entry) :
    (c.consult [n]).cachedAt? n = some entry := by
  rw [lookupAs_fst] at h
  exact (Option.filter_eq_some_iff.1 h).1

/-- **What reading does**: it looks up the nodes as far as it has to, and answers with what is kept
of the first nodes that declare a symbol of the wanted kind. -/
theorem collect_eq (c : Compilation) (kind : Option SymbolKind) (wanted : Option Nat)
    (nodes : List (Nat × NodeId)) :
    let after := (c.collect kind wanted nodes).2
    after = c.consult (upTo (declares c.trees kind) wanted nodes) ∧
      (c.collect kind wanted nodes).1.map some =
        (atMost wanted (nodes.filter (declares c.trees kind))).map after.cachedAt? := by
  induction nodes generalizing c wanted with
  | nil => simp
  | cons n nodes ih =>
    by_cases hwanted : wanted = some 0
    · subst hwanted
      simp
    have hnext := c.lookupAs_snd kind n
    have hhit := c.isSome_lookupAs_fst kind n
    rw [upTo_cons hwanted, consult_cons, List.filter_cons, collect]
    case x_2 =>
      intro h
      exact hwanted h
    have htrees : (c.consult [n]).trees = c.trees := trees_consult c [n]
    cases hanswer : c.lookupAs kind n with
    | mk entry? c' =>
      rw [hanswer] at hnext hhit
      obtain rfl : c' = c.consult [n] := hnext
      cases entry? with
      | none =>
        obtain ⟨hafter, hentries⟩ := ih (c.consult [n]) wanted
        rw [htrees] at hafter hentries
        simp only [← hhit, Option.isSome_none, Bool.false_eq_true, if_false]
        exact ⟨hafter, hentries⟩
      | some entry =>
        obtain ⟨hafter, hentries⟩ := ih (c.consult [n]) (wanted.map (· - 1))
        rw [htrees] at hafter hentries
        have hkept : (c.consult [n]).cachedAt? n = some entry :=
          cachedAt?_of_lookupAs_fst (by rw [hanswer])
        simp only [← hhit, Option.isSome_some, if_true]
        refine ⟨hafter, ?_⟩
        rw [atMost_cons hwanted, List.map_cons, List.map_cons, hentries, hafter,
          cachedAt?_consult_of_some _ hkept]

/-! ### Reading in parts -/

/-- Reading goes on behind some nodes with as many symbols less as these had. -/
theorem collect_append (c : Compilation) (kind : Option SymbolKind) (wanted : Option Nat)
    (xs ys : List (Nat × NodeId)) :
    c.collect kind wanted (xs ++ ys) =
      let first := c.collect kind wanted xs
      let rest := first.2.collect kind (wanted.map (· - first.1.length)) ys
      (first.1 ++ rest.1, rest.2) := by
  induction xs generalizing c wanted with
  | nil => cases wanted <;> simp
  | cons n xs ih =>
    by_cases hwanted : wanted = some 0
    · subst hwanted
      simp
    rw [List.cons_append, collect, collect]
    case x_2 => exact hwanted
    case x_2 => exact hwanted
    cases hanswer : c.lookupAs kind n with
    | mk entry? c' =>
      cases entry? with
      | none => exact ih c' wanted
      | some entry =>
        have hless : ∀ k, (wanted.map (· - 1)).map (· - k) = wanted.map (· - (k + 1)) := by
          intro k
          cases wanted with
          | none => rfl
          | some w => exact congrArg some ((Nat.sub_sub w 1 k).trans (by rw [Nat.add_comm 1]))
        simp only [ih, hless, List.length_cons, List.cons_append]

theorem set_table_self {s : SymbolTable} {i : Nat} (h : c.tables[i]? = some s) :
    { c with tables := c.tables.set i s } = c := by
  obtain ⟨hlt, rfl⟩ := List.getElem?_eq_some_iff.1 h
  simp

/-- Reading nodes of one tree is reading in its table. -/
theorem collect_map_pair {s : SymbolTable} {i : Nat} (h : c.tables[i]? = some s)
    (kind : Option SymbolKind) (wanted : Option Nat) (ids : List NodeId) :
    c.collect kind wanted (ids.map (i, ·)) =
      ((s.collect kind wanted ids).1,
        { c with tables := c.tables.set i (s.collect kind wanted ids).2 }) := by
  induction ids generalizing c s wanted with
  | nil =>
    cases wanted with
    | none => simp [SymbolTable.collect, set_table_self h]
    | some k => cases k <;> simp [SymbolTable.collect, set_table_self h]
  | cons id ids ih =>
    by_cases hwanted : wanted = some 0
    · subst hwanted
      simp [SymbolTable.collect, set_table_self h]
    rw [List.map_cons, collect, SymbolTable.collect]
    case x_2 => exact hwanted
    case x_2 => exact hwanted
    obtain ⟨hlt, -⟩ := List.getElem?_eq_some_iff.1 h
    simp only [lookupAs, h]
    cases hanswer : s.lookupAs kind id with
    | mk entry? s' =>
      have hnext : ({ c with tables := c.tables.set i s' } : Compilation).tables[i]? = some s' := by
        simp [hlt]
      cases entry? <;> simp [ih hnext]

/-- Reading the nodes of some tables at the end, table by table. -/
theorem collect_listTables (before tables : List SymbolTable) (report : Report)
    (kind : Option SymbolKind) (wanted : Option Nat) :
    collect ⟨before ++ tables, report⟩ kind wanted
        ((tables.map (·.tree)).mapIdx fun i t =>
          (t.preorder t.root).map (before.length + i, ·)).flatten =
      ((listTables kind wanted tables).1,
        ⟨before ++ (listTables kind wanted tables).2, report⟩) := by
  induction tables generalizing before wanted with
  | nil => simp [listTables]
  | cons s tables ih =>
    have hhere : (before ++ s :: tables)[before.length]? = some s := by simp
    have hset : (before ++ s :: tables).set before.length (s.list kind wanted).2 =
        (before ++ [(s.list kind wanted).2]) ++ tables := by simp
    have hrest := ih (before ++ [(s.list kind wanted).2])
      (wanted.map (· - (s.list kind wanted).1.length))
    simp only [List.length_append, List.length_singleton, Nat.add_assoc, Nat.add_comm 1] at hrest
    rw [List.map_cons, List.mapIdx_cons, List.flatten_cons, collect_append, Nat.add_zero,
      collect_map_pair hhere]
    have hlist : s.collect kind wanted (s.tree.preorder s.tree.root) = s.list kind wanted := rfl
    simp only [hlist, hset, hrest, listTables]
    rw [List.append_assoc, List.singleton_append]

/-- Listing the symbols of all trees is reading all nodes. -/
theorem list_eq_collect (c : Compilation) (kind : Option SymbolKind) (wanted : Option Nat) :
    c.list kind wanted = c.collect kind wanted c.allNodes := by
  have h := collect_listTables [] c.tables c.report kind wanted
  simp only [List.nil_append, List.length_nil, Nat.zero_add] at h
  exact h.symm

end Reading

/-! ### Queries -/

/-- A question to a compilation. -/
inductive Query
  /-- A question to the table of the tree at a place. -/
  | table (place : Nat) (query : SymbolTable.Query)
  /-- The symbols of a kind in all trees, all of them or only so many. -/
  | all (kind : Option SymbolKind) (wanted : Option Nat)
  /-- A listing that was left off goes on with the nodes that it still has before it. -/
  | resume (kind : Option SymbolKind) (wanted : Option Nat) (rest : List (Nat × NodeId))

/-- The answer to a query, with the compilation that it leaves behind. -/
def query (c : Compilation) : Query → Except Defect (List Entry) × Compilation
  | .table place query => c.ask place query
  | .all kind wanted => (.ok (c.list kind wanted).1, (c.list kind wanted).2)
  | .resume kind wanted rest => (.ok (c.collect kind wanted rest).1, (c.collect kind wanted rest).2)

/-- The compilation after some queries, whatever they answered. -/
def queryEach (c : Compilation) (queries : List Query) : Compilation :=
  queries.foldl (fun c q => (c.query q).2) c

theorem queryEach_cons (c : Compilation) (q : Query) (queries : List Query) :
    c.queryEach (q :: queries) = (c.query q).2.queryEach queries := rfl

namespace Query

/-- The kind of the symbols that a query asks for. -/
def kind : Query → Option SymbolKind
  | table _ (.declared kind _) => kind
  | table _ (.list kind _) => kind
  | table _ (.containingModule _) => some .moduleSymbol
  | all kind _ => kind
  | resume kind _ _ => kind

/-- How many symbols a query asks for, if not for all of them. -/
def wanted : Query → Option Nat
  | table _ (.list _ wanted) => wanted
  | all _ wanted => wanted
  | resume _ wanted _ => wanted
  | _ => none

/-- The nodes that a query is about, in the order in which it goes over them. -/
def nodes (trees : List Tree) : Query → List (Nat × NodeId)
  | table place (.declared _ id) => [(place, id)]
  | table place (.list ..) =>
    (trees[place]?.map fun t => (t.preorder t.root).map (place, ·)).getD []
  | table place (.containingModule id) =>
    (trees[place]?.bind (·.enclosingModule? id)).toList.map (place, ·)
  | all .. => (ofTrees trees).allNodes
  | resume _ _ rest => rest

/-- The defect with which a query is refused: it is about a number that is no node's. -/
def defect? (trees : List Tree) : Query → Option Defect
  | table place (.declared _ id) | table place (.containingModule id) =>
    (trees[place]?.filter (·.size ≤ id)).map fun t => .foreignNode id t.name
  | _ => none

/-- The nodes that a query looks up: none if it is refused, and otherwise its nodes as far as it has
to go over them. -/
def reads (trees : List Tree) (q : Query) : List (Nat × NodeId) :=
  match q.defect? trees with
  | some _ => []
  | none => upTo (declares trees q.kind) q.wanted (q.nodes trees)

/-- The nodes whose symbols are the answer to a query. -/
def answered (trees : List Tree) (q : Query) : List (Nat × NodeId) :=
  atMost q.wanted ((q.nodes trees).filter (declares trees q.kind))

end Query

section Ask

variable {place : Nat} {s : SymbolTable} {query : SymbolTable.Query}

/-- A refusal leaves the compilation as it is if it leaves the table as it is. -/
theorem ask_of_error {d : Defect} (hs : c.tables[place]? = some s)
    (h : s.ask query = (.error d, s)) : c.ask place query = (.error d, c) := by
  simp only [ask, hs, h, set_table_self hs]

/-- What is reading in the table is reading in the compilation. -/
theorem ask_of_collect {kind : Option SymbolKind} {wanted : Option Nat} {ids : List NodeId}
    (hs : c.tables[place]? = some s)
    (h : s.ask query = (.ok (s.collect kind wanted ids).1, (s.collect kind wanted ids).2)) :
    c.ask place query =
      let answer := c.collect kind wanted (ids.map (place, ·))
      (.ok answer.1, answer.2) := by
  simp only [ask, hs, h, collect_map_pair hs]

end Ask

/-- A query about a number that is no node's is refused, and leaves the compilation as it is. -/
theorem query_of_defect {q : Query} {d : Defect} (h : q.defect? c.trees = some d) :
    c.query q = (.error d, c) := by
  have hforeign : ∀ {place : Nat} {id : NodeId},
      ((c.trees[place]?.filter (·.size ≤ id)).map fun t => Defect.foreignNode id t.name) = some d →
      ∃ s, c.tables[place]? = some s ∧ s.tree.size ≤ id ∧ d = .foreignNode id s.tree.name := by
    intro place id h
    obtain ⟨t, ht, rfl⟩ := Option.map_eq_some_iff.1 h
    obtain ⟨ht, hsize⟩ := Option.filter_eq_some_iff.1 ht
    rw [Compilation.trees, List.getElem?_map] at ht
    obtain ⟨s, hs, rfl⟩ := Option.map_eq_some_iff.1 ht
    exact ⟨s, hs, by simpa using hsize, rfl⟩
  cases q with
  | all | resume => cases h
  | table place query =>
    cases query with
    | list => cases h
    | declared kind id =>
      obtain ⟨s, hs, hsize, rfl⟩ := hforeign h
      exact ask_of_error hs (SymbolTable.ask_declared_of_le hsize)
    | containingModule id =>
      obtain ⟨s, hs, hsize, rfl⟩ := hforeign h
      exact ask_of_error hs (SymbolTable.ask_containingModule_of_le hsize)

/-- **Any other query is a way of reading.** -/
theorem query_eq_collect {q : Query} (h : q.defect? c.trees = none) :
    c.query q =
      let answer := c.collect q.kind q.wanted (q.nodes c.trees)
      (.ok answer.1, answer.2) := by
  cases q with
  | resume => rfl
  | all kind wanted =>
    have hnodes : (ofTrees c.trees).allNodes = c.allNodes := by simp [allNodes]
    simp only [query, Query.kind, Query.wanted, Query.nodes, hnodes, list_eq_collect]
  | table place query =>
    cases hs : c.tables[place]? with
    | none =>
      have ht : c.trees[place]? = none := by simp [Compilation.trees, hs]
      cases query with
      | declared kind id =>
        have hlookup : c.lookupAs kind (place, id) = (none, c) := by simp only [lookupAs, hs]
        simp [Compilation.query, ask, Query.kind, Query.wanted, Query.nodes, collect, hlookup, hs]
      | list | containingModule => simp [Compilation.query, ask, Query.nodes, ht, hs]
    | some s =>
      have ht : c.trees[place]? = some s.tree := by simp [Compilation.trees, hs]
      cases query with
      | declared kind id =>
        have hlt : id < s.tree.size := by simpa [Query.defect?, ht] using h
        exact ask_of_collect hs (SymbolTable.ask_declared_of_lt hlt)
      | list kind wanted =>
        simp only [Query.nodes, ht]
        exact ask_of_collect hs rfl
      | containingModule id =>
        have hlt : id < s.tree.size := by simpa [Query.defect?, ht] using h
        simp only [Query.nodes, ht]
        exact ask_of_collect hs (SymbolTable.ask_containingModule_of_lt hlt)

/-- What a query that is not refused answers, and what it leaves behind. -/
theorem query_eq_ok {q : Query} (h : q.defect? c.trees = none) :
    ∃ entries, c.query q = (.ok entries, c.consult (q.reads c.trees)) ∧
      entries.map some =
        (q.answered c.trees).map (c.consult (q.reads c.trees)).cachedAt? := by
  obtain ⟨hafter, hentries⟩ := c.collect_eq q.kind q.wanted (q.nodes c.trees)
  have hreads : q.reads c.trees = upTo (declares c.trees q.kind) q.wanted (q.nodes c.trees) := by
    rw [Query.reads, h]
  rw [← hreads] at hafter
  refine ⟨(c.collect q.kind q.wanted (q.nodes c.trees)).1, ?_, ?_⟩
  · rw [query_eq_collect h, ← hafter]
  · rw [hentries, hafter]
    rfl

/-- **What queries leave behind**: the compilation as after looking up the nodes that they read. -/
theorem query_snd (c : Compilation) (q : Query) : (c.query q).2 = c.consult (q.reads c.trees) := by
  cases h : q.defect? c.trees with
  | some d =>
    rw [query_of_defect h, Query.reads, h]
    rfl
  | none =>
    obtain ⟨entries, hanswer, -⟩ := query_eq_ok h
    rw [hanswer]

theorem queryEach_eq (c : Compilation) (queries : List Query) :
    c.queryEach queries = c.consult (queries.flatMap (·.reads c.trees)) := by
  induction queries generalizing c with
  | nil => rfl
  | cons q queries ih =>
    rw [queryEach_cons, query_snd, ih, trees_consult, List.flatMap_cons, consult_append]

end Compilation

end ProgramCheck
