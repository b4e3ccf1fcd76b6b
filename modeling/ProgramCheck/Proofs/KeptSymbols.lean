import Mathlib.Data.Finset.Card
import ProgramCheck.Proofs.CallReports
import ProgramCheck.Proofs.SymbolQueries

/-!
# What the symbol tables keep

From the analysis on, the tables of a compilation keep the symbols of the nodes that have been looked
up, by rules or by queries, so far as these nodes declare any, and nothing else. What is answered
does not depend on what is kept; but an entry that has been answered once is the answer to every
later question about its node.
-/

namespace ProgramCheck

/-! ### Sizes -/

/-- The size of a table is the number of nodes that have an entry. -/
theorem SymbolTable.size_eq_countP (s : SymbolTable) :
    s.size = (List.range s.tree.size).countP fun id => (s.cached? id).isSome := by
  have hslots : s.slots.toList = (List.range s.tree.size).map s.cached? := by
    refine List.ext_getElem (by simp [s.size_slots]) fun id h _ => ?_
    have hlt : id < s.slots.size := by simpa using h
    simp [SymbolTable.cached?, hlt]
  rw [size, hslots, List.countP_map]
  rfl

/-- The number of different nodes among some nodes that belong to the tree at a place and declare a
symbol. -/
def declaringAmong (trees : List Tree) (nodes : List (Nat × NodeId)) (place : Nat) : Nat :=
  (nodes.filter fun n => n.1 = place && (symbolAt? trees n).isSome).dedup.length

theorem declaringAmong_mono {trees : List Tree} {nodes nodes' : List (Nat × NodeId)}
    (h : nodes ⊆ nodes') (place : Nat) :
    declaringAmong trees nodes place ≤ declaringAmong trees nodes' place := by
  rw [declaringAmong, declaringAmong, ← List.card_toFinset, ← List.card_toFinset]
  refine Finset.card_le_card fun n hn => ?_
  rw [List.mem_toFinset, List.mem_filter] at hn ⊢
  exact ⟨h hn.1, hn.2⟩

namespace Compilation

variable {trees : List Tree} {computed nodes : List (Nat × NodeId)} {c : Compilation}
  {n : Nat × NodeId}

/-! ### The invariant -/

/-- Whether a compilation of some trees keeps the symbols of the nodes that have been computed, and
no others. -/
structure Keeps (trees : List Tree) (computed : List (Nat × NodeId)) (c : Compilation) : Prop where
  trees_eq : c.trees = trees
  /-- Those nodes that have been computed have the symbol that they declare, if they do, and no other
  node has one. -/
  symbols : ∀ n, (c.cachedAt? n).map Entry.symbol =
    if n ∈ computed then symbolAt? trees n else none
  /-- The sizes of the tables are the numbers of computed nodes that declare a symbol. -/
  sizes : c.cachedSizes = (List.range trees.length).map (declaringAmong trees computed)

theorem isSome_cachedAt?_iff
    (h : (c.cachedAt? n).map Entry.symbol = if n ∈ computed then symbolAt? trees n else none) :
    (c.cachedAt? n).isSome = true ↔ n ∈ computed ∧ (symbolAt? trees n).isSome = true := by
  rw [← Option.isSome_map, h]
  by_cases hn : n ∈ computed <;> simp [hn]

/-- The nodes that have an entry are those among the computed nodes that declare a symbol. -/
theorem size_eq_declaringAmong {place : Nat} {s : SymbolTable} (hs : c.tables[place]? = some s)
    (h : ∀ n, (c.cachedAt? n).map Entry.symbol =
      if n ∈ computed then symbolAt? c.trees n else none) :
    s.size = declaringAmong c.trees computed place := by
  rw [s.size_eq_countP, List.countP_eq_length_filter, declaringAmong,
    ← List.length_map (Prod.mk place)]
  refine List.Perm.length_eq ((List.perm_ext_iff_of_nodup ?_ (List.nodup_dedup _)).2 fun n => ?_)
  · exact (List.nodup_range.filter _).map fun _ _ heq => congrArg Prod.snd heq
  have hcached : ∀ id, c.cachedAt? (place, id) = s.cached? id := fun id => by
    rw [cachedAt?, hs, Option.bind_some]
  have hsymbol : ∀ id, symbolAt? c.trees (place, id) = s.tree.symbol? id := fun id => by
    rw [symbolAt?, Compilation.trees, List.getElem?_map, hs]
    rfl
  simp only [List.mem_map, List.mem_filter, List.mem_range, List.mem_dedup, Bool.and_eq_true,
    decide_eq_true_eq]
  constructor
  · rintro ⟨id, ⟨-, hid⟩, rfl⟩
    rw [← hcached, isSome_cachedAt?_iff (h _)] at hid
    exact ⟨hid.1, rfl, hid.2⟩
  · rintro ⟨hn, rfl, hdeclares⟩
    obtain ⟨symbol, hsome⟩ := Option.isSome_iff_exists.1 hdeclares
    refine ⟨n.2, ⟨SymbolTable.lt_size_of_symbol? ((hsymbol n.2).symm.trans hsome), ?_⟩, rfl⟩
    rw [← hcached, isSome_cachedAt?_iff (h _)]
    exact ⟨hn, hdeclares⟩

/-- The sizes follow from the symbols. -/
theorem keeps_of_symbols (htrees : c.trees = trees)
    (h : ∀ n, (c.cachedAt? n).map Entry.symbol =
      if n ∈ computed then symbolAt? trees n else none) : Keeps trees computed c := by
  refine ⟨htrees, h, List.ext_getElem? fun place => ?_⟩
  subst htrees
  rw [cachedSizes, List.getElem?_map, List.getElem?_map, Compilation.trees, List.length_map]
  cases hs : c.tables[place]? with
  | none => rw [List.getElem?_eq_none (by simpa using hs)]; rfl
  | some s =>
    obtain ⟨hlt, -⟩ := List.getElem?_eq_some_iff.1 hs
    rw [List.getElem?_range hlt]
    exact congrArg some (size_eq_declaringAmong hs h)

theorem keeps_ofTrees (trees : List Tree) : Keeps trees [] (ofTrees trees) := by
  refine keeps_of_symbols (trees_ofTrees trees) fun n => ?_
  have hnone : ∀ t : Tree, (SymbolTable.ofTree t).cached? n.2 = none := fun t => by
    rw [SymbolTable.cached?, SymbolTable.ofTree, Array.getElem?_replicate]
    split <;> rfl
  rw [cachedAt?, ofTrees, List.getElem?_map]
  cases trees[n.1]? <;> simp [hnone]

/-- Looking up more nodes computes these. -/
theorem Keeps.consult (h : Keeps trees computed c) (nodes : List (Nat × NodeId)) :
    Keeps trees (computed ++ nodes) (c.consult nodes) := by
  refine keeps_of_symbols ((c.trees_consult nodes).trans h.trees_eq) fun n => ?_
  rw [map_symbol_cachedAt?_consult, h.symbols, h.trees_eq]
  by_cases hn : n ∈ nodes <;> simp [hn]

/-- The report has no part in what is kept. -/
theorem Keeps.congr {c' : Compilation} (h : Keeps trees computed c) (htables : c'.tables = c.tables) :
    Keeps trees computed c' := by
  obtain ⟨tables, report⟩ := c'
  subst htables
  exact ⟨h.trees_eq, h.symbols, h.sizes⟩

theorem tables_consult_congr {c' : Compilation} (h : c.tables = c'.tables)
    (nodes : List (Nat × NodeId)) : (c.consult nodes).tables = (c'.consult nodes).tables := by
  simp only [Compilation.consult, h]

/-- The entries of a compilation are also in the other one, and no table is smaller there. -/
structure Extends (c c' : Compilation) : Prop where
  entries : ∀ {n entry}, c.cachedAt? n = some entry → c'.cachedAt? n = some entry
  sizes : List.Forall₂ (· ≤ ·) c.cachedSizes c'.cachedSizes

theorem Extends.congr {c c' c'' : Compilation} (h : c.Extends c') (htables : c''.tables = c'.tables) :
    c.Extends c'' := by
  obtain ⟨tables, report⟩ := c''
  subst htables
  exact ⟨h.entries, h.sizes⟩

/-- **Looking up nodes takes nothing away.** -/
theorem Keeps.extends_consult (h : Keeps trees computed c) (nodes : List (Nat × NodeId)) :
    c.Extends (c.consult nodes) where
  entries := cachedAt?_consult_of_some nodes
  sizes := by
    rw [h.sizes, (h.consult nodes).sizes, List.forall₂_map_left_iff, List.forall₂_map_right_iff,
      List.forall₂_same]
    exact fun place _ => declaringAmong_mono (List.subset_append_left _ _) place

end Compilation

/-! ### From the analysis on -/

/-- An analysis leaves the tables as after looking up the nodes that its replies consulted. -/
theorem Analysis.compilation_follow {a a' : Analysis} {stages : List Stage}
    (h : a.follow stages = .ok a') :
    a'.compilation = a.compilation.consult ((a.log stages).flatMap Reply.consulted) := by
  induction stages generalizing a with
  | nil =>
    cases h
    rfl
  | cons stage stages ih =>
    rw [follow] at h
    rw [log]
    cases hs : a.advance stage with
    | error d => simp [hs] at h
    | ok next =>
      rw [hs] at h
      obtain ⟨v, row, -, hrow, rfl, hreplies⟩ := advance_eq_ok hs
      rw [ih h, List.flatMap_append, Compilation.consult_append, hreplies,
        ← compilation_answer hrow]

/-- The nodes that the rules of an analyzer consult in the analysis of some trees. -/
def Analyzer.consulted (a : Analyzer) (trees : List Tree) : List (Nat × NodeId) :=
  (a.log (.ofTrees trees)).flatMap Reply.consulted

namespace Compilation

variable {trees : List Tree} {analyzer : Analyzer} {config : Config} {c : Compilation}

theorem tables_analyzed (h : analyzed trees analyzer config = .ok c) :
    c.tables = ((ofTrees trees).consult (analyzer.consulted trees)).tables := by
  rw [analyzed] at h
  cases ha : analyzer.analyze (ofTrees trees) with
  | error d => simp [ha] at h
  | ok result =>
    simp only [ha, Except.ok.injEq] at h
    subst h
    have hcompilation : result.compilation = (ofTrees trees).consult (analyzer.consulted trees) :=
      Analysis.compilation_follow ha
    have htables := congrArg Compilation.tables hcompilation
    exact htables

/-- What is kept when the analysis comes to its end. -/
theorem keeps_analyzed (h : analyzed trees analyzer config = .ok c) :
    Keeps trees (analyzer.consulted trees) c :=
  ((keeps_ofTrees trees).consult (analyzer.consulted trees)).congr (tables_analyzed h)

/-- What a rule sees during the analysis is still there when more nodes have been looked up behind
it. -/
theorem extends_of_mem_log (h : analyzed trees analyzer config = .ok c) {x : Reply}
    (hx : x ∈ analyzer.log (ofTrees trees)) (nodes : List (Nat × NodeId)) :
    x.context.compilation.Extends (c.consult nodes) := by
  have hseen : (ofTrees trees).Seen [] (analyzer.log (ofTrees trees)) := by
    rw [Analyzer.log, Analysis.log_eq_flatten_rows]
    exact Analysis.seen_rows rfl
  obtain ⟨before, after, hlog⟩ := List.append_of_mem hx
  have hcontext := along_iff.1 hseen before x after hlog
  rw [List.nil_append] at hcontext
  have hkeeps := (keeps_ofTrees trees).consult (before.flatMap Reply.consulted)
  rw [← hcontext] at hkeeps
  refine (hkeeps.extends_consult ((x :: after).flatMap Reply.consulted ++ nodes)).congr ?_
  rw [consult_append, hcontext, ← consult_append (ofTrees trees), ← List.flatMap_append, ← hlog]
  exact tables_consult_congr (tables_analyzed h) nodes

/-! ### Answers -/

/-- What a compilation of some trees answers to a query. -/
structure Answers (trees : List Tree) (c : Compilation) (q : Query) : Prop where
  /-- The symbols are those that are answered when nothing is kept yet. -/
  fresh : (c.query q).1.map (·.map Entry.symbol) =
    ((ofTrees trees).query q).1.map (·.map Entry.symbol)
  /-- A query about a number that is no node's is refused and leaves everything as it is. -/
  refused : ∀ d, q.defect? trees = some d → c.query q = (.error d, c)
  /-- Any other query is answered with the symbols that its nodes declare, and with the entries that
  are kept of these nodes from then on. -/
  answered : q.defect? trees = none → ∃ entries, (c.query q).1 = .ok entries ∧
    entries.map (some ·.symbol) = (q.answered trees).map (symbolAt? trees) ∧
    entries.map some = (q.answered trees).map (c.query q).2.cachedAt?

/-- The nodes whose symbols a query asks for, each with the entry that is the answer. -/
def answersTo (c : Compilation) (q : Query) : List ((Nat × NodeId) × Entry) :=
  match (c.query q).1 with
  | .error _ => []
  | .ok entries => (q.answered c.trees).zip entries

/-- An entry that is answered is kept from then on. -/
theorem cachedAt?_of_mem_answersTo {q : Query} {n : Nat × NodeId} {entry : Entry}
    (h : (n, entry) ∈ c.answersTo q) : (c.query q).2.cachedAt? n = some entry := by
  cases hd : q.defect? c.trees with
  | some d => simp [answersTo, query_of_defect hd] at h
  | none =>
    obtain ⟨entries, hanswer, hentries⟩ := query_eq_ok hd
    rw [answersTo, hanswer] at h
    obtain ⟨i, hi⟩ := List.mem_iff_getElem?.1 h
    obtain ⟨hnode, hentry⟩ := List.getElem?_zip_eq_some.1 hi
    have := congrArg (·[i]?) hentries
    simp only [List.getElem?_map, hnode, hentry, Option.map_some, Option.some.injEq] at this
    rw [hanswer, ← this]

theorem map_symbol_entries {q : Query} {entries : List Entry}
    (h : entries.map some = (q.answered c.trees).map (c.consult (q.reads c.trees)).cachedAt?) :
    entries.map (some ·.symbol) = (q.answered c.trees).map (symbolAt? c.trees) := by
  have hsymbols := congrArg (List.map (Option.map Entry.symbol)) h
  rw [List.map_map, List.map_map] at hsymbols
  refine hsymbols.trans (List.map_congr_left fun n hn => ?_)
  have hmem := List.mem_map_of_mem (f := (c.consult (q.reads c.trees)).cachedAt?) hn
  rw [← h] at hmem
  obtain ⟨entry, -, hentry⟩ := List.mem_map.1 hmem
  have hsymbol := symbolAt?_of_cachedAt? hentry.symm
  rw [trees_consult] at hsymbol
  rw [hsymbol, Function.comp_apply, ← hentry]
  rfl

/-- The same symbols are answered whatever is kept. -/
theorem map_symbol_query (c : Compilation) (q : Query) :
    (c.query q).1.map (·.map Entry.symbol) =
      ((ofTrees c.trees).query q).1.map (·.map Entry.symbol) := by
  have htrees : (ofTrees c.trees).trees = c.trees := trees_ofTrees _
  cases hd : q.defect? c.trees with
  | some d => rw [query_of_defect hd, query_of_defect (htrees ▸ hd)]
  | none =>
    obtain ⟨entries, hanswer, hentries⟩ := query_eq_ok hd
    obtain ⟨fresh, hfresh, hfreshEntries⟩ := query_eq_ok (c := ofTrees c.trees) (htrees ▸ hd)
    have hsymbols := map_symbol_entries hfreshEntries
    rw [htrees, ← map_symbol_entries hentries] at hsymbols
    have : (entries.map Entry.symbol).map some = (fresh.map Entry.symbol).map some := by
      rw [List.map_map, List.map_map]
      exact hsymbols.symm
    rw [hanswer, hfresh]
    exact congrArg Except.ok ((Option.some_injective _).list_map this)

theorem answers (c : Compilation) (q : Query) : Answers c.trees c q where
  fresh := c.map_symbol_query q
  refused _ hd := query_of_defect hd
  answered hd := by
    obtain ⟨entries, hanswer, hentries⟩ := query_eq_ok hd
    refine ⟨entries, by rw [hanswer], map_symbol_entries hentries, ?_⟩
    rw [hentries, hanswer]

/-- **The tables are transparent and stable.** After the analysis and any queries, the tables keep the
symbols of the nodes that have been looked up so far as these declare any, and no others; the next
query is answered as if nothing were kept, or refused without a trace; and the entries that rules or
queries have seen stay the answers for their nodes, whatever is asked later. -/
theorem analyzed_queryEach (h : analyzed trees analyzer config = .ok c) (history : List Query)
    (q : Query) :
    let before := c.queryEach history
    before.Keeps trees (analyzer.consulted trees ++ history.flatMap (·.reads trees)) ∧
    before.Answers trees q ∧
    (∀ x ∈ analyzer.log (ofTrees trees), x.context.compilation.Extends before) ∧
    ∀ later, before.Extends (before.queryEach later) ∧
      ∀ q' n entry entry', (n, entry) ∈ before.answersTo q →
        (n, entry') ∈ ((before.query q).2.queryEach later).answersTo q' → entry' = entry := by
  intro before
  have hanalyzed := keeps_analyzed h
  have hbefore : before = c.consult (history.flatMap fun q => q.reads trees) :=
    hanalyzed.trees_eq ▸ c.queryEach_eq history
  have hkeeps := hanalyzed.consult (history.flatMap fun q => q.reads trees)
  rw [← hbefore] at hkeeps
  refine ⟨hkeeps, hkeeps.trees_eq ▸ before.answers q, fun x hx => ?_, fun later => ⟨?_, ?_⟩⟩
  · rw [hbefore]
    exact extends_of_mem_log h hx _
  · rw [queryEach_eq]
    exact hkeeps.extends_consult _
  · intro q' n entry entry' hentry hentry'
    -- the entry of the first answer is still there behind the second one
    have hkept : (((before.query q).2.queryEach later).query q').2.cachedAt? n = some entry := by
      rw [query_snd, queryEach_eq]
      exact cachedAt?_consult_of_some _
        (cachedAt?_consult_of_some _ (cachedAt?_of_mem_answersTo hentry))
    exact Option.some.inj ((cachedAt?_of_mem_answersTo hentry').symm.trans hkept)

/-- No rule has asked anything. The query for a node that is none computes nothing, the listing that
is left off at the first module computes this one's symbol, and the module above the call is answered
from the table, for good. -/
theorem analyzed_queryEach_mainTree :
    ∃ c, analyzed [mainTree] (.ofRegistry []) {} = .ok c ∧
      let before := c.queryEach [.table 0 (.declared none 6), .all (some .moduleSymbol) (some 1)]
      let above := Query.table 0 (.containingModule 1)
      before.cachedSizes = [1] ∧
        ∃ entry, before.answersTo above = [((0, 4), entry)] ∧
          entry.symbol = ⟨"Main", .moduleSymbol, 4⟩ ∧
          ∀ later entry', ((0, 4), entry') ∈
            ((before.query above).2.queryEach later).answersTo (.table 0 (.declared none 4)) →
              entry' = entry := by
  have hok : (analyzed [mainTree] (.ofRegistry []) {}).toOption.isSome = true := by decide +kernel
  cases h : analyzed [mainTree] (.ofRegistry []) {} with
  | error d => simp [h, Except.toOption] at hok
  | ok c =>
    obtain ⟨hkeeps, hanswers, -, hlater⟩ := analyzed_queryEach h
      [.table 0 (.declared none 6), .all (some .moduleSymbol) (some 1)]
      (.table 0 (.containingModule 1))
    obtain ⟨entries, hentries, hsymbols, -⟩ := hanswers.answered (by decide +kernel)
    have hanswered : (Query.table 0 (.containingModule 1)).answered [mainTree] = [(0, 4)] := by
      decide +kernel
    have hsymbol : symbolAt? [mainTree] (0, 4) = some ⟨"Main", .moduleSymbol, 4⟩ := by
      decide +kernel
    rw [hanswered, List.map_singleton, hsymbol, List.map_eq_singleton_iff] at hsymbols
    obtain ⟨entry, rfl, hentry⟩ := hsymbols
    have hone : (c.queryEach [.table 0 (.declared none 6),
        .all (some .moduleSymbol) (some 1)]).answersTo (.table 0 (.containingModule 1)) =
        [((0, 4), entry)] := by
      rw [answersTo, hentries, hkeeps.trees_eq, hanswered]
      rfl
    refine ⟨c, rfl, hkeeps.sizes.trans (by decide +kernel), entry, hone, Option.some.inj hentry, ?_⟩
    exact fun later entry' => (hlater later).2 _ _ entry entry' (by rw [hone]; simp)

end Compilation

end ProgramCheck
