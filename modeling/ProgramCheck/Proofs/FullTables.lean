import ProgramCheck.Proofs.Independence
import ProgramCheck.Proofs.KeptSymbols
import ProgramCheck.Proofs.PartialListings

/-!
# Full tables

A table is full if it keeps the symbol of every node of its tree that declares one. In a full table
everything that is asked for is found, so nothing is ever added to it. The rule on imports asks for
all modules when it comes to the first program, and that listing goes through every node of every
tree: a compilation that has been checked with this rule has full tables, whatever the other rules
ask for.
-/

namespace ProgramCheck

namespace SymbolTable

variable {s : SymbolTable}

/-- Whether the table keeps the symbol of every node that declares one. -/
def Full (s : SymbolTable) : Prop :=
  ∀ id, s.tree.declaresKind none id = true → ∃ entry, s.cached? id = some entry

/-- A full table stays as it is when a node is looked up. -/
theorem Full.lookup_snd (h : s.Full) (id : NodeId) : (s.lookup id).2 = s := by
  unfold lookup
  split
  · rfl
  · next hnone =>
    split
    · next symbol hsymbol =>
      obtain ⟨entry, hentry⟩ := h id (by rw [← Forest.isSome_symbol?, hsymbol]; rfl)
      rw [hentry] at hnone
      cases hnone
    · rfl

theorem Full.lookupEach (h : s.Full) (ids : List NodeId) : s.lookupEach ids = s := by
  induction ids with
  | nil => rfl
  | cons id ids ih => rw [lookupEach_cons, h.lookup_snd, ih]

/-- A full table has an entry for every declaring node of its tree, and no other entries. -/
theorem Full.size_eq (h : s.Full) :
    s.size = (List.range s.tree.size).countP (s.tree.declaresKind none) := by
  rw [s.size_eq_countP]
  refine List.countP_congr fun id _ => ?_
  constructor
  · intro hkept
    obtain ⟨entry, hentry⟩ := Option.isSome_iff_exists.1 hkept
    rw [← Forest.isSome_symbol?, symbol?_of_cached? hentry]
    rfl
  · intro hdeclares
    obtain ⟨entry, hentry⟩ := h id hdeclares
    rw [hentry]
    rfl

end SymbolTable

namespace Compilation

variable {c : Compilation} {trees : List Tree}

/-- A compilation whose tables are full stays as it is, whichever nodes are looked up. -/
theorem consult_of_full (h : ∀ s ∈ c.tables, s.Full) (nodes : List (Nat × NodeId)) :
    c.consult nodes = c := by
  refine eq_of_getElem?_tables rfl fun i => ?_
  rw [getElem?_tables_consult]
  cases hs : c.tables[i]? with
  | none => rfl
  | some s => rw [Option.map_some, (h s (List.mem_of_getElem? hs)).lookupEach]

/-- Every node of a tree is among all nodes. -/
theorem mem_allNodes_iff {n : Nat × NodeId} :
    n ∈ c.allNodes ↔ ∃ t, c.trees[n.1]? = some t ∧ n.2 < t.size := by
  obtain ⟨place, id⟩ := n
  rw [allNodes, mem_flatten_mapIdx]
  simp only [List.mem_map, Prod.mk.injEq]
  constructor
  · rintro ⟨i, t, ht, id', hid, rfl, rfl⟩
    exact ⟨t, ht, Tree.mem_preorder_root_iff.1 hid⟩
  · rintro ⟨t, ht, hid⟩
    exact ⟨place, t, ht, id, Tree.mem_preorder_root_iff.2 hid, rfl, rfl⟩

/-- Where all nodes have been computed the tables are full. -/
theorem Keeps.full {computed : List (Nat × NodeId)} (h : Keeps trees computed c)
    (hall : c.allNodes ⊆ computed) : ∀ s ∈ c.tables, s.Full := by
  intro s hs id hdeclares
  obtain ⟨place, hplace⟩ := List.getElem?_of_mem hs
  have htree : c.trees[place]? = some s.tree := by
    rw [Compilation.trees, List.getElem?_map, hplace]
    rfl
  rw [← Forest.isSome_symbol?] at hdeclares
  obtain ⟨symbol, hsymbol⟩ := Option.isSome_iff_exists.1 hdeclares
  have hcomputed : (place, id) ∈ computed :=
    hall (mem_allNodes_iff.2 ⟨s.tree, htree, SymbolTable.lt_size_of_symbol? hsymbol⟩)
  have hkept := h.symbols (place, id)
  rw [if_pos hcomputed, ← h.trees_eq, symbolAt?, htree, Option.bind_some, hsymbol, cachedAt?,
    hplace, Option.bind_some] at hkept
  obtain ⟨entry, hentry, -⟩ := Option.map_eq_some_iff.1 hkept
  exact ⟨entry, hentry⟩

end Compilation

/-! ### The rule on imports -/

/-- The rule on imports consults all nodes when it comes to the first program. -/
theorem Analysis.exists_reply_of_import {a a' : Analysis} {stages : List Stage} {place : Nat}
    {t : Tree} {id : NodeId} {p : Program} (h : a.follow stages = .ok a')
    (hrule : ∃ r ∈ a.rules, r.rule = .importResolution)
    (hstage : ⟨place, t, .visit ⟨id, .program p⟩⟩ ∈ stages) :
    ∃ x ∈ a.log stages, x.consulted = x.context.compilation.allNodes := by
  obtain ⟨r, hr, heq⟩ := hrule
  have hcall : (Rule.importResolution, ⟨place, t, .visit ⟨id, .program p⟩⟩) ∈
      (a.log stages).map Reply.call := by
    rw [map_call_log h]
    exact List.mem_flatMap.2 ⟨_, hstage, List.mem_map.2 ⟨r, hr, by rw [heq]⟩⟩
  obtain ⟨x, hx, hxcall⟩ := List.mem_map.1 hcall
  refine ⟨x, hx, ?_⟩
  obtain ⟨hvalid, -⟩ := of_mem_log hx
  obtain ⟨⟨rule, state⟩, ⟨c, place', t'⟩, v, response⟩ := x
  obtain ⟨rfl, hvisit⟩ := Prod.mk.inj hxcall
  cases hvisit
  exact (congrArg Response.consulted (Except.ok.inj hvalid)).symm

namespace Compilation

variable {trees : List Tree} {analyzer : Analyzer} {config : Config} {c : Compilation}

theorem allNodes_congr {c' : Compilation} (h : c'.trees = c.trees) : c'.allNodes = c.allNodes := by
  rw [allNodes, allNodes, h]

/-- The walk through some trees begins with the program of the first one. -/
theorem program_mem_stages {t : Tree} (h : c.trees[0]? = some t) :
    ⟨0, t, .visit ⟨t.root, .program t.program⟩⟩ ∈ c.stages :=
  mem_stages_iff.2 ⟨h, List.mem_cons_self⟩

/-- An analysis with the rule on imports fills the tables, whatever the other rules are. -/
theorem full_of_analyzed (h : analyzed trees analyzer config = .ok c)
    (hrule : ∃ r ∈ analyzer.rules, r.rule = .importResolution) : ∀ s ∈ c.tables, s.Full := by
  have hkeeps := keeps_analyzed h
  refine hkeeps.full ?_
  cases hfirst : trees[0]? with
  | none =>
    -- without trees there are no tables
    obtain rfl : trees = [] := by simpa using hfirst
    rw [allNodes, hkeeps.trees_eq]
    exact List.nil_subset _
  | some t =>
    cases ha : analyzer.analyze (ofTrees trees) with
    | error d => simp [analyzed, ha] at h
    | ok result =>
      have hstage := program_mem_stages (c := ofTrees trees) (by rwa [trees_ofTrees])
      obtain ⟨x, hx, hconsulted⟩ := Analysis.exists_reply_of_import ha hrule hstage
      have htrees : c.trees = x.context.compilation.trees := by
        rw [Analysis.trees_of_mem_log hx, trees_ofTrees, hkeeps.trees_eq]
      rw [allNodes_congr htrees, ← hconsulted]
      exact fun n hn => List.mem_flatMap.2 ⟨x, hx, hn⟩

/-- Built-in rules come to the end of a walk without a node out of place. -/
theorem exists_withConfig {bs : List Builtin}
    (hconfig : Analyzer.withConfig (bs.map (·.rule)) config = .ok analyzer)
    (hvisits : AllVisits (ofTrees trees).stages) :
    ∃ c, withConfig trees (bs.map (·.rule)) config = .ok (.ok c) ∧
      analyzed trees analyzer config = .ok c := by
  obtain ⟨-, rfl⟩ := Analyzer.withConfig_eq_ok_iff.1 hconfig
  obtain ⟨result, hresult, -, -⟩ := Analyzer.exists_analyze_builtin (config.kept bs) hvisits
  rw [withConfig_of_ok hconfig]
  simp only [analyzed, hresult]
  exact ⟨_, rfl, rfl⟩

/-- **A compilation that has been checked for its imports is read-only.** If the rule on imports is
among the built-in rules that are not disabled, the tables are full after the check: each has an
entry for every node of its tree that declares a symbol, so as many entries as there are such nodes.
No queries from then on change anything. The nodes that the rule consults are those that the listing
of all modules goes through. -/
theorem withConfig_full {bs : List Builtin}
    (hconfig : Analyzer.withConfig (bs.map (·.rule)) config = .ok analyzer)
    (himport : .importResolution ∈ config.kept bs)
    (hvisits : AllVisits (ofTrees trees).stages) :
    (∀ seen : Compilation,
      (seen.list (some .moduleSymbol) none).2 = seen.consult seen.allNodes) ∧
    ∃ c, withConfig trees (bs.map (·.rule)) config = .ok (.ok c) ∧ c.trees = trees ∧
      (∀ s ∈ c.tables, s.Full) ∧
      c.cachedSizes = trees.map (fun t => (List.range t.size).countP (t.declaresKind none)) ∧
      ∀ queries, c.queryEach queries = c := by
  refine ⟨fun seen => seen.readsTrees.modules.2, ?_⟩
  obtain ⟨c, hc, hanalyzed⟩ := exists_withConfig hconfig hvisits
  obtain ⟨-, rfl⟩ := Analyzer.withConfig_eq_ok_iff.1 hconfig
  have hrule : ∃ r ∈ (Analyzer.ofBuiltin (config.kept bs)).rules, r.rule = .importResolution := by
    rw [Analyzer.rules_ofBuiltin]
    exact ⟨_, List.mem_map_of_mem himport, rfl⟩
  have hfull := full_of_analyzed hanalyzed hrule
  have htrees := (keeps_analyzed hanalyzed).trees_eq
  refine ⟨c, hc, htrees, hfull, ?_, fun queries => ?_⟩
  · rw [← htrees, Compilation.trees, List.map_map]
    exact List.map_congr_left fun s hs => (hfull s hs).size_eq
  · rw [queryEach_eq, consult_of_full hfull]

/-- With the rule on modules disabled, the rules on imports and on values find two declaring nodes in
the main program and five in the other tree. -/
theorem withConfig_full_branchTree :
    ∃ c, withConfig [mainTree, branchTree]
        ([Builtin.duplicateModule, .importResolution, .valueType].map (·.rule))
        { disabledRules := ["duplicate-module"] } = .ok (.ok c) ∧
      c.cachedSizes = [2, 5] ∧ ∀ queries, c.queryEach queries = c := by
  have hconfig : Analyzer.withConfig
      ([Builtin.duplicateModule, .importResolution, .valueType].map (·.rule))
      { disabledRules := ["duplicate-module"] } =
        .ok (.ofBuiltin [.importResolution, .valueType]) := rfl
  have hkinded : ∀ t ∈ (ofTrees [mainTree, branchTree]).trees, t.WellKinded := by decide +kernel
  obtain ⟨-, c, hc, -, -, hsizes, hqueries⟩ :=
    withConfig_full hconfig (by decide) (allVisits_of_wellKinded hkinded)
  have hcounts : [mainTree, branchTree].map
      (fun t => (List.range t.size).countP (t.declaresKind none)) = [2, 5] := by
    decide +kernel
  exact ⟨c, hc, hsizes.trans hcounts, hqueries⟩

end Compilation

end ProgramCheck
