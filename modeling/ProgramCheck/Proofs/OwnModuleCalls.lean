import ProgramCheck.Proofs.CallSites
import ProgramCheck.Proofs.CallTable

/-!
# Calls of functions of the own module

Between a function and the calls in the functions that its module lists from it on, the walk visits
only functions of this module. So a call that has such a function to find finds one of the module,
whatever other modules declare and whatever the table of the rule held before, and the rule reports
nothing.
-/

namespace ProgramCheck

/-! ### The module and the function around a node -/

/-- The nearest module above a node lies below every other module above it. -/
theorem Forest.mem_preorder_of_enclosingModule {f : Forest} {d a b : NodeId}
    (h : f.enclosingModule? d = some a) (hb : (f.module? b).isSome = true)
    (hd : b ∈ f.ancestors d) : a ∈ f.preorder b := by
  -- the induction goes up from `d` to the nearest module
  fun_induction f.ancestors d with
  | case1 d hparent => cases hd
  | case2 d parent hparent ih =>
    rw [enclosingModule?_of_mem_children (parent?_eq_some_iff.1 hparent)] at h
    by_cases hmodule : (f.module? parent).isSome = true
    · rw [if_pos hmodule] at h
      obtain rfl := Option.some.inj h
      rw [mem_preorder_iff_ancestors]
      exact (List.mem_cons.1 hd).imp_left Eq.symm
    · rw [if_neg hmodule] at h
      rcases List.mem_cons.1 hd with rfl | hd
      · exact absurd hb hmodule
      · exact ih h hd

namespace Tree

variable {t : Tree}

theorem ancestors_module {mid : NodeId} (hmid : mid ∈ t.program.modules) :
    t.ancestors mid = [t.root] := by
  rw [Forest.ancestors_of_mem_children (mem_children_of_module hmid), Forest.ancestors_eq,
    t.parent?_root]

theorem nodup_functions (t : Tree) {mid : NodeId} {m : Module} (hm : t.module? mid = some m) :
    m.functions.Nodup := by
  have hchildren : (t.children mid).Nodup := t.nodup_childrenIn mid
  rw [Forest.children_eq_of_kind? (Forest.module?_eq_some_iff.1 hm)] at hchildren
  exact (List.nodup_append.1 hchildren).1

/-- A node below a function that a module lists, and below a function that a module of the program
lists, is so in one way only. -/
theorem eq_of_mem_preorder_functions {d mid mid' fid fid' : NodeId} {m m' : Module}
    (hmid : mid ∈ t.program.modules) (hm : t.module? mid = some m) (hfid : fid ∈ m.functions)
    (hd : d ∈ t.preorder fid) (hnearest : t.enclosingModule? d = some mid)
    (hm' : t.module? mid' = some m') (hfid' : fid' ∈ m'.functions) (hd' : d ∈ t.preorder fid') :
    mid' = mid ∧ fid' = fid := by
  have hchild := mem_children_of_function hm hfid
  have hchild' := mem_children_of_function hm' hfid'
  have habove : mid' ∈ t.ancestors d := by
    have hbelow := Forest.mem_preorder_of_mem_children hchild' hd'
    refine (Forest.mem_preorder_iff_ancestors.1 hbelow).resolve_left fun heq => ?_
    have hle := Forest.le_of_mem_preorder hd'
    rw [heq] at hle
    exact absurd (Forest.lt_of_mem_children hchild') (Nat.not_lt.2 hle)
  have hnested := Forest.mem_preorder_of_enclosingModule hnearest (by rw [hm']; rfl) habove
  obtain rfl : mid' = mid := by
    rcases Forest.mem_preorder_iff_ancestors.1 hnested with heq | hroot
    · exact heq.symm
    · -- above a module of the program there is only the program
      rw [ancestors_module hmid, List.mem_singleton] at hroot
      rw [hroot, Forest.module?, t.kind?_root] at hm'
      cases hm'
  exact ⟨rfl, Forest.eq_of_mem_preorder_children hchild' hchild hd' hd⟩

end Tree

/-! ### What the call finds -/

/-- If one of the functions behind some others has a name, the last one of that name is one of
them. -/
theorem exists_latest?_append (front : List (Visited Function)) {own : List (Visited Function)}
    {f : Visited Function} (hf : f ∈ own) :
    ∃ g ∈ own, latest? (front ++ own) f.node.name = some g := by
  have hsome : (latest? own f.node.name).isSome = true := by
    rw [latest?, List.find?_isSome]
    exact ⟨f, List.mem_reverse.2 hf, decide_eq_true rfl⟩
  obtain ⟨g, hg⟩ := Option.isSome_iff_exists.1 hsome
  exact ⟨g, mem_of_latest? hg, by rw [latest?_append, hg, Option.some_or]⟩

/-- A call of a function from a module of the caller's name is fine, whatever was known before the
history. -/
theorem callReportsFrom_of_ownModule {declared : List (String × Origin)} {history : List Stage}
    {t : Tree} {id : NodeId} {name home : String} {arguments : List NodeId} {g : Visited Function}
    (hg : latest? (visitedFunctions history) name = some g) (hhome : g.moduleName? = some home)
    (hcaller : t.moduleNameAbove? id = some home) :
    Builtin.callReportsFrom declared history t ⟨id, .expression (.call name arguments)⟩ = [] := by
  have horigin : g.origin? = some ⟨home, g.node.modifiers⟩ := by
    rw [Visited.origin?, hhome, Option.map_some]
  simp only [Builtin.callReportsFrom, hg, Option.bind_some, horigin, Option.some_or]
  rw [Tree.callErrors_eq hcaller, if_pos rfl]

/-- In a list without repetitions, what stands at the place of a member or before it. -/
theorem mem_of_getElem?_le {xs ys : List NodeId} {x y : NodeId} {j k : Nat}
    (hnodup : (xs ++ x :: ys).Nodup) (hx : (xs ++ x :: ys)[j]? = some x) (hkj : k ≤ j)
    (hy : (xs ++ x :: ys)[k]? = some y) : y ∈ xs ∨ y = x := by
  have hlast : (xs ++ x :: ys)[xs.length]? = some x := by simp
  obtain ⟨hj, -⟩ := List.getElem?_eq_some_iff.1 hx
  obtain rfl : j = xs.length := (List.getElem?_inj hj hnodup).1 (hx.trans hlast.symm)
  rcases Nat.lt_or_eq_of_le hkj with hlt | rfl
  · rw [List.getElem?_append_left hlt] at hy
    exact Or.inl (List.mem_of_getElem? hy)
  · exact Or.inr (Option.some.inj (hy.symm.trans hlast))

/-- A call inside a function of a module that lists a function of the called name, at the place of
that function or before it, finds a function of the module. -/
theorem exists_latest_ownModule {c : Compilation} {before after : List Stage} {place : Nat}
    {t : Tree} {id : NodeId} {e : Expression}
    (hsplit : c.stages = before ++ ⟨place, t, .visit ⟨id, .expression e⟩⟩ :: after)
    {mid : NodeId} {m : Module} (hm : t.module? mid = some m) {j : Nat} {gid : NodeId}
    (hg : m.functions[j]? = some gid) (hinside : id ∈ t.preorder gid) {k : Nat} (hk : k ≤ j)
    {fid : NodeId} (hfid : m.functions[k]? = some fid) {f : Function}
    (hf : t.function? fid = some f) :
    ∃ h, latest? (visitedFunctions before) f.name = some h ∧ h.moduleName? = some m.name ∧
      t.moduleNameAbove? id = some m.name := by
  -- the function and the module around the call are those in which the walk has come to it
  obtain ⟨m', hm', g, hgm', rfl, rfl, ⟨s, hs, hv⟩, fs, fs', front, hfunctions, hfront⟩ :=
    exists_callSite hsplit
  obtain ⟨-, hmid, hmodule⟩ := mem_declaredModules_iff.1 hm'
  obtain ⟨hplace, htree, hgid, hgnode⟩ := Visited.mem_functions_iff.1 hgm'
  have hnearest : m'.tree.enclosingModule? id = some m'.id :=
    (Tree.enclosingModule?_body hgnode hs hv).trans (Tree.enclosingModule?_function hmodule hgid)
  obtain ⟨rfl, rfl⟩ := Tree.eq_of_mem_preorder_functions hmid hmodule hgid
    (Tree.mem_preorder_of_mem_body hgnode hs hv) hnearest hm (List.mem_of_getElem? hg) hinside
  obtain rfl : m = m'.node := Option.some.inj (hm.symm.trans hmodule)
  -- among the functions that the module lists up to the calling one is the one of the called name
  have hown : ∀ h ∈ m'.tree.functionsAmong m'.place fs ++ [g], h ∈ m'.functions := by
    rw [Visited.functions, hfunctions, List.filterMap_append, List.forall_mem_append]
    refine ⟨fun h hh => List.mem_append_left _ hh, List.forall_mem_singleton.2 ?_⟩
    rwa [Visited.functions, hfunctions, List.filterMap_append] at hgm'
  have hnodup := m'.tree.nodup_functions hmodule
  rw [hfunctions] at hnodup hg hfid
  have hf' : (⟨m'.place, m'.tree, fid, f⟩ : Visited Function) ∈
      m'.tree.functionsAmong m'.place fs ++ [g] := by
    rcases mem_of_getElem?_le hnodup hg hk hfid with hmem | rfl
    · exact List.mem_append_left _ (List.mem_filterMap.2 ⟨fid, hmem, by rw [hf]; rfl⟩)
    · obtain ⟨gplace, gtree, gid, gnode⟩ := g
      obtain rfl : gplace = m'.place := hplace
      obtain rfl : gtree = m'.tree := htree
      obtain rfl : f = gnode := Option.some.inj (hf.symm.trans hgnode)
      exact List.mem_append_right _ List.mem_cons_self
  obtain ⟨h, hmem, hlatest⟩ := exists_latest?_append front hf'
  rw [← List.append_assoc, ← hfront] at hlatest
  exact ⟨h, hlatest, Visited.moduleName?_of_mem hm' (hown h hmem),
    Tree.moduleNameAbove?_body hmodule hgid hgnode hs hv⟩

/-- **Calls within a module**: whatever the rule on calls held in its table before, it reports
nothing on a call inside a function of a module that lists a function of the called name, at the
place of that function or before it. -/
theorem ownModule_reports_eq_nil {a : Analyzer} {c : Compilation} {i : Nat}
    {declared : List (String × Origin)} (hi : a.rules[i]? = some ⟨.callVisibility, declared⟩)
    {x : Reply} (hx : x ∈ Analysis.column i (a.rows c)) {name : String} {arguments : List NodeId}
    (hcall : x.visit.subject = .expression (.call name arguments)) {mid : NodeId} {m : Module}
    (hm : x.context.tree.module? mid = some m) {j : Nat} {gid : NodeId}
    (hg : m.functions[j]? = some gid) (hinside : x.visit.id ∈ x.context.tree.preorder gid)
    {k : Nat} (hk : k ≤ j) {fid : NodeId} (hfid : m.functions[k]? = some fid) {f : Function}
    (hf : x.context.tree.function? fid = some f) (hname : f.name = name) : x.reports = [] := by
  obtain ⟨before, after, hsplit, hreports⟩ := exists_split_of_mem_column hi hx
  obtain ⟨rule, ⟨compilation, place, t⟩, ⟨id, subject⟩, response⟩ := x
  obtain rfl : subject = .expression (.call name arguments) := hcall
  obtain ⟨h, hlatest, hhome, hcaller⟩ :=
    exists_latest_ownModule hsplit hm hg hinside hk hfid hf
  rw [hreports]
  exact callReportsFrom_of_ownModule (hname ▸ hlatest) hhome hcaller

/-- The nodes of a program whose module calls a function of its own, which is not exported. -/
def ownNodes : List Node :=
  [⟨.functionDecl ⟨"twice", .void, {}, [], some []⟩, ⟨2, 1⟩⟩,
   ⟨.expression (.call "twice" []), ⟨4, 1⟩⟩,
   ⟨.statement (.evaluation 1), ⟨4, 1⟩⟩,
   ⟨.functionDecl ⟨"main", .void, {}, [], some [2]⟩, ⟨3, 1⟩⟩,
   ⟨.moduleDecl ⟨"Main", [0, 3], []⟩, ⟨1, 1⟩⟩,
   ⟨.program ⟨[], [4]⟩, ⟨1, 1⟩⟩]

theorem isSome_ownTree : (Tree.ofNodes "own.tw" ownNodes 5).toOption.isSome = true := by
  decide +kernel

/-- A program whose module calls a function of its own. -/
def ownTree : Tree := (Tree.ofNodes "own.tw" ownNodes 5).toOption.get isSome_ownTree

/-- Behind the library and with another function of the same name in the table from before, the call
is of the function of its own module. -/
theorem ownModule_reports_eq_nil_ownTree :
    ∃ x ∈ Analysis.column 0 (Analyzer.rows ⟨[⟨.callVisibility, [("twice", ⟨"Lib", {}⟩)]⟩]⟩
        (.ofTrees [libraryTree, ownTree])),
      x.visit = ⟨1, .expression (.call "twice" [])⟩ ∧ x.context.place = 1 ∧ x.reports = [] := by
  have hx : ∃ x ∈ Analysis.column 0 (Analyzer.rows
        ⟨[⟨.callVisibility, [("twice", ⟨"Lib", {}⟩)]⟩]⟩ (.ofTrees [libraryTree, ownTree])),
      x.visit = ⟨1, .expression (.call "twice" [])⟩ ∧ x.context.place = 1 ∧
        x.context.tree.module? 4 = some ⟨"Main", [0, 3], []⟩ ∧
        x.visit.id ∈ x.context.tree.preorder 3 ∧
        x.context.tree.function? 0 = some ⟨"twice", .void, {}, [], some []⟩ := by
    decide +kernel
  obtain ⟨x, hx, hvisit, hplace, hm, hinside, hf⟩ := hx
  exact ⟨x, hx, hvisit, hplace, ownModule_reports_eq_nil rfl hx (congrArg Visit.subject hvisit) hm
    (j := 1) (k := 0) rfl hinside (Nat.zero_le 1) rfl hf rfl⟩

end ProgramCheck
