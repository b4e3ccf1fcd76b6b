import ProgramCheck.Proofs.NodeReports

/-!
# Trees that have nothing to do with a call

A call finds the function of its name that was visited last, in whichever tree that stands. So a tree
whose modules the program of the call neither imports nor contains can still come between a call and
its function, and `reportsAt_insert` says exactly when it does: if it declares a function of the
called name, and stands between the two.
-/

namespace ProgramCheck

/-! ### One more tree -/

/-- The stage in the tree at the next place. -/
def Stage.shift (s : Stage) : Stage := { s with place := s.place + 1 }

/-- The node in the tree at the next place. -/
def Visited.shift {α : Type} (x : Visited α) : Visited α := { x with place := x.place + 1 }

theorem stagesFrom_succ (place : Nat) (ts : List Tree) :
    stagesFrom (place + 1) ts = (stagesFrom place ts).map Stage.shift := by
  induction ts generalizing place with
  | nil => rfl
  | cons t ts ih =>
    rw [stagesFrom_cons, stagesFrom_cons, List.map_append, ih (place + 1), Tree.stages, Tree.stages,
      List.map_map]
    rfl

theorem visitedFunctions_map_shift (stages : List Stage) :
    visitedFunctions (stages.map Stage.shift) = (visitedFunctions stages).map Visited.shift := by
  have hfunction : ∀ s : Stage, s.shift.function? = s.function?.map Visited.shift := by
    rintro ⟨place, t, step⟩
    rcases step with ⟨id, subject⟩ | d
    · cases subject <;> rfl
    · rfl
  rw [visitedFunctions, List.filterMap_map, visitedFunctions, List.map_filterMap]
  exact List.filterMap_congr fun s _ => hfunction s

theorem latest?_map_shift (fs : List (Visited Function)) (name : String) :
    latest? (fs.map Visited.shift) name = (latest? fs name).map Visited.shift :=
  latest?_map (f := Visited.shift) (fun _ => rfl) fs name

namespace Tree

/-- Whether a module of the program of a tree lists a function of a name. -/
def Declares (u : Tree) (name : String) : Prop :=
  ∃ m ∈ u.program.modules.filterMap u.module?, ∃ g ∈ m.functions.filterMap u.function?,
    g.name = name

instance (u : Tree) (name : String) : Decidable (u.Declares name) :=
  inferInstanceAs (Decidable (∃ m ∈ u.program.modules.filterMap u.module?,
    ∃ g ∈ m.functions.filterMap u.function?, g.name = name))

/-- Whether a tree has nothing to do with a node of another one: none of its modules has the name of
the module above the node or of an import of its program. -/
def UnrelatedTo (u t : Tree) (id : NodeId) : Prop :=
  ∀ m ∈ u.program.modules.filterMap u.module?,
    t.moduleNameAbove? id ≠ some m.name ∧ ¬ t.Imports m.name

instance (u t : Tree) (id : NodeId) : Decidable (u.UnrelatedTo t id) :=
  inferInstanceAs (Decidable (∀ m ∈ u.program.modules.filterMap u.module?,
    t.moduleNameAbove? id ≠ some m.name ∧ ¬ t.Imports m.name))

variable {u t : Tree} {place : Nat} {name : String}

/-- A whole tree has a function of a name among those it visits if it declares one. -/
theorem isSome_latest?_stages (u : Tree) (place : Nat) (name : String) :
    (latest? (visitedFunctions (u.stages place)) name).isSome = true ↔ u.Declares name := by
  rw [visitedFunctions_stages, latest?, List.find?_isSome]
  simp only [List.mem_reverse, List.mem_flatMap, decide_eq_true_eq, declaredModules,
    Visited.functions, List.mem_filterMap, Option.map_eq_some_iff, Declares]
  constructor
  · rintro ⟨_, ⟨_, ⟨mid, hmid, m, hm, rfl⟩, fid, hfid, g, hg, rfl⟩, hname⟩
    exact ⟨m, ⟨mid, hmid, hm⟩, g, ⟨fid, hfid, hg⟩, hname⟩
  · rintro ⟨m, ⟨mid, hmid, hm⟩, g, ⟨fid, hfid, hg⟩, hname⟩
    exact ⟨⟨place, u, fid, g⟩, ⟨⟨place, u, mid, m⟩, ⟨mid, hmid, m, hm, rfl⟩, fid, hfid, g, hg, rfl⟩,
      hname⟩

/-- The functions of an unrelated tree are neither of the module of a call nor imported. -/
theorem UnrelatedTo.moduleName? {id : NodeId} (h : u.UnrelatedTo t id) {g : Visited Function}
    (hg : g ∈ visitedFunctions (u.stages place)) :
    ∃ m, g.moduleName? = some m ∧ t.moduleNameAbove? id ≠ some m ∧ ¬ t.Imports m := by
  rw [visitedFunctions_stages, List.mem_flatMap] at hg
  obtain ⟨m, hm, hg⟩ := hg
  obtain ⟨mid, hmid, hm⟩ := List.mem_filterMap.1 hm
  obtain ⟨node, hnode, rfl⟩ := Option.map_eq_some_iff.1 hm
  obtain ⟨-, htree, hfid, -⟩ := Visited.mem_functions_iff.1 hg
  refine ⟨node.name, ?_, h node (List.mem_filterMap.2 ⟨mid, hmid, hnode⟩)⟩
  rw [Visited.moduleName?, htree]
  exact moduleNameAbove?_function hnode hfid

end Tree

section Insert

variable {bs : List Builtin} {c c' : Compilation} {xs ys : List Tree} {u t : Tree} {place : Nat}
  {id : NodeId} {name : String} {arguments : List NodeId} {history rest : List Stage}

theorem allVisits_insert (hc : c.trees = xs ++ ys) (hc' : c'.trees = xs ++ u :: ys)
    (hvisits : AllVisits c.stages) (hu : u.WellKinded) : AllVisits c'.stages := by
  rw [Compilation.allVisits_iff, hc, List.forall_mem_append] at hvisits
  rw [Compilation.allVisits_iff, hc', List.forall_mem_append, List.forall_mem_cons]
  exact ⟨hvisits.1, fun _ hstep => Tree.exists_visit_of_wellKinded hu hstep, hvisits.2⟩

/-- Where the stages of a walk stand when a tree is inserted: a stage in front of the new tree keeps
its history, and behind it the new tree is part of the history. -/
theorem stages_insert (hc : c.trees = xs ++ ys) (hc' : c'.trees = xs ++ u :: ys) {s : Stage}
    (hsplit : c.stages = history ++ s :: rest) :
    (s.place < xs.length ∧ ∃ rest', c'.stages = history ++ s :: rest') ∨
      (xs.length ≤ s.place ∧ ∃ between rest',
        history = stagesFrom 0 xs ++ between ∧ (∀ x ∈ between, xs.length ≤ x.place) ∧
        c'.stages = stagesFrom 0 xs ++ u.stages xs.length ++ between.map Stage.shift ++
          s.shift :: rest') := by
  have hstages : c.stages = stagesFrom 0 xs ++ stagesFrom xs.length ys := by
    rw [Compilation.stages_eq, hc, stagesFrom_append, Nat.zero_add]
  have hstages' : c'.stages = stagesFrom 0 xs ++
      (u.stages xs.length ++ (stagesFrom xs.length ys).map Stage.shift) := by
    rw [Compilation.stages_eq, hc', stagesFrom_append, Nat.zero_add, stagesFrom_cons,
      stagesFrom_succ]
  have behind : ∀ between, history = stagesFrom 0 xs ++ between →
      stagesFrom xs.length ys = between ++ s :: rest →
      xs.length ≤ s.place ∧ ∃ between rest',
        history = stagesFrom 0 xs ++ between ∧ (∀ x ∈ between, xs.length ≤ x.place) ∧
        c'.stages = stagesFrom 0 xs ++ u.stages xs.length ++ between.map Stage.shift ++
          s.shift :: rest' := by
    intro between hhistory hys
    have hplace : ∀ x ∈ between ++ s :: rest, xs.length ≤ x.place :=
      fun x hx => (mem_stagesFrom (hys ▸ hx)).1
    refine ⟨hplace s (List.mem_append_right _ List.mem_cons_self), between,
      rest.map Stage.shift, hhistory, fun x hx => hplace x (List.mem_append_left _ hx), ?_⟩
    rw [hstages', hys, List.map_append, List.map_cons]
    simp only [List.append_assoc]
  rw [hsplit] at hstages
  rcases List.append_eq_append_iff.1 hstages with ⟨front, hxs, hrest⟩ | ⟨between, hhistory, hys⟩
  · cases front with
    | nil => exact Or.inr (behind [] (by simp [hxs]) hrest.symm)
    | cons s' front =>
      obtain ⟨rfl, hrest⟩ := List.cons.inj hrest
      have hmem : s ∈ stagesFrom 0 xs := hxs ▸ List.mem_append_right _ List.mem_cons_self
      have hplace : s.place < xs.length := by simpa using (mem_stagesFrom hmem).2
      rw [hstages', hxs, List.append_assoc, List.cons_append]
      exact Or.inl ⟨hplace, _, rfl⟩
  · exact Or.inr (behind between hhistory hys)

/-- What is reported on a call depends on the origin that is found for it. -/
theorem callReports_congr {history history' : List Stage}
    (h : (latest? (visitedFunctions history') name).bind Visited.origin? =
      (latest? (visitedFunctions history) name).bind Visited.origin?) :
    Builtin.callReports history' t id name = Builtin.callReports history t id name := by
  rw [Builtin.callReports, Builtin.callReports, h]

/-- A call on which nothing is reported has found a function. -/
theorem exists_latest_of_callReports (h : Builtin.callReports history t id name = []) :
    ∃ g, latest? (visitedFunctions history) name = some g := by
  cases hg : latest? (visitedFunctions history) name with
  | some g => exact ⟨g, rfl⟩
  | none =>
    rw [Builtin.callReports, hg, Option.bind_none] at h
    cases h

theorem place_of_visitedFunctions {stages : List Stage} {g : Visited Function}
    (h : g ∈ visitedFunctions stages) : ∃ s ∈ stages, s.place = g.place := by
  obtain ⟨s, hs, hg⟩ := List.mem_filterMap.1 h
  rw [Stage.function?_eq_some_iff.1 hg] at hs
  exact ⟨_, hs, rfl⟩

/-- The function that a call finds behind an inserted tree: one between the tree and the call, or one
of the tree, or one in front of the tree. -/
theorem latest?_insert (front between : List Stage) (u : Tree) (place : Nat) (name : String) :
    latest? (visitedFunctions (front ++ u.stages place ++ between.map Stage.shift)) name =
      ((latest? (visitedFunctions between) name).map Visited.shift).or
        ((latest? (visitedFunctions (u.stages place)) name).or
          (latest? (visitedFunctions front) name)) := by
  have happend : ∀ ss ss' : List Stage,
      visitedFunctions (ss ++ ss') = visitedFunctions ss ++ visitedFunctions ss' :=
    fun _ _ => List.filterMap_append
  rw [happend, happend, visitedFunctions_map_shift, latest?_append, latest?_append,
    latest?_map_shift]

/-- What is reported on a call behind an inserted tree, if nothing is reported without the tree. -/
theorem callReports_insert {front between : List Stage} {caller : String} {g : Visited Function}
    (hcaller : t.moduleNameAbove? id = some caller) (hunrelated : u.UnrelatedTo t id)
    (hfront : ∀ x ∈ front, x.place < place) (hbetween : ∀ x ∈ between, place ≤ x.place)
    (hg : latest? (visitedFunctions (front ++ between)) name = some g)
    (hsilent : Builtin.callReports (front ++ between) t id name = []) :
    let history' := front ++ u.stages place ++ between.map Stage.shift
    (g.place < place ∧ u.Declares name →
      ∃ m, t.notImported id name m ∈ Builtin.callReports history' t id name) ∧
    (¬ (g.place < place ∧ u.Declares name) → Builtin.callReports history' t id name = []) := by
  have hlatest := latest?_insert front between u place name
  have hg' := hg
  rw [visitedFunctions, List.filterMap_append, ← visitedFunctions, ← visitedFunctions,
    latest?_append] at hg'
  cases hlast : latest? (visitedFunctions between) name with
  | some g' =>
    -- the function stands behind the inserted tree, where nothing changes
    rw [hlast, Option.some_or] at hg'
    obtain rfl := Option.some.inj hg'
    obtain ⟨s, hs, hplace⟩ := place_of_visitedFunctions (mem_of_latest? hlast)
    have hbehind : ¬ g'.place < place := Nat.not_lt.2 (hplace ▸ hbetween s hs)
    refine ⟨fun h => absurd h.1 hbehind, fun _ => ?_⟩
    rw [← hsilent]
    refine callReports_congr ?_
    rw [hlatest, hlast, hg]
    rfl
  | none =>
    rw [hlast, Option.none_or] at hg'
    obtain ⟨s, hs, hplace⟩ := place_of_visitedFunctions (mem_of_latest? hg')
    have hfirst : g.place < place := hplace ▸ hfront s hs
    rw [hlast, Option.map_none, Option.none_or] at hlatest
    rw [← u.isSome_latest?_stages place name]
    cases hu : latest? (visitedFunctions (u.stages place)) name with
    | none =>
      rw [hu, Option.none_or] at hlatest
      refine ⟨fun h => absurd h.2 (by simp), fun _ => ?_⟩
      rw [← hsilent]
      exact callReports_congr (by rw [hlatest, hg', hg])
    | some gu =>
      rw [hu, Option.some_or] at hlatest
      refine ⟨fun _ => ?_, fun h => absurd ⟨hfirst, rfl⟩ h⟩
      obtain ⟨m, hm, hname, himports⟩ := hunrelated.moduleName? (mem_of_latest? hu)
      refine ⟨m, (Builtin.notImported_mem_callReports_iff hlatest hm hcaller).2 ⟨?_, himports⟩⟩
      rintro rfl
      exact hname hcaller

/-- The place of a tree after another has been inserted. -/
def placeAfterInsert (inserted place : Nat) : Nat := if place < inserted then place else place + 1

/-- **A tree that has nothing to do with a call.** A call on which nothing is reported has found a
function. If a tree is inserted whose modules neither are imported by the program of the call nor
have the name of its module, then an error is reported on the call if the tree stands between the
tree of that function and the tree of the call, taking the place of the latter or one in front of it,
and declares a function of the called name. Otherwise nothing is reported. -/
theorem reportsAt_insert (hb : Builtin.callVisibility ∈ bs) (hc : c.trees = xs ++ ys)
    (hc' : c'.trees = xs ++ u :: ys) (hvisits : AllVisits c.stages) (hu : u.WellKinded)
    (hsplit : c.stages =
      history ++ ⟨place, t, .visit ⟨id, .expression (.call name arguments)⟩⟩ :: rest)
    (hsilent : Builtin.callVisibility.reportsAt ((Analyzer.ofBuiltin bs).log c) place id = [])
    (hunrelated : u.UnrelatedTo t id) :
    ∃ g, latest? (visitedFunctions history) name = some g ∧
      (g.place < xs.length ∧ xs.length ≤ place ∧ u.Declares name →
        ∃ m, t.notImported id name m ∈ Builtin.callVisibility.reportsAt
          ((Analyzer.ofBuiltin bs).log c') (placeAfterInsert xs.length place) id) ∧
      (¬ (g.place < xs.length ∧ xs.length ≤ place ∧ u.Declares name) →
        Builtin.callVisibility.reportsAt
          ((Analyzer.ofBuiltin bs).log c') (placeAfterInsert xs.length place) id = []) := by
  have hvisits' := allVisits_insert hc hc' hvisits hu
  have hreports : Builtin.callReports history t id name = [] :=
    (Builtin.reportsAt_eq_nil_iff hb hvisits hsplit).1 hsilent
  obtain ⟨g, hg⟩ := exists_latest_of_callReports hreports
  obtain ⟨m, -, -, -, -, hcaller⟩ := exists_moduleNameAbove
    (hsplit ▸ List.mem_append_right _ List.mem_cons_self)
  refine ⟨g, hg, ?_⟩
  rcases stages_insert hc hc' hsplit with ⟨hplace, rest', hsplit'⟩ |
    ⟨hplace, between, rest', rfl, hbetween, hsplit'⟩
  · -- the call stands in front of the inserted tree
    have hfront : placeAfterInsert xs.length place = place := if_pos hplace
    rw [hfront]
    refine ⟨fun h => absurd hplace (Nat.not_lt.2 h.2.1), fun _ => ?_⟩
    exact (Builtin.reportsAt_eq_nil_iff hb hvisits' hsplit').2 hreports
  · have hbehind : placeAfterInsert xs.length place = place + 1 := if_neg (Nat.not_lt.2 hplace)
    have hxs : ∀ x ∈ stagesFrom 0 xs, x.place < xs.length := fun x hx => by
      simpa using (mem_stagesFrom hx).2
    obtain ⟨hdeclares, hother⟩ := callReports_insert hcaller hunrelated hxs hbetween hg hreports
    rw [hbehind]
    constructor
    · rintro ⟨hlt, -, hname⟩
      obtain ⟨m, hm⟩ := hdeclares ⟨hlt, hname⟩
      exact ⟨m, (Builtin.mem_reportsAt_iff hb hvisits' hsplit').2 hm⟩
    · intro hnot
      exact (Builtin.reportsAt_eq_nil_iff hb hvisits' hsplit').2
        (hother fun h => hnot ⟨h.1, hplace, h.2⟩)

end Insert

theorem isSome_otherTree :
    (Tree.ofNodes "other.tw" (libraryNodes "Other") 2).toOption.isSome = true := by
  decide +kernel

/-- A program with a module `Other` that declares the same function as the library. -/
def otherTree : Tree :=
  (Tree.ofNodes "other.tw" (libraryNodes "Other") 2).toOption.get isSome_otherTree

theorem wellKinded_otherTree : otherTree.WellKinded := by decide +kernel

theorem allVisits_libraryTree_mainTree :
    AllVisits (Compilation.ofTrees [libraryTree, mainTree]).stages := by
  have hwell : ∀ t ∈ [libraryTree, mainTree], t.WellKinded := by decide +kernel
  exact allVisits_of_wellKinded hwell

/-- Between the library and the main program, the program with the module `Other` causes an error on
the call; behind the main program it causes none. -/
theorem reportsAt_insert_mainTree :
    otherTree.UnrelatedTo mainTree 1 ∧
    (∃ m, mainTree.notImported 1 "twice" m ∈ Builtin.callVisibility.reportsAt
      ((Analyzer.ofBuiltin Builtin.all).log (.ofTrees [libraryTree, otherTree, mainTree])) 2 1) ∧
    Builtin.callVisibility.reportsAt
      ((Analyzer.ofBuiltin Builtin.all).log (.ofTrees [libraryTree, mainTree, otherTree])) 1 1 = [] := by
  have hunrelated : otherTree.UnrelatedTo mainTree 1 := by decide +kernel
  have hsilent : Builtin.callVisibility.reportsAt
      ((Analyzer.ofBuiltin Builtin.all).log (.ofTrees [libraryTree, mainTree])) 1 1 = [] := by
    decide +kernel
  have hdeclares : otherTree.Declares "twice" := by decide +kernel
  have hplace : (latest? (visitedFunctions (libraryTree.stages 0 ++ mainTree.stagesOf 1 mainSteps))
      "twice").map Visited.place = some 0 := by
    decide +kernel
  have hsplit := stages_pair (t := libraryTree) steps_mainTree
  obtain ⟨g, hg, hbetween, -⟩ := reportsAt_insert (Builtin.mem_all _)
    (Compilation.trees_ofTrees ([libraryTree] ++ [mainTree]))
    (Compilation.trees_ofTrees ([libraryTree] ++ otherTree :: [mainTree]))
    allVisits_libraryTree_mainTree wellKinded_otherTree hsplit hsilent hunrelated
  obtain ⟨g', -, -, hbehind⟩ := reportsAt_insert (Builtin.mem_all _)
    (Compilation.trees_ofTrees ([libraryTree, mainTree] ++ []))
    (Compilation.trees_ofTrees ([libraryTree, mainTree] ++ otherTree :: []))
    allVisits_libraryTree_mainTree wellKinded_otherTree hsplit hsilent hunrelated
  rw [hg] at hplace
  refine ⟨hunrelated, hbetween ⟨?_, Nat.le_refl 1, hdeclares⟩, hbehind fun h => ?_⟩
  · rw [Option.some.inj hplace]
    exact Nat.one_pos
  · exact absurd h.2.1 (by decide)

/-- The call of the main program is fine behind the library, and it is an error if the program with
the module `Other`, which is neither imported nor the module of the call, comes in between. -/
theorem unrelated_tree_interferes :
    (∀ t ∈ [libraryTree, otherTree, mainTree], t.WellKinded) ∧
    (otherTree.program.modules.filterMap otherTree.module?).map (lowercase ·.name) = ["other"] ∧
    (mainTree.program.imports.filterMap mainTree.import?).map (lowercase ·.moduleName) = ["lib"] ∧
    (mainTree.moduleNameAbove? 1).map lowercase = some "main" ∧
    Step.visit ⟨1, .expression (.call "twice" [])⟩ ∈ mainTree.steps ∧
    Builtin.callVisibility.reportsAt
      ((Analyzer.ofRegistry .builtin).log (.ofTrees [libraryTree, mainTree])) 1 1 = [] ∧
    Builtin.callVisibility.reportsAt
      ((Analyzer.ofRegistry .builtin).log (.ofTrees [libraryTree, otherTree, mainTree])) 2 1 =
        [mainTree.notImported 1 "twice" "Other"] := by
  decide +kernel

end ProgramCheck
