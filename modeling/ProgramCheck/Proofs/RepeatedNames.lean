import Mathlib.Data.List.Induction
import ProgramCheck.Proofs.BuiltinColumns

/-!
# Names that are repeated

The rules on parameters and on functions look for the members of a list that are the second ones of
their names. `secondPlaces` lists these with their places, so each name that occurs twice or more is
in it once, and no other name is. `collisions` finds the same with two sets that grow along the list:
the names that have been seen, and of these the ones that have been reported.
-/

namespace ProgramCheck

/-! ### Second members of a name -/

section Second

variable {α : Type} (key : α → String)

/-- The members of a list whose key is that of exactly one member before them, with their places. -/
def secondPlaces (as : List α) : List (α × Nat) :=
  as.zipIdx.filter fun x => ((as.take x.2).map key).count (key x.1) = 1

/-- The members of a list whose key has been seen and has not been reported yet. -/
def collisions : List String → List String → List α → List α
  | _, _, [] => []
  | seen, reported, a :: as =>
    if key a ∈ seen then
      if key a ∈ reported then collisions seen reported as
      else a :: collisions seen (key a :: reported) as
    else collisions (key a :: seen) reported as

theorem secondOccurrencesFrom_append (before : List String) (xs ys : List α) :
    secondOccurrencesFrom key before (xs ++ ys) =
      secondOccurrencesFrom key before xs ++
        secondOccurrencesFrom key ((xs.map key).reverse ++ before) ys := by
  induction xs generalizing before with
  | nil => rfl
  | cons x xs ih =>
    rw [List.cons_append, secondOccurrencesFrom, secondOccurrencesFrom, ih, List.map_cons,
      List.reverse_cons, List.append_assoc, List.singleton_append]
    split <;> rfl

theorem secondOccurrences_concat (as : List α) (a : α) :
    secondOccurrences key (as ++ [a]) =
      secondOccurrences key as ++ if (as.map key).count (key a) = 1 then [a] else [] := by
  rw [secondOccurrences, secondOccurrencesFrom_append, secondOccurrences, secondOccurrencesFrom,
    List.append_nil, List.count_reverse]
  rfl

theorem secondPlaces_concat (as : List α) (a : α) :
    secondPlaces key (as ++ [a]) =
      secondPlaces key as ++
        if (as.map key).count (key a) = 1 then [(a, as.length)] else [] := by
  have hfront : as.zipIdx.filter (fun x => (((as ++ [a]).take x.2).map key).count (key x.1) = 1) =
      secondPlaces key as := by
    refine List.filter_congr fun x hx => ?_
    have hplace : x.2 < as.length := (List.mem_zipIdx' hx).1
    rw [List.take_append_of_le_length (Nat.le_of_lt hplace)]
  rw [secondPlaces, List.zipIdx_append, List.filter_append, hfront, Nat.zero_add,
    List.zipIdx_singleton, List.filter_singleton, List.take_left, Bool.cond_decide]

/-- The second members are those at the second places. -/
theorem secondOccurrences_eq_map (as : List α) :
    secondOccurrences key as = (secondPlaces key as).map Prod.fst := by
  induction as using List.reverseRecOn with
  | nil => rfl
  | append_singleton as a ih =>
    rw [secondOccurrences_concat, secondPlaces_concat, ih, List.map_append]
    split <;> rfl

/-- A key that occurs twice or more has one second place, and any other key has none. -/
theorem countP_secondPlaces (as : List α) (n : String) :
    (secondPlaces key as).countP (fun x => key x.1 = n) =
      if 2 ≤ (as.map key).count n then 1 else 0 := by
  induction as using List.reverseRecOn with
  | nil => rfl
  | append_singleton as a ih =>
    have hnew : (if (as.map key).count (key a) = 1 then [(a, as.length)] else []).countP
        (fun x => key x.1 = n) = if key a = n ∧ (as.map key).count n = 1 then 1 else 0 := by
      by_cases ha : key a = n
      · subst ha
        split <;> simp_all
      · split <;> simp [ha]
    have hcount : ((as ++ [a]).map key).count n =
        (as.map key).count n + if key a = n then 1 else 0 := by
      simp [List.count_singleton]
    rw [secondPlaces_concat, List.countP_append, ih, hnew, hcount]
    by_cases ha : key a = n
    · simp only [ha, true_and, if_true]
      split_ifs <;> omega
    · simp only [ha, false_and, if_false, Nat.add_zero]

/-- The second places are in their order. -/
theorem pairwise_secondPlaces (as : List α) :
    (secondPlaces key as).Pairwise fun x y => x.2 < y.2 := by
  have hplaces : (as.zipIdx.map Prod.snd).Pairwise (· < ·) := by
    rw [List.zipIdx_map_snd]
    exact List.pairwise_lt_range'
  exact (List.pairwise_map.1 hplaces).sublist List.filter_sublist

theorem two_le_count_cons_iff {before : List String} {k n : String} :
    2 ≤ (k :: before).count n ↔ 2 ≤ before.count n ∨ k = n ∧ k ∈ before := by
  rw [List.count_cons]
  by_cases hk : k = n
  · subst hk
    rw [← List.count_pos_iff, if_pos (beq_self_eq_true k), eq_self_iff_true, true_and]
    omega
  · rw [if_neg (by simpa using hk)]
    simp [hk]

/-- A scan that has seen the keys of some members, and has reported those that occur twice or more
among them, reports the second occurrences behind them. -/
theorem collisions_eq_secondOccurrencesFrom (as : List α) {seen reported before : List String}
    (hseen : ∀ n, n ∈ seen ↔ n ∈ before) (hreported : ∀ n, n ∈ reported ↔ 2 ≤ before.count n) :
    collisions key seen reported as = secondOccurrencesFrom key before as := by
  induction as generalizing seen reported before with
  | nil => rfl
  | cons a as ih =>
    rw [collisions, secondOccurrencesFrom]
    -- the key is new, or it is reported here, or it has been reported before
    by_cases hmem : key a ∈ before
    · have hpos : 0 < before.count (key a) := List.count_pos_iff.2 hmem
      have hseen' : ∀ n, n ∈ seen ↔ n ∈ key a :: before := by
        intro n
        rw [hseen, List.mem_cons]
        exact ⟨Or.inr, fun h => h.elim (fun heq => heq ▸ hmem) id⟩
      rw [if_pos ((hseen _).2 hmem)]
      by_cases htwo : 2 ≤ before.count (key a)
      · rw [if_pos ((hreported _).2 htwo), if_neg (by omega)]
        refine ih hseen' fun n => ?_
        rw [hreported, two_le_count_cons_iff]
        exact ⟨Or.inl, fun h => h.elim id fun heq => heq.1 ▸ htwo⟩
      · rw [if_neg (by rwa [hreported]), if_pos (by omega)]
        refine congrArg (a :: ·) (ih hseen' fun n => ?_)
        rw [List.mem_cons, hreported, two_le_count_cons_iff, or_comm, eq_comm]
        simp [hmem]
    · have hzero : before.count (key a) = 0 := List.count_eq_zero.2 hmem
      rw [if_neg (by rwa [hseen]), if_neg (by omega)]
      refine ih (fun n => ?_) fun n => ?_
      · rw [List.mem_cons, List.mem_cons, hseen]
      · rw [hreported, two_le_count_cons_iff]
        simp [hmem]

/-- **The scan with two sets** finds the second occurrences. -/
theorem collisions_eq_secondOccurrences (as : List α) :
    collisions key [] [] as = secondOccurrences key as :=
  collisions_eq_secondOccurrencesFrom key as (fun _ => Iff.rfl) (by simp)

end Second

/-! ### Parameters and functions -/

namespace Tree

variable {t : Tree}

/-- The parameters that a function lists. -/
def parametersOf (t : Tree) (f : Function) : List Parameter := f.parameters.filterMap t.parameter?

/-- The errors about the parameters of a function, at the position of the function. -/
def parameterErrors (t : Tree) (id : NodeId) (f : Function) : List Diagnostic :=
  (secondPlaces Parameter.name (t.parametersOf f)).map fun x =>
    t.error id ("Duplicate parameter '" ++ x.1.name ++ "' in function '" ++ f.name ++ "'.")

/-- The errors about the functions of a module, each at the position of the second function of its
name. -/
def functionErrors (t : Tree) (m : Module) : List Diagnostic :=
  (secondPlaces (·.2.name) (t.functionsOf m)).map fun x =>
    t.error x.1.1 ("Duplicate function '" ++ x.1.2.name ++ "' in module '" ++ m.name ++ "'.")

theorem duplicateParameters_eq (t : Tree) (id : NodeId) (f : Function) :
    t.duplicateParameters id f = t.parameterErrors id f := by
  rw [duplicateParameters, secondOccurrences_eq_map, List.map_map]
  rfl

theorem duplicateFunctions_eq (t : Tree) (m : Module) :
    t.duplicateFunctions m = t.functionErrors m := by
  rw [duplicateFunctions, secondOccurrences_eq_map, List.map_map]
  rfl

/-- Without the nodes of other sorts in its list a function has the same parameters. -/
theorem parametersOf_filter (t : Tree) (f : Function) :
    t.parametersOf { f with parameters := f.parameters.filter fun id => (t.parameter? id).isSome } =
      t.parametersOf f := by
  rw [parametersOf, List.filterMap_filter, parametersOf]
  refine congrArg (f.parameters.filterMap ·) (funext fun id => ?_)
  cases t.parameter? id <;> rfl

/-- Without the nodes of other sorts in its list a module has the same functions. -/
theorem functionsOf_filter (t : Tree) (m : Module) :
    t.functionsOf { m with functions := m.functions.filter fun id => (t.function? id).isSome } =
      t.functionsOf m := by
  rw [functionsOf, List.filterMap_filter, functionsOf]
  refine congrArg (m.functions.filterMap ·) (funext fun id => ?_)
  cases t.function? id <;> rfl

end Tree

namespace Analyzer

open Analysis

variable {a : Analyzer} {c : Compilation} {result : Analysis} {i : Nat}

theorem column_duplicateParameter (h : a.analyze c = .ok result)
    (hi : a.rules[i]? = some Rule.duplicateParameter.activate) :
    (column i (a.rows c)).flatMap Reply.reports =
      (declaredFunctions c.trees).flatMap fun g => g.tree.parameterErrors g.id g.node := by
  obtain ⟨htells, hstages⟩ := tells_rows h (b := .duplicateParameter) hi
  rw [htells.reports_of_pick _ _ (Builtin.reports_duplicateParameter c.trees), hstages,
    ← visitedFunctions, c.visitedFunctions_stages]
  simp only [Tree.duplicateParameters_eq]

theorem column_duplicateFunction (h : a.analyze c = .ok result)
    (hi : a.rules[i]? = some Rule.duplicateFunction.activate) :
    (column i (a.rows c)).flatMap Reply.reports =
      (declaredModules c.trees).flatMap fun m => m.tree.functionErrors m.node := by
  obtain ⟨htells, hstages⟩ := tells_rows h (b := .duplicateFunction) hi
  rw [htells.reports_of_pick _ _ (Builtin.reports_duplicateFunction c.trees), hstages,
    ← visitedModules, c.visitedModules_stages]
  simp only [Tree.duplicateFunctions_eq]

/-- **Repeated names of parameters and of functions.** At a function the rule on parameters answers
with one error for each name that two or more of its parameters have, in the order of the second
parameters of these names; at a module the rule on functions does so for the functions of the module.
Both find the names with two sets that grow along the list, and pass over nodes of other sorts. In a
run that comes to its end they report this for every function and for every module. -/
theorem duplicateNames_reports :
    (∀ (cx : Context) (id : NodeId) (f : Function) (state : Rule.duplicateParameter.State),
      ∃ response, Rule.duplicateParameter.respond cx ⟨id, .functionDecl f⟩ state = .ok response ∧
        response.reports = cx.tree.parameterErrors id f) ∧
    (∀ (cx : Context) (id : NodeId) (m : Module) (state : Rule.duplicateFunction.State),
      ∃ response, Rule.duplicateFunction.respond cx ⟨id, .moduleDecl m⟩ state = .ok response ∧
        response.reports = cx.tree.functionErrors m) ∧
    (∀ {α : Type} (key : α → String) (as : List α),
      ((secondPlaces key as).Pairwise fun x y => x.2 < y.2) ∧
      (∀ n, (secondPlaces key as).countP (fun x => key x.1 = n) =
        if 2 ≤ (as.map key).count n then 1 else 0) ∧
      (secondPlaces key as).map Prod.fst = collisions key [] [] as) ∧
    (∀ (t : Tree) (id : NodeId) (f : Function),
      t.parameterErrors id
          { f with parameters := f.parameters.filter fun id => (t.parameter? id).isSome } =
        t.parameterErrors id f) ∧
    (∀ (t : Tree) (m : Module),
      t.functionErrors
          { m with functions := m.functions.filter fun id => (t.function? id).isSome } =
        t.functionErrors m) ∧
    ∀ (a : Analyzer) (c : Compilation) (result : Analysis), a.analyze c = .ok result →
      (∀ i, a.rules[i]? = some Rule.duplicateParameter.activate →
        (column i (a.rows c)).flatMap Reply.reports =
          (declaredFunctions c.trees).flatMap fun g => g.tree.parameterErrors g.id g.node) ∧
      ∀ i, a.rules[i]? = some Rule.duplicateFunction.activate →
        (column i (a.rows c)).flatMap Reply.reports =
          (declaredModules c.trees).flatMap fun m => m.tree.functionErrors m.node := by
  refine ⟨fun cx id f _ => ⟨_, rfl, cx.tree.duplicateParameters_eq id f⟩,
    fun cx id m _ => ⟨_, rfl, cx.tree.duplicateFunctions_eq m⟩,
    fun key as => ⟨pairwise_secondPlaces key as, countP_secondPlaces key as, ?_⟩,
    fun t id f => ?_, fun t m => ?_,
    fun a c result h => ⟨fun i hi => column_duplicateParameter h hi,
      fun i hi => column_duplicateFunction h hi⟩⟩
  · rw [collisions_eq_secondOccurrences, secondOccurrences_eq_map]
  · rw [Tree.parameterErrors, t.parametersOf_filter, Tree.parameterErrors]
  · rw [Tree.functionErrors, t.functionsOf_filter, Tree.functionErrors]

end Analyzer

/-! ### Interleaved repetitions -/

/-- The nodes of a program with one module. Its first function has parameters of the names `x`, `y`,
`Y`, `y`, `x`, `x`, with an expression among them. -/
def repeatingNodes : List Node :=
  [⟨.parameterDecl ⟨"x", .i32⟩, ⟨2, 2⟩⟩,
   ⟨.parameterDecl ⟨"y", .i32⟩, ⟨2, 3⟩⟩,
   ⟨.expression (.integer 0), ⟨2, 4⟩⟩,
   ⟨.parameterDecl ⟨"Y", .i32⟩, ⟨2, 5⟩⟩,
   ⟨.parameterDecl ⟨"y", .i32⟩, ⟨2, 6⟩⟩,
   ⟨.parameterDecl ⟨"x", .i32⟩, ⟨2, 7⟩⟩,
   ⟨.parameterDecl ⟨"x", .i32⟩, ⟨2, 8⟩⟩,
   ⟨.functionDecl ⟨"f", .void, {}, [0, 1, 2, 3, 4, 5, 6], some []⟩, ⟨2, 1⟩⟩,
   ⟨.functionDecl ⟨"g", .void, {}, [], some []⟩, ⟨3, 1⟩⟩,
   ⟨.functionDecl ⟨"g", .void, {}, [], some []⟩, ⟨4, 1⟩⟩,
   ⟨.functionDecl ⟨"f", .void, {}, [], some []⟩, ⟨5, 1⟩⟩,
   ⟨.functionDecl ⟨"g", .void, {}, [], some []⟩, ⟨6, 1⟩⟩,
   ⟨.moduleDecl ⟨"M", [7, 8, 9, 10, 11], []⟩, ⟨1, 1⟩⟩,
   ⟨.program ⟨[], [12]⟩, ⟨1, 1⟩⟩]

theorem isSome_repeatingTree :
    (Tree.ofNodes "repeating.tw" repeatingNodes 13).toOption.isSome = true := by
  decide +kernel

/-- The program with this module. -/
def repeatingTree : Tree :=
  (Tree.ofNodes "repeating.tw" repeatingNodes 13).toOption.get isSome_repeatingTree

namespace Analyzer

open Analysis

/-- The second `y` stands before the second `x`, and the second `g` before the second `f`. -/
theorem duplicateNames_reports_repeatingTree :
    ∃ result, (ofBuiltin Builtin.all).analyze (.ofTrees [repeatingTree]) = .ok result ∧
      (ofBuiltin Builtin.all).rules[0]? = some Rule.duplicateParameter.activate ∧
      (ofBuiltin Builtin.all).rules[1]? = some Rule.duplicateFunction.activate ∧
      (column 0 ((ofBuiltin Builtin.all).rows (.ofTrees [repeatingTree]))).flatMap Reply.reports =
        [⟨.error, ⟨2, 1⟩, "Duplicate parameter 'y' in function 'f'."⟩,
          ⟨.error, ⟨2, 1⟩, "Duplicate parameter 'x' in function 'f'."⟩] ∧
      (column 1 ((ofBuiltin Builtin.all).rows (.ofTrees [repeatingTree]))).flatMap Reply.reports =
        [⟨.error, ⟨4, 1⟩, "Duplicate function 'g' in module 'M'."⟩,
          ⟨.error, ⟨5, 1⟩, "Duplicate function 'f' in module 'M'."⟩] := by
  have hok : ((ofBuiltin Builtin.all).analyze
      (.ofTrees [repeatingTree])).toOption.isSome = true := by decide +kernel
  cases h : (ofBuiltin Builtin.all).analyze (.ofTrees [repeatingTree]) with
  | error d => simp [h, Except.toOption] at hok
  | ok result =>
    obtain ⟨-, -, -, -, -, hruns⟩ := duplicateNames_reports
    obtain ⟨hparameters, hfunctions⟩ := hruns _ _ result h
    refine ⟨result, rfl, rfl, rfl, ?_, ?_⟩
    · rw [hparameters 0 rfl]
      decide +kernel
    · rw [hfunctions 1 rfl]
      decide +kernel

end Analyzer

end ProgramCheck
