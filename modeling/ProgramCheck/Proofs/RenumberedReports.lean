import ProgramCheck.Proofs.MatchedReports
import ProgramCheck.Proofs.Renumbering

/-!
# Reports under other numbers

The built-in rules report the same under other numbers, as the trees match, and a walk that meets a
node out of place ends with the same defect. So what becomes of a list of trees depends on their
outlines alone.
-/

namespace ProgramCheck

theorem Renumbering.resolves_iff {t t' : Tree} {σ : NodeId → NodeId} (r : Renumbering t t' σ)
    (name : String) : Resolves [t'] name ↔ Resolves [t] name := by
  simp only [Resolves, List.mem_singleton, exists_eq_left]
  constructor
  · rintro ⟨id', m', hm', heq⟩
    obtain ⟨id, rfl⟩ := r.bijective.surjective id'
    rw [r.module?] at hm'
    obtain ⟨m, hm, rfl⟩ := Option.map_eq_some_iff.1 hm'
    exact ⟨id, m, hm, heq⟩
  · rintro ⟨id, m, hm, heq⟩
    exact ⟨σ id, m.renumber σ, by rw [r.module?, hm, Option.map_some], heq⟩

/-! ### Stages under other numbers -/

/-- Whether a stage is another one under other numbers. -/
inductive Stage.Renumbers : Stage → Stage → Prop
  | step (place : Nat) {t t' : Tree} {σ : NodeId → NodeId} (r : Renumbering t t' σ) (step : Step) :
    Renumbers ⟨place, t, step⟩ ⟨place, t', step.renumber σ t'.name⟩

/-- The walks through trees that are the same under other numbers are so too. -/
theorem forall₂_stagesFrom {trees trees' : List Tree} (place : Nat)
    (h : List.Forall₂ (fun t t' => ∃ σ, Renumbering t t' σ) trees trees') :
    List.Forall₂ Stage.Renumbers (stagesFrom place trees) (stagesFrom place trees') := by
  induction h generalizing place with
  | nil => exact List.Forall₂.nil
  | cons ht _ ih =>
    obtain ⟨σ, r⟩ := ht
    rw [stagesFrom_cons, stagesFrom_cons]
    refine List.rel_append ?_ (ih (place + 1))
    rw [Tree.stages, Tree.stages, r.steps, List.map_map, List.forall₂_map_left_iff,
      List.forall₂_map_right_iff]
    exact List.forall₂_same.2 fun step _ => .step place r step

/-! ### A whole check -/

/-- A defect without the number of its node and the name of its tree. -/
def Defect.label (d : Defect) : Defect := d.renumber (fun _ => 0) ""

theorem Defect.label_renumber (σ : NodeId → NodeId) (name : String) (d : Defect) :
    (d.renumber σ name).label = d.label := by
  cases d <;> rfl

section Walk

variable {history history' stages stages' : List Stage}

/-- Two walks that are the same under other numbers both meet no node out of place, or both end with
the same defect but for its number. -/
theorem follow_renumbered (bs : List Builtin)
    (hstages : List.Forall₂ Stage.Renumbers stages stages')
    (hhoused : Housed (history ++ stages)) (hhoused' : Housed (history' ++ stages'))
    (c c' : Compilation) (r r' : Report) :
    (AllVisits stages ∧ AllVisits stages') ∨
      ∃ d d', Analysis.follow ⟨bs.map (·.activeAfter history), c, r⟩ stages = .error d ∧
        Analysis.follow ⟨bs.map (·.activeAfter history'), c', r'⟩ stages' = .error d' ∧
        d'.label = d.label := by
  induction hstages generalizing history history' c c' r r' with
  | nil => exact Or.inl ⟨fun _ h => absurd h List.not_mem_nil, fun _ h => absurd h List.not_mem_nil⟩
  | @cons s s' stages stages' hs _ ih =>
    rw [← List.singleton_append, ← List.append_assoc] at hhoused hhoused'
    obtain ⟨place, hr, step⟩ := hs
    cases step with
    | defect d => exact Or.inr ⟨d, _, rfl, rfl, d.label_renumber _ _⟩
    | visit v =>
      obtain ⟨next, report, hadvance, -, -⟩ :=
        Analysis.advance_builtin bs (c := c) (r := r) (housed_append_iff.1 hhoused).1
      obtain ⟨next', report', hadvance', -, -⟩ :=
        Analysis.advance_builtin bs (c := c') (r := r') (housed_append_iff.1 hhoused').1
      simp only [Step.renumber, Analysis.follow, hadvance, hadvance']
      refine (ih hhoused hhoused' next next' report report').imp ?_ id
      rintro ⟨hvisits, hvisits'⟩
      exact ⟨List.forall_mem_cons.2 ⟨⟨v, rfl⟩, hvisits⟩,
        List.forall_mem_cons.2 ⟨⟨v.renumber _, rfl⟩, hvisits'⟩⟩

end Walk

namespace Compilation

variable {trees trees' : List Tree}

/-- Built-in rules come to the same end on trees of the same outlines. -/
theorem analyze_of_outlines (bs : List Builtin)
    (h : List.Forall₂ (fun t t' => ∃ σ, Renumbering t t' σ) trees trees') :
    (∃ d d', (Analyzer.ofBuiltin bs).analyze (ofTrees trees) = .error d ∧
        (Analyzer.ofBuiltin bs).analyze (ofTrees trees') = .error d' ∧ d'.label = d.label) ∨
      ∃ a a', (Analyzer.ofBuiltin bs).analyze (ofTrees trees) = .ok a ∧
        (Analyzer.ofBuiltin bs).analyze (ofTrees trees') = .ok a' ∧ a'.report = a.report := by
  have hstages : List.Forall₂ Stage.Renumbers (ofTrees trees).stages (ofTrees trees').stages := by
    rw [stages_eq, stages_eq, trees_ofTrees, trees_ofTrees]
    exact forall₂_stagesFrom 0 h
  have hhoused : Housed ([] ++ (ofTrees trees).stages) := (ofTrees trees).housed_stages
  have hhoused' : Housed ([] ++ (ofTrees trees').stages) := (ofTrees trees').housed_stages
  rcases follow_renumbered bs hstages hhoused hhoused' (ofTrees trees) (ofTrees trees') {} {} with
    ⟨hvisits, -⟩ | hdefects
  · right
    have hmatch := h.imp fun _ _ ⟨σ, r⟩ => (⟨σ, r.matching⟩ : ∃ σ, Matching Eq _ _ σ)
    have hresolves := resolves_iff_of_forall₂ (h.imp fun _ _ ⟨_, r⟩ => r.resolves_iff)
    rcases analyze_of_matching bs hmatch hresolves with ⟨d, -, hd, -⟩ | ⟨a, a', ha, ha', hreport⟩
    · obtain ⟨a, ha, -⟩ := Analyzer.analyze_builtin bs hvisits
      cases ha.symm.trans hd
    · exact ⟨a, a', ha, ha', hreport.eq.symm⟩
  · left
    simpa only [Analyzer.analyze, Analyzer.rules_ofBuiltin] using hdefects

/-- **The numbers do not show.** Two lists of trees with the same outlines, checked with built-in
rules under a configuration that is accepted for them, either both fail, and with the same defect but
for the number of its node and the name of its tree, or have the same errors and the same
warnings. -/
theorem withConfig_of_outlines {bs : List Builtin} {config : Config} {analyzer : Analyzer}
    (houtlines : trees.map (fun t => t.outline t.root) = trees'.map fun t => t.outline t.root)
    (hconfig : Analyzer.withConfig (bs.map (·.rule)) config = .ok analyzer) :
    (∃ d d', withConfig trees (bs.map (·.rule)) config = .ok (.error d) ∧
        withConfig trees' (bs.map (·.rule)) config = .ok (.error d') ∧ d'.label = d.label) ∨
      ∃ c c', withConfig trees (bs.map (·.rule)) config = .ok (.ok c) ∧
        withConfig trees' (bs.map (·.rule)) config = .ok (.ok c') ∧
        c'.report.errors = c.report.errors ∧ c'.report.warnings = c.report.warnings := by
  have hrenumbered : List.Forall₂ (fun t t' => ∃ σ, Renumbering t t' σ) trees trees' :=
    (map_eq_map_iff_forall₂.1 houtlines).imp fun _ _ => outline_eq_iff_exists_renumbering.1
  simp only [withConfig, hconfig]
  obtain ⟨-, rfl⟩ := Analyzer.withConfig_eq_ok_iff.1 hconfig
  rcases analyze_of_outlines (config.kept bs) hrenumbered with
    ⟨d, d', hd, hd', hlabel⟩ | ⟨a, a', ha, ha', hreport⟩
  · left
    exact ⟨d, d', by rw [analyzed, hd], by rw [analyzed, hd'], hlabel⟩
  · right
    simp only [analyzed, ha, ha', hreport]
    exact ⟨_, _, rfl, rfl, rfl, rfl⟩

end Compilation

/-! ### The main program in another order -/

/-- The nodes of the program that calls the function of the library, its import behind the
function. -/
def reorderedNodes : List Node :=
  [⟨.expression (.call "twice" []), ⟨4, 1⟩⟩,
   ⟨.statement (.evaluation 0), ⟨4, 1⟩⟩,
   ⟨.functionDecl ⟨"main", .void, {}, [], some [1]⟩, ⟨3, 1⟩⟩,
   ⟨.importDecl ⟨"LIB"⟩, ⟨1, 1⟩⟩,
   ⟨.moduleDecl ⟨"Main", [2], []⟩, ⟨2, 1⟩⟩,
   ⟨.program ⟨[3], [4]⟩, ⟨1, 1⟩⟩]

theorem isSome_reorderedTree :
    (Tree.ofNodes "again.tw" reorderedNodes 5).toOption.isSome = true := by
  decide +kernel

/-- This program as a tree. -/
def reorderedTree : Tree :=
  (Tree.ofNodes "again.tw" reorderedNodes 5).toOption.get isSome_reorderedTree

/-- The call is node 1 of the one tree and node 0 of the other, and it is reported at the same
position in the source. -/
theorem Compilation.withConfig_of_outlines_reorderedTree :
    mainTree.preorder mainTree.root = [5, 0, 4, 3, 2, 1] ∧
      reorderedTree.preorder reorderedTree.root = [5, 3, 4, 2, 1, 0] ∧
      ∃ c c', withConfig [mainTree] (Builtin.all.map (·.rule)) { disabledRules := ["import"] } =
          .ok (.ok c) ∧
        withConfig [reorderedTree] (Builtin.all.map (·.rule)) { disabledRules := ["import"] } =
          .ok (.ok c') ∧
        c'.report.errors = [⟨.error, ⟨4, 1⟩, "Tried to call unknown function 'twice'."⟩] ∧
        c'.report.warnings = c.report.warnings := by
  have houtlines : [mainTree].map (fun t => t.outline t.root) =
      [reorderedTree].map fun t => t.outline t.root := by
    decide +kernel
  have hconfig : Analyzer.withConfig (Builtin.all.map (·.rule)) { disabledRules := ["import"] } =
      .ok (Analyzer.ofBuiltin [.duplicateParameter, .duplicateFunction, .duplicateModule,
        .callVisibility, .functionBody, .valueType]) := by
    rfl
  have hmain : (withConfig [mainTree] (Builtin.all.map (·.rule))
      { disabledRules := ["import"] }).toOption.bind (·.toOption.map (·.report.errors)) =
      some [⟨.error, ⟨4, 1⟩, "Tried to call unknown function 'twice'."⟩] := by
    decide +kernel
  refine ⟨by decide +kernel, by decide +kernel, ?_⟩
  rcases withConfig_of_outlines houtlines hconfig with
    ⟨d, -, hd, -⟩ | ⟨c, c', hc, hc', herrors, hwarnings⟩
  · simp [hd, Except.toOption] at hmain
  · rw [hc] at hmain
    exact ⟨c, c', hc, hc', herrors.trans (Option.some.inj hmain), hwarnings⟩

end ProgramCheck
