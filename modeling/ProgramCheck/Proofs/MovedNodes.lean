import ProgramCheck.Proofs.MatchedReports

/-!
# Nodes at other positions

Where the nodes of a program stand in the source, and what its trees are called, is of no
consequence for what is found. If two lists of trees differ in nothing else, the built-in rules either fail on
both or report the same, diagnostic by diagnostic, each time at the positions that one node has in
the one list and in the other.
-/

namespace ProgramCheck

/-- Whether two trees have the same nodes, apart from their positions. Their names may differ. -/
structure Tree.SameNodes (t t' : Tree) : Prop where
  root : t'.root = t.root
  kinds : t'.nodes.map Node.kind = t.nodes.map Node.kind

/-- Whether two positions are those of one node: they stand under one number in the trees at one
place of two lists. -/
def OfOneNode (trees trees' : List Tree) (p p' : Position) : Prop :=
  ∃ (place : Nat) (t t' : Tree) (id : NodeId), trees[place]? = some t ∧ trees'[place]? = some t' ∧
    id < t.size ∧ p = t.position id ∧ p' = t'.position id

namespace Tree.SameNodes

variable {t t' : Tree} (h : t.SameNodes t')
include h

theorem kind? (id : NodeId) : t'.kind? id = t.kind? id := by
  rw [Forest.kind?, ← Array.getElem?_map, h.kinds, Array.getElem?_map, Forest.kind?]

/-- A tree matches one with the same nodes, without any change of the numbers. -/
theorem matching {trees trees' : List Tree} {place : Nat} (ht : trees[place]? = some t)
    (ht' : trees'[place]? = some t') : Matching (OfOneNode trees trees') t t' fun id => id where
  root := h.root
  withoutStructs id _ := by
    rw [h.kind?]
    refine Option.map_congr fun k _ => ?_
    exact (congrArg Node.kind (Node.renumber_id ⟨k.withoutStructs, {}⟩)).symm
  position id hid := ⟨place, t, t', id, ht, ht', hid.lt_size, rfl, rfl⟩

theorem resolves_iff (name : String) : Resolves [t'] name ↔ Resolves [t] name := by
  simp only [Resolves, List.mem_singleton, exists_eq_left, Forest.module?, h.kind?]

end Tree.SameNodes

namespace Compilation

/-- **Positions and tree names do not influence what is found.** Two lists of trees that differ in
nothing else, checked with built-in rules under a configuration that is accepted for them, either
both fail, or have the same errors and the same warnings one by one, but for their positions: those
of the two diagnostics are the positions of one node in the one list and in the other. -/
theorem withConfig_of_sameNodes {bs : List Builtin} {config : Config} {analyzer : Analyzer}
    {trees trees' : List Tree} (hnodes : List.Forall₂ Tree.SameNodes trees trees')
    (hconfig : Analyzer.withConfig (bs.map (·.rule)) config = .ok analyzer) :
    (∃ d d', withConfig trees (bs.map (·.rule)) config = .ok (.error d) ∧
        withConfig trees' (bs.map (·.rule)) config = .ok (.error d')) ∨
      ∃ c c', withConfig trees (bs.map (·.rule)) config = .ok (.ok c) ∧
        withConfig trees' (bs.map (·.rule)) config = .ok (.ok c') ∧
        c.report.Similar (OfOneNode trees trees') c'.report := by
  refine withConfig_of_matching hconfig ?_ (resolves_iff_of_forall₂ ?_)
  · obtain ⟨hlength, hnodes⟩ := List.forall₂_iff_get.1 hnodes
    refine List.forall₂_iff_get.2 ⟨hlength, fun place hplace hplace' => ⟨fun id => id, ?_⟩⟩
    exact (hnodes place hplace hplace').matching (List.getElem?_eq_getElem hplace)
      (List.getElem?_eq_getElem hplace')
  · exact hnodes.imp fun _ _ => Tree.SameNodes.resolves_iff

end Compilation

/-! ### The main program further down in another file -/

/-- The nodes of the program that calls the function of the library, a hundred lines further
down. -/
def movedNodes : List Node :=
  (mainNodes "LIB").map fun n => ⟨n.kind, ⟨n.position.line + 100, n.position.column⟩⟩

theorem isSome_movedTree : (Tree.ofNodes "moved.tw" movedNodes 5).toOption.isSome = true := by
  decide +kernel

/-- This program as a tree. -/
def movedTree : Tree := (Tree.ofNodes "moved.tw" movedNodes 5).toOption.get isSome_movedTree

theorem sameNodes_movedTree : mainTree.SameNodes movedTree where
  root := by decide +kernel
  kinds := by decide +kernel

/-- The call is node 1 of both trees, and it is reported at its position in either of them. -/
theorem Compilation.withConfig_of_sameNodes_movedTree :
    mainTree.position 1 = ⟨4, 1⟩ ∧ movedTree.position 1 = ⟨104, 1⟩ ∧
      ∃ c c', withConfig [mainTree] (Builtin.all.map (·.rule)) { disabledRules := ["import"] } =
          .ok (.ok c) ∧
        withConfig [movedTree] (Builtin.all.map (·.rule)) { disabledRules := ["import"] } =
          .ok (.ok c') ∧
        c.report.errors = [⟨.error, ⟨4, 1⟩, "Tried to call unknown function 'twice'."⟩] ∧
        c'.report.errors = [⟨.error, ⟨104, 1⟩, "Tried to call unknown function 'twice'."⟩] ∧
        c.report.Similar (OfOneNode [mainTree] [movedTree]) c'.report := by
  have hnodes : List.Forall₂ Tree.SameNodes [mainTree] [movedTree] :=
    .cons sameNodes_movedTree .nil
  have hconfig : Analyzer.withConfig (Builtin.all.map (·.rule)) { disabledRules := ["import"] } =
      .ok (Analyzer.ofBuiltin [.duplicateParameter, .duplicateFunction, .duplicateModule,
        .callVisibility, .functionBody, .valueType]) := by
    rfl
  have hmain : (withConfig [mainTree] (Builtin.all.map (·.rule))
      { disabledRules := ["import"] }).toOption.bind (·.toOption.map (·.report.errors)) =
      some [⟨.error, ⟨4, 1⟩, "Tried to call unknown function 'twice'."⟩] := by
    decide +kernel
  have hmoved : (withConfig [movedTree] (Builtin.all.map (·.rule))
      { disabledRules := ["import"] }).toOption.bind (·.toOption.map (·.report.errors)) =
      some [⟨.error, ⟨104, 1⟩, "Tried to call unknown function 'twice'."⟩] := by
    decide +kernel
  refine ⟨by decide +kernel, by decide +kernel, ?_⟩
  rcases withConfig_of_sameNodes hnodes hconfig with ⟨d, -, hd, -⟩ | ⟨c, c', hc, hc', hsimilar⟩
  · simp [hd, Except.toOption] at hmain
  · rw [hc] at hmain
    rw [hc'] at hmoved
    exact ⟨c, c', hc, hc', Option.some.inj hmain, Option.some.inj hmoved, hsimilar⟩

end ProgramCheck
