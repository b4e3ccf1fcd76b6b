import ProgramCheck.Proofs.WalkOrder

/-!
# What a rule reports at a node

A walk that meets no defect visits no node twice. So a node stands for one stage of the walk, with one
history in front of it, and what a built-in rule reports at the node is what it reports behind this
history.
-/

namespace ProgramCheck

/-! ### Nodes are visited once -/

/-- The number of the node that is visited at a stage, behind the place of its tree. -/
def Stage.key (s : Stage) : Nat × Option NodeId :=
  (s.place,
    match s.step with
    | .visit v => some v.id
    | .defect _ => none)

/-- A list is split in one way at a member of some key, if the keys are distinct. -/
theorem eq_of_append_cons {α β : Type} {key : α → β} {xs ys xs' ys' : List α} {x x' : α}
    (hnodup : ((xs ++ x :: ys).map key).Nodup) (h : xs ++ x :: ys = xs' ++ x' :: ys')
    (hkey : key x = key x') : xs = xs' := by
  have hlength : xs.length = xs'.length := by
    have hx : ((xs ++ x :: ys).map key)[xs.length]? = some (key x) := by simp
    have hx' : ((xs ++ x :: ys).map key)[xs'.length]? = some (key x) := by simp [h, hkey]
    obtain ⟨hlt, heq⟩ := List.getElem?_eq_some_iff.1 hx
    obtain ⟨hlt', heq'⟩ := List.getElem?_eq_some_iff.1 hx'
    exact hnodup.getElem_inj_iff.1 (heq.trans heq'.symm)
  exact (List.append_inj h hlength).1

theorem Tree.nodup_keys {t : Tree} (place : Nat) (h : ∀ step ∈ t.steps, ∃ v, step = .visit v) :
    ((t.stages place).map Stage.key).Nodup := by
  obtain ⟨visits, hslots, -, hsteps⟩ := steps_of_fits (fits_of_visits h)
  have hids : (visits.map Visit.id).Nodup := by
    have hwalked := (t.map_snd_walked_sublist (.program, t.root)).nodup (t.nodup_preorder t.root)
    change (t.walkedNodes.map Prod.snd).Nodup at hwalked
    rwa [← hslots, List.map_map] at hwalked
  have hkeys : (t.stages place).map Stage.key =
      (visits.map Visit.id).map fun id => (place, some id) := by
    rw [stages, hsteps, List.map_map, List.map_map, List.map_map]
    rfl
  rw [hkeys]
  exact hids.map fun id id' heq => by simpa using heq

/-- The stages of some trees that stand from a place on. -/
def stagesFrom (place : Nat) (trees : List Tree) : List Stage :=
  (trees.zipIdx place).flatMap fun x => x.1.stages x.2

theorem Compilation.stages_eq (c : Compilation) : c.stages = stagesFrom 0 c.trees :=
  flatten_mapIdx _ _

theorem stagesFrom_append (place : Nat) (xs ys : List Tree) :
    stagesFrom place (xs ++ ys) = stagesFrom place xs ++ stagesFrom (place + xs.length) ys := by
  rw [stagesFrom, List.zipIdx_append, List.flatMap_append]
  rfl

theorem stagesFrom_cons (place : Nat) (t : Tree) (ts : List Tree) :
    stagesFrom place (t :: ts) = t.stages place ++ stagesFrom (place + 1) ts := by
  rw [stagesFrom, List.zipIdx_cons, List.flatMap_cons]
  rfl

theorem mem_stagesFrom {place : Nat} {ts : List Tree} {s : Stage} (h : s ∈ stagesFrom place ts) :
    place ≤ s.place ∧ s.place < place + ts.length := by
  obtain ⟨⟨t, i⟩, ht, hs⟩ := List.mem_flatMap.1 h
  obtain ⟨rfl, -, -⟩ := Tree.mem_stages_iff.1 hs
  exact ⟨List.le_snd_of_mem_zipIdx ht, List.snd_lt_add_of_mem_zipIdx ht⟩

/-- No node is visited twice. -/
theorem nodup_keys_stagesFrom {place : Nat} {ts : List Tree} (h : AllVisits (stagesFrom place ts)) :
    ((stagesFrom place ts).map Stage.key).Nodup := by
  induction ts generalizing place with
  | nil => exact List.nodup_nil
  | cons t ts ih =>
    rw [stagesFrom_cons] at h ⊢
    rw [List.map_append, List.nodup_append]
    refine ⟨t.nodup_keys place fun step hstep => ?_,
      ih fun s hs => h s (List.mem_append_right _ hs), ?_⟩
    · exact h ⟨place, t, step⟩ (List.mem_append_left _ (Tree.mem_stages_iff.2 ⟨rfl, rfl, hstep⟩))
    · intro k hk k' hk' heq
      obtain ⟨s, hs, rfl⟩ := List.mem_map.1 hk
      obtain ⟨s', hs', rfl⟩ := List.mem_map.1 hk'
      have hplace := (Tree.mem_stages_iff.1 hs).1
      have hplace' := (mem_stagesFrom hs').1
      have hsame : s.place = s'.place := congrArg Prod.fst heq
      omega

/-! ### What a rule reports at a node -/

namespace Builtin

/-- The replies of a rule at a node of the tree at a place. -/
def repliesAt (b : Builtin) (log : List Reply) (place : Nat) (id : NodeId) : List Reply :=
  log.filter fun x => x.name = b.name ∧ x.context.place = place ∧ x.visit.id = id

/-- What a rule reports at a node of the tree at a place. -/
def reportsAt (b : Builtin) (log : List Reply) (place : Nat) (id : NodeId) : List Diagnostic :=
  (b.repliesAt log place id).flatMap Reply.reports

variable {b : Builtin} {bs : List Builtin} {c : Compilation} {history rest : List Stage}
  {place : Nat} {t : Tree} {v : Visit}

/-- A rule replies at a node as it does behind the stages in front of the only visit of the node. -/
theorem reports_of_mem_repliesAt (hvisits : AllVisits c.stages)
    (hsplit : c.stages = history ++ ⟨place, t, .visit v⟩ :: rest) {x : Reply}
    (hx : x ∈ b.repliesAt ((Analyzer.ofBuiltin bs).log c) place v.id) :
    x.reports = b.reports c.trees history t v := by
  obtain ⟨hmem, hat⟩ := List.mem_filter.1 hx
  obtain ⟨hname, hplace, hid⟩ := of_decide_eq_true hat
  obtain ⟨-, -, -, hlog⟩ := Analyzer.analyze_builtin bs hvisits
  have hfinding : x.finding ∈ findings bs c.trees [] c.stages :=
    hlog ▸ List.mem_map_of_mem hmem
  obtain ⟨before, place', t', v', after, hbefore, hfinding⟩ := (mem_findings_iff hvisits).1 hfinding
  obtain ⟨b', -, heq⟩ := List.mem_map.1 hfinding
  have hb : b' = b := name_injective ((congrArg Finding.rule heq).trans hname)
  have hplace' : place' = place := (congrArg Finding.place heq).trans hplace
  have hvisit : v' = x.visit := congrArg Finding.visit heq
  have hreports : b'.reports c.trees ([] ++ before) t' v' = x.reports :=
    congrArg Finding.reports heq
  subst hb hplace'
  -- the node is visited once, so the two splits of the walk are the same
  have hkeys := nodup_keys_stagesFrom (c.stages_eq ▸ hvisits)
  rw [← c.stages_eq, hsplit] at hkeys
  have hsame : history = before := eq_of_append_cons hkeys (hsplit.symm.trans hbefore) (by
    simp only [Stage.key, hvisit, hid])
  subst hsame
  have hstage := List.append_cancel_left (hsplit.symm.trans hbefore)
  simp only [List.cons.injEq, Stage.mk.injEq, Step.visit.injEq, true_and] at hstage
  obtain ⟨⟨rfl, rfl⟩, -⟩ := hstage
  exact hreports.symm

/-- Every instance of a rule replies at a visited node. -/
theorem exists_mem_repliesAt (hb : b ∈ bs) (hvisits : AllVisits c.stages)
    (hsplit : c.stages = history ++ ⟨place, t, .visit v⟩ :: rest) :
    ∃ x, x ∈ b.repliesAt ((Analyzer.ofBuiltin bs).log c) place v.id := by
  obtain ⟨-, -, -, hlog⟩ := Analyzer.analyze_builtin bs hvisits
  have hfinding : (⟨b.name, place, v, b.reports c.trees history t v⟩ : Finding) ∈
      findings bs c.trees [] c.stages :=
    (mem_findings_iff hvisits).2 ⟨history, place, t, v, rest, hsplit, List.mem_map_of_mem hb⟩
  rw [← hlog] at hfinding
  obtain ⟨x, hx, heq⟩ := List.mem_map.1 hfinding
  refine ⟨x, List.mem_filter.2 ⟨hx, decide_eq_true ⟨?_, ?_, ?_⟩⟩⟩
  · exact congrArg Finding.rule heq
  · exact congrArg Finding.place heq
  · exact congrArg (·.visit.id) heq

theorem mem_reportsAt_iff (hb : b ∈ bs) (hvisits : AllVisits c.stages)
    (hsplit : c.stages = history ++ ⟨place, t, .visit v⟩ :: rest) {d : Diagnostic} :
    d ∈ b.reportsAt ((Analyzer.ofBuiltin bs).log c) place v.id ↔
      d ∈ b.reports c.trees history t v := by
  rw [reportsAt, List.mem_flatMap]
  constructor
  · rintro ⟨x, hx, hd⟩
    rwa [reports_of_mem_repliesAt hvisits hsplit hx] at hd
  · intro hd
    obtain ⟨x, hx⟩ := exists_mem_repliesAt hb hvisits hsplit
    exact ⟨x, hx, (reports_of_mem_repliesAt hvisits hsplit hx).symm ▸ hd⟩

theorem reportsAt_eq_nil_iff (hb : b ∈ bs) (hvisits : AllVisits c.stages)
    (hsplit : c.stages = history ++ ⟨place, t, .visit v⟩ :: rest) :
    b.reportsAt ((Analyzer.ofBuiltin bs).log c) place v.id = [] ↔
      b.reports c.trees history t v = [] := by
  simp only [List.eq_nil_iff_forall_not_mem, mem_reportsAt_iff hb hvisits hsplit]

end Builtin

end ProgramCheck
