import ProgramCheck.Proofs.NodeReports

/-!
# Walks in lockstep

If the nodes of two trees correspond to each other from the roots on, as far as a walk goes, then
the walks through the two trees are in lockstep: either both meet a node out of place, or they visit
corresponding nodes one by one. So do the walks through two lists of such trees.
-/

namespace ProgramCheck

/-- What is the same for related members holds of all members of one list if it does of the
other. -/
theorem forall_mem_iff_of_forall₂ {α β : Type} {R : α → β → Prop} {p : α → Prop} {q : β → Prop}
    {as : List α} {bs : List β} (h : List.Forall₂ R as bs) (hR : ∀ a b, R a b → (p a ↔ q b)) :
    (∀ a ∈ as, p a) ↔ ∀ b ∈ bs, q b := by
  induction h with
  | nil => simp
  | cons hab _ ih => rw [List.forall_mem_cons, List.forall_mem_cons, hR _ _ hab, ih]

/-- A walk meets no node out of place if all walked nodes are in place. -/
theorem Tree.visits_iff_fits {t : Tree} :
    (∀ step ∈ t.steps, ∃ v, step = .visit v) ↔ ∀ slot ∈ t.walkedNodes, t.Fits slot := by
  refine ⟨fits_of_visits, fun hfits => ?_⟩
  obtain ⟨visits, -, -, hsteps⟩ := steps_of_fits hfits
  rw [hsteps]
  exact List.forall_mem_map.2 fun v _ => ⟨v, rfl⟩

/-- Whether two trees correspond to each other in a relation of their nodes, as far as a walk goes:
the roots do, and corresponding nodes are of one sort and have corresponding walked parts. -/
structure Tree.Lockstep (R : NodeId → NodeId → Prop) (t t' : Tree) : Prop where
  root : R t.root t'.root
  sort? : ∀ {id id'}, R id id' → t'.sort? id' = t.sort? id
  slots : ∀ {id id'}, R id id' →
    List.Forall₂ (fun slot slot' => slot'.1 = slot.1 ∧ R slot.2 slot'.2)
      (t.walkedSlots id) (t'.walkedSlots id')

namespace Tree.Lockstep

variable {R : NodeId → NodeId → Prop} {t t' : Tree} (h : t.Lockstep R t')
include h

/-- Below corresponding nodes corresponding nodes are walked through. -/
theorem walked {slot slot' : NodeSort × NodeId} (hsort : slot'.1 = slot.1)
    (hid : R slot.2 slot'.2) :
    List.Forall₂ (fun slot slot' => slot'.1 = slot.1 ∧ R slot.2 slot'.2)
      (t.walked slot) (t'.walked slot') := by
  obtain ⟨s, id⟩ := slot
  induction id using Nat.strongRecOn generalizing s slot' with
  | ind id ih =>
    rw [Forest.walked_eq, Forest.walked_eq t'.toForest]
    refine List.Forall₂.cons ⟨hsort, hid⟩ ?_
    have hparts := (List.forall₂_and_left _ _).2 ⟨fun part hpart => hpart, h.slots hid⟩
    refine List.rel_flatten (List.rel_map ?_ hparts)
    rintro part part' ⟨hpart, hsort, hid⟩
    exact ih part.2 (Forest.lt_of_mem_children (Forest.mem_children_of_walkedSlots hpart)) part.1
      hsort hid

theorem walkedNodes :
    List.Forall₂ (fun slot slot' => slot'.1 = slot.1 ∧ R slot.2 slot'.2)
      t.walkedNodes t'.walkedNodes :=
  h.walked rfl h.root

/-- Either both walks meet a node out of place, or none of them does. -/
theorem visits_iff :
    (∀ step ∈ t.steps, ∃ v, step = .visit v) ↔ ∀ step ∈ t'.steps, ∃ v, step = .visit v := by
  have hfits : (∀ slot ∈ t.walkedNodes, t.Fits slot) ↔ ∀ slot ∈ t'.walkedNodes, t'.Fits slot := by
    refine forall_mem_iff_of_forall₂ h.walkedNodes ?_
    rintro slot slot' ⟨hsort, hid⟩
    rw [Forest.Fits, Forest.Fits, hsort, h.sort? hid]
  rw [visits_iff_fits, hfits, visits_iff_fits]

/-- Walks that meet no node out of place visit corresponding nodes one by one. -/
theorem exists_visits (hvisits : ∀ step ∈ t.steps, ∃ v, step = .visit v) :
    ∃ visits visits', t.steps = visits.map .visit ∧ t'.steps = visits'.map .visit ∧
      List.Forall₂ (fun v v' => R v.id v'.id ∧ t.visit? v.id = some v ∧ t'.visit? v'.id = some v')
        visits visits' := by
  obtain ⟨visits, hslots, hvisit, hsteps⟩ := steps_of_fits (fits_of_visits hvisits)
  obtain ⟨visits', hslots', hvisit', hsteps'⟩ :=
    steps_of_fits (fits_of_visits (h.visits_iff.1 hvisits))
  have hnodes := h.walkedNodes
  rw [← hslots, ← hslots', List.forall₂_map_left_iff, List.forall₂_map_right_iff] at hnodes
  have hleft := (List.forall₂_and_left _ _).2 ⟨hvisit, hnodes⟩
  have hboth := (List.forall₂_and_left _ _).2 ⟨hvisit', hleft.flip⟩
  exact ⟨visits, visits', hsteps, hsteps', hboth.flip.imp fun v v' hv => ⟨hv.2.2.2, hv.2.1, hv.1⟩⟩

end Tree.Lockstep

/-! ### Walks through several trees -/

/-- Whether two stages visit nodes that correspond to each other, in trees at the same place. -/
inductive Stage.Lockstep (T : Tree → Tree → NodeId → NodeId → Prop) : Stage → Stage → Prop
  | visit (place : Nat) {t t' : Tree} {v v' : Visit} (h : T t t' v.id v'.id)
    (hv : t.visit? v.id = some v) (hv' : t'.visit? v'.id = some v') :
    Lockstep T ⟨place, t, .visit v⟩ ⟨place, t', .visit v'⟩

theorem Stage.Lockstep.of_visit {T : Tree → Tree → NodeId → NodeId → Prop} {place place' : Nat}
    {t t' : Tree} {v v' : Visit}
    (h : Stage.Lockstep T ⟨place, t, .visit v⟩ ⟨place', t', .visit v'⟩) :
    place' = place ∧ T t t' v.id v'.id ∧ t.visit? v.id = some v ∧ t'.visit? v'.id = some v' := by
  cases h with
  | visit _ h hv hv' => exact ⟨rfl, h, hv, hv'⟩

section Trees

variable {T : Tree → Tree → NodeId → NodeId → Prop} {trees trees' : List Tree}

/-- **Trees that correspond to each other are walked in lockstep.** -/
theorem forall₂_stagesFrom_of_lockstep
    (h : List.Forall₂ (fun t t' => t.Lockstep (T t t') t') trees trees') (place : Nat)
    (hvisits : ∀ t ∈ trees, ∀ step ∈ t.steps, ∃ v, step = .visit v) :
    List.Forall₂ (Stage.Lockstep T) (stagesFrom place trees) (stagesFrom place trees') := by
  induction h generalizing place with
  | nil => exact List.Forall₂.nil
  | @cons t t' trees trees' ht _ ih =>
    rw [List.forall_mem_cons] at hvisits
    obtain ⟨visits, visits', hsteps, hsteps', hall⟩ := ht.exists_visits hvisits.1
    rw [stagesFrom_cons, stagesFrom_cons]
    refine List.rel_append ?_ (ih (place + 1) hvisits.2)
    rw [Tree.stages, Tree.stages, hsteps, hsteps', List.map_map, List.map_map,
      List.forall₂_map_left_iff, List.forall₂_map_right_iff]
    exact hall.imp fun v v' hv => .visit place hv.1 hv.2.1 hv.2.2

namespace Compilation

variable {c c' : Compilation}
  (h : List.Forall₂ (fun t t' => t.Lockstep (T t t') t') c.trees c'.trees)
include h

theorem allVisits_iff_of_lockstep : AllVisits c.stages ↔ AllVisits c'.stages := by
  rw [allVisits_iff, allVisits_iff]
  exact forall_mem_iff_of_forall₂ h fun _ _ ht => ht.visits_iff

theorem forall₂_stages_of_lockstep (hvisits : AllVisits c.stages) :
    List.Forall₂ (Stage.Lockstep T) c.stages c'.stages := by
  rw [stages_eq, stages_eq]
  exact forall₂_stagesFrom_of_lockstep h 0 (allVisits_iff.1 hvisits)

end Compilation

end Trees

end ProgramCheck
