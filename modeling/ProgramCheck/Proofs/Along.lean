import Mathlib.Data.List.Nodup

/-!
# Properties of a member behind the members before it

`Along P history as` says that every member of `as` has the property `P` behind the members before
it, of which `history` come before the list. It is stated member by member, for inductions along a
walk, and `along_iff` states it of the ways to split the list.
-/

namespace ProgramCheck

variable {α β : Type*} {P Q : List α → α → Prop} {history xs ys : List α}

/-- Every member of a list has a property behind the members before it. -/
def Along (P : List α → α → Prop) : List α → List α → Prop
  | _, [] => True
  | history, a :: as => P history a ∧ Along P (history ++ [a]) as

@[simp] theorem along_nil : Along P history [] := trivial

theorem along_cons {a : α} :
    Along P history (a :: xs) ↔ P history a ∧ Along P (history ++ [a]) xs := Iff.rfl

theorem along_append :
    Along P history (xs ++ ys) ↔ Along P history xs ∧ Along P (history ++ xs) ys := by
  induction xs generalizing history with
  | nil => simp
  | cons x xs ih =>
    rw [List.cons_append, along_cons, along_cons, ih, List.append_assoc, List.singleton_append,
      and_assoc]

theorem along_iff :
    Along P history xs ↔ ∀ before a after, xs = before ++ a :: after → P (history ++ before) a := by
  induction xs generalizing history with
  | nil => simp
  | cons x xs ih =>
    rw [along_cons, ih]
    constructor
    · rintro ⟨hx, hxs⟩ before a after heq
      cases before with
      | nil =>
        cases heq
        rwa [List.append_nil]
      | cons y before =>
        cases heq
        have := hxs before a after rfl
        rwa [List.append_assoc, List.singleton_append] at this
    · intro h
      refine ⟨by simpa using h [] x xs rfl, fun before a after heq => ?_⟩
      have := h (x :: before) a after (by rw [heq, List.cons_append])
      rwa [List.append_assoc, List.singleton_append]

theorem along_congr (h : ∀ before, ∀ a ∈ xs, P before a ↔ Q before a) :
    Along P history xs ↔ Along Q history xs := by
  induction xs generalizing history with
  | nil => exact Iff.rfl
  | cons x xs ih =>
    rw [along_cons, along_cons, h history x List.mem_cons_self,
      ih fun before a ha => h before a (List.mem_cons_of_mem _ ha)]

/-- A property that does not depend on what came before. -/
theorem along_const {p : α → Prop} : Along (fun _ a => p a) history xs ↔ ∀ a ∈ xs, p a := by
  induction xs generalizing history with
  | nil => simp
  | cons x xs ih => rw [along_cons, ih, List.forall_mem_cons]

/-- A property that depends on what came before by the values of a function, along a list on which
the function has no values. -/
theorem along_iff_forall {view : α → Option β}
    (hP : ∀ before before' a, before.filterMap view = before'.filterMap view →
      (P before a ↔ P before' a))
    (hxs : ∀ a ∈ xs, view a = none) : Along P history xs ↔ ∀ a ∈ xs, P history a := by
  have hview : ∀ before : List α, (∀ a ∈ before, a ∈ xs) →
      (history ++ before).filterMap view = history.filterMap view := by
    intro before hbefore
    have hnil : before.filterMap view = [] :=
      List.filterMap_eq_nil_iff.2 fun a ha => hxs a (hbefore a ha)
    rw [List.filterMap_append, hnil, List.append_nil]
  rw [along_iff]
  constructor
  · intro h a ha
    obtain ⟨before, after, rfl⟩ := List.append_of_mem ha
    exact (hP _ _ a (hview before fun b hb => List.mem_append_left _ hb)).1 (h before a after rfl)
  · rintro h before a after rfl
    exact (hP _ _ a (hview before fun b hb => List.mem_append_left _ hb)).2
      (h a (List.mem_append_right _ List.mem_cons_self))

/-- A property along a list that is made of pieces, and one along the values of a function on it,
hold together if they hold together along each piece. -/
theorem along_flatMap_iff {κ : Type*} {P : List α → α → Prop} {R : List β → β → Prop}
    {view : α → Option β} {ks : List κ} {pieces : κ → List α}
    (h : ∀ k ∈ ks, ∀ before, Along P before (pieces k) ↔
      Along R (before.filterMap view) ((pieces k).filterMap view)) :
    Along P history (ks.flatMap pieces) ↔
      Along R (history.filterMap view) ((ks.flatMap pieces).filterMap view) := by
  induction ks generalizing history with
  | nil => exact Iff.rfl
  | cons k ks ih =>
    rw [List.flatMap_cons, List.filterMap_append, along_append, along_append,
      h k List.mem_cons_self, ih fun k' hk' => h k' (List.mem_cons_of_mem _ hk'),
      List.filterMap_append]

/-- The values of a function on a list are distinct if each value is new behind the members before
its own. -/
theorem nodup_filterMap_append_iff {f : α → Option β} (h : (history.filterMap f).Nodup) :
    ((history ++ xs).filterMap f).Nodup ↔
      Along (fun before a => ∀ b, f a = some b → b ∉ before.filterMap f) history xs := by
  induction xs generalizing history with
  | nil => simpa using h
  | cons x xs ih =>
    have hsplit : history ++ x :: xs = history ++ [x] ++ xs := by simp
    rw [along_cons, hsplit]
    -- if `x` has a value that occurs before, neither side holds
    by_cases hx : ((history ++ [x]).filterMap f).Nodup
    · rw [ih hx, and_iff_right]
      intro b hb hmem
      rw [List.filterMap_append, List.filterMap_cons_some hb] at hx
      exact (List.nodup_append.1 hx).2.2 b hmem b List.mem_cons_self rfl
    · refine iff_of_false (fun hall => hx ?_) (fun hall => hx ?_)
      · rw [List.filterMap_append] at hall
        exact (List.nodup_append.1 hall).1
      · rw [List.filterMap_append]
        cases hb : f x with
        | none => simpa [hb] using h
        | some b =>
          rw [List.filterMap_cons_some hb, List.filterMap_nil, List.nodup_append]
          refine ⟨h, List.nodup_singleton b, fun b' hb' b'' hb'' heq => hall.1 b hb ?_⟩
          rw [← List.mem_singleton.1 hb'', ← heq]
          exact hb'

theorem nodup_filterMap_iff {f : α → Option β} :
    (xs.filterMap f).Nodup ↔
      Along (fun before a => ∀ b, f a = some b → b ∉ before.filterMap f) [] xs := by
  have hnil : (([] : List α).filterMap f).Nodup := List.nodup_nil
  exact nodup_filterMap_append_iff hnil

end ProgramCheck
