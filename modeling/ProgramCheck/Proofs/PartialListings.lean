import ProgramCheck.Proofs.Declarations

/-!
# Listings that are left off

A listing of which only so many symbols are taken goes through the nodes no further than the last
symbol that it gives. The nodes that it has come by are looked up, also those that declare symbols
of other kinds; behind them the table stays as it was. So a listing that is left off begins as the
complete one does, and `upTo` says which nodes it has come by.
-/

namespace ProgramCheck

/-! ### How far a listing goes -/

section Wanted

variable {α : Type} {hit : α → Bool} {wanted : Option Nat} {k : Nat} {x : α} {xs : List α}

theorem upTo_isPrefix (hit : α → Bool) (wanted : Option Nat) (xs : List α) :
    upTo hit wanted xs <+: xs := by
  induction xs generalizing wanted with
  | nil => simp
  | cons x xs ih =>
    by_cases hwanted : wanted = some 0
    · subst hwanted
      simp
    · rw [upTo_cons hwanted]
      exact List.cons_prefix_cons.2 ⟨rfl, ih _⟩

/-- The hits that are come by are as many as are wanted. -/
theorem filter_upTo (hit : α → Bool) (wanted : Option Nat) (xs : List α) :
    (upTo hit wanted xs).filter hit = atMost wanted (xs.filter hit) := by
  induction xs generalizing wanted with
  | nil => simp
  | cons x xs ih =>
    by_cases hwanted : wanted = some 0
    · subst hwanted
      simp
    rw [upTo_cons hwanted, List.filter_cons, List.filter_cons]
    by_cases hx : hit x = true
    · rw [if_pos hx, if_pos hx, if_pos hx, ih, atMost_cons hwanted]
    · rw [if_neg hx, if_neg hx, if_neg hx, ih]

/-- With fewer hits than are wanted everything is come by. -/
theorem upTo_eq_self (h : xs.countP hit < k) : upTo hit (some k) xs = xs := by
  induction xs generalizing k with
  | nil => simp
  | cons x xs ih =>
    have hk : some k ≠ some 0 := by
      intro hk
      cases hk
      omega
    rw [upTo_cons hk]
    rw [List.countP_cons] at h
    by_cases hx : hit x = true
    · rw [if_pos hx] at h ⊢
      show x :: upTo hit (some (k - 1)) xs = _
      rw [ih (by omega)]
    · rw [if_neg hx] at h ⊢
      rw [ih (by omega)]

/-- With enough hits the last one that is wanted is the last member that is come by. -/
theorem exists_upTo_eq_concat (hk : 0 < k) (h : k ≤ xs.countP hit) :
    ∃ passed last, upTo hit (some k) xs = passed ++ [last] ∧ hit last = true ∧
      passed.countP hit + 1 = k := by
  induction xs generalizing k with
  | nil =>
    simp at h
    omega
  | cons x xs ih =>
    have hne : some k ≠ some 0 := by
      intro hk'
      cases hk'
      omega
    rw [upTo_cons hne]
    rw [List.countP_cons] at h
    by_cases hx : hit x = true
    · rw [if_pos hx] at h ⊢
      show ∃ passed last, x :: upTo hit (some (k - 1)) xs = _ ∧ _
      by_cases hone : k = 1
      · subst hone
        exact ⟨[], x, by simp, hx, rfl⟩
      · obtain ⟨passed, last, hpassed, hlast, hcount⟩ := ih (k := k - 1) (by omega) (by omega)
        refine ⟨x :: passed, last, by rw [hpassed]; rfl, hlast, ?_⟩
        rw [List.countP_cons, if_pos hx]
        omega
    · rw [if_neg hx] at h ⊢
      obtain ⟨passed, last, hpassed, hlast, hcount⟩ := ih hk h
      refine ⟨x :: passed, last, by rw [hpassed]; rfl, hlast, ?_⟩
      rw [List.countP_cons, if_neg hx]
      exact hcount

end Wanted

namespace SymbolTable

variable {s : SymbolTable} {id : NodeId} {entry : Entry} {kind : Option SymbolKind}

theorem lookupEach_append (s : SymbolTable) (xs ys : List NodeId) :
    s.lookupEach (xs ++ ys) = (s.lookupEach xs).lookupEach ys := List.foldl_append

/-- What is looked up is kept from then on, if the node declares anything. -/
theorem exists_cached?_lookupEach {ids : List NodeId} (hid : id ∈ ids)
    (hdeclares : s.tree.declaresKind none id = true) :
    ∃ entry, (s.lookupEach ids).cached? id = some entry ∧
      ∀ before, s.cached? id = some before → before = entry := by
  have hsymbol := s.map_symbol_cached?_lookupEach ids id
  rw [if_pos hid] at hsymbol
  rw [← Forest.isSome_symbol?, ← hsymbol, Option.isSome_map] at hdeclares
  obtain ⟨entry, hentry⟩ := Option.isSome_iff_exists.1 hdeclares
  refine ⟨entry, hentry, fun before hbefore => ?_⟩
  have hstays := cached?_lookupEach_of_some ids hbefore
  exact Option.some.inj (hstays.symm.trans hentry)

/-- The slots of other nodes stay as they are, and so do those of nodes that declare nothing. -/
theorem cached?_lookupEach_of_not {ids : List NodeId}
    (h : ¬ (id ∈ ids ∧ s.tree.declaresKind none id = true)) :
    (s.lookupEach ids).cached? id = s.cached? id := by
  cases hbefore : s.cached? id with
  | some entry => exact cached?_lookupEach_of_some ids hbefore
  | none =>
    have hsymbol := s.map_symbol_cached?_lookupEach ids id
    rw [hbefore] at hsymbol
    by_cases hid : id ∈ ids
    · rw [if_pos hid] at hsymbol
      have hnone : s.tree.symbol? id = none := by
        rw [← Option.not_isSome_iff_eq_none, Forest.isSome_symbol?]
        exact fun hdeclares => h ⟨hid, hdeclares⟩
      rw [hnone] at hsymbol
      exact Option.map_eq_none_iff.1 hsymbol
    · rw [if_neg hid] at hsymbol
      exact Option.map_eq_none_iff.1 hsymbol

/-- A listing that is left off begins as the complete one. -/
theorem collect_some_eq_take (s : SymbolTable) (kind : Option SymbolKind) (k : Nat)
    (ids : List NodeId) :
    (s.collect kind (some k) ids).1 = (s.collect kind none ids).1.take k := by
  obtain ⟨hpart, hentries⟩ := s.collect_eq kind (some k) ids
  obtain ⟨hall, hallEntries⟩ := s.collect_eq kind none ids
  obtain ⟨behind, hids⟩ := upTo_isPrefix (s.tree.declaresKind kind) (some k) ids
  apply List.map_injective_iff.2 fun (_ _ : Entry) => Option.some.inj
  rw [hentries, List.map_take, hallEntries, ← List.map_take]
  show (atMost (some k) (ids.filter _)).map _ = (atMost (some k) (ids.filter _)).map _
  refine List.map_congr_left fun id hid => ?_
  -- what is kept where the listing is left off is kept to the end
  rw [← filter_upTo, List.mem_filter] at hid
  obtain ⟨entry, hentry, -⟩ :=
    exists_cached?_lookupEach (s := s) hid.1 (Forest.declaresKind_none_of_declaresKind hid.2)
  have hstays := cached?_lookupEach_of_some behind hentry
  rw [← lookupEach_append, hids] at hstays
  rw [hpart, hall, hentry, upTo_none, hstays]

/-- A look-up adds an entry if the node declares a symbol that is not kept yet. -/
theorem size_lookup (s : SymbolTable) (id : NodeId) :
    (s.lookup id).2.size =
      s.size + if s.tree.declaresKind none id && (s.cached? id).isNone then 1 else 0 := by
  rw [← Forest.isSome_symbol?]
  unfold lookup
  split
  · next entry hcached => simp [hcached]
  · next hnone =>
    split
    · next symbol hsymbol =>
      have hlt : id < s.slots.toList.length := by
        simpa [s.size_slots] using lt_size_of_symbol? hsymbol
      have hslot : s.slots.toList[id].isSome = false := by
        simpa [cached?, s.size_slots ▸ lt_size_of_symbol? hsymbol] using hnone
      have hadds : ((s.tree.symbol? id).isSome && (s.cached? id).isNone) = true := by
        simp [hsymbol, hnone]
      rw [if_pos hadds]
      show (s.slots.setIfInBounds id (some _)).toList.countP Option.isSome = s.size + 1
      rw [Array.toList_setIfInBounds, List.countP_set hlt, hslot]
      rfl
    · next hsymbol => simp [hsymbol]

/-- Looking up different nodes adds an entry for each that declares a symbol that is not kept
yet. -/
theorem size_lookupEach {ids : List NodeId} (h : ids.Nodup) :
    (s.lookupEach ids).size =
      s.size + ids.countP fun id => s.tree.declaresKind none id && (s.cached? id).isNone := by
  induction ids generalizing s with
  | nil => rfl
  | cons id ids ih =>
    obtain ⟨hid, hids⟩ := List.nodup_cons.1 h
    have hrest : ids.countP (fun id' => (s.lookup id).2.tree.declaresKind none id' &&
          ((s.lookup id).2.cached? id').isNone) =
        ids.countP fun id' => s.tree.declaresKind none id' && (s.cached? id').isNone := by
      refine List.countP_congr fun id' hid' => ?_
      have hne : id ≠ id' := by
        rintro rfl
        exact hid hid'
      rw [tree_lookup, cached?_lookup_of_ne s hne]
    rw [lookupEach_cons, ih hids, hrest, size_lookup, List.countP_cons]
    omega

/-- **Listings that are left off.** The first `k` symbols of a listing are those of the complete
listing. To give them the listing has come by the nodes in the front of the preorder: by none if
nothing is wanted, by the nodes up to the `k`-th one that declares a symbol of the wanted kind, or
by all if there are fewer. The declaring nodes among these, of whatever kind, are kept from then on,
in the entries in which they were kept before, if any; all other slots stay as they were. -/
theorem list_some (s : SymbolTable) (kind : Option SymbolKind) (k : Nat) :
    let all := (s.list kind none).1
    let after := (s.list kind (some k)).2
    (s.list kind (some k)).1 = all.take k ∧
    ∃ front behind, s.tree.preorder s.tree.root = front ++ behind ∧
      (k = 0 → front = []) ∧
      (0 < k → k ≤ all.length → ∃ passed last, front = passed ++ [last] ∧
        s.tree.declaresKind kind last = true ∧
        passed.countP (s.tree.declaresKind kind) + 1 = k) ∧
      (all.length < k → behind = []) ∧
      (∀ id ∈ front, s.tree.declaresKind none id = true →
        ∃ entry, after.cached? id = some entry ∧
          ∀ before, s.cached? id = some before → before = entry) ∧
      (∀ id, ¬ (id ∈ front ∧ s.tree.declaresKind none id = true) →
        after.cached? id = s.cached? id) ∧
      after.size = s.size +
        front.countP fun id => s.tree.declaresKind none id && (s.cached? id).isNone := by
  intro all after
  have hafter : after = s.lookupEach
      (upTo (s.tree.declaresKind kind) (some k) (s.tree.preorder s.tree.root)) :=
    (s.collect_eq kind (some k) (s.tree.preorder s.tree.root)).1
  have hlength : all.length = (s.tree.preorder s.tree.root).countP (s.tree.declaresKind kind) := by
    have hdeclarations : all.map (·.symbol.declaration) =
        (s.tree.preorder s.tree.root).filter (s.tree.declaresKind kind) :=
      (s.map_declaration_collect kind none (s.tree.preorder s.tree.root)).1
    rw [List.countP_eq_length_filter, ← hdeclarations, List.length_map]
  obtain ⟨behind, hbehind⟩ :=
    upTo_isPrefix (s.tree.declaresKind kind) (some k) (s.tree.preorder s.tree.root)
  refine ⟨s.collect_some_eq_take kind k _, _, behind, hbehind.symm, ?_, ?_, ?_, ?_, ?_, ?_⟩
  · rintro rfl
    exact upTo_zero
  · intro hk hle
    exact exists_upTo_eq_concat hk (hlength ▸ hle)
  · intro hlt
    rw [upTo_eq_self (hlength ▸ hlt)] at hbehind
    simpa using hbehind
  · intro id hid hdeclares
    rw [hafter]
    exact exists_cached?_lookupEach hid hdeclares
  · intro id hid
    rw [hafter]
    exact cached?_lookupEach_of_not hid
  · rw [hafter]
    have hnodup := s.tree.nodup_preorder s.tree.root
    rw [← hbehind] at hnodup
    exact size_lookupEach (List.nodup_append.1 hnodup).1

/-- There is no struct in the tree, so who asks for the first one has all five symbols computed and
is given none; who asks for none leaves the table empty. -/
theorem list_some_branchTree :
    let s := SymbolTable.ofTree branchTree
    (s.list (some .struct) (some 1)).1 = [] ∧ (s.list (some .struct) (some 1)).2.size = 5 ∧
      (s.list (some .struct) (some 0)).2.size = 0 := by
  intro s
  have hall : (s.list (some .struct) none).1 = [] := by decide +kernel
  have hsize : s.size = 0 := by decide +kernel
  obtain ⟨hlisting, front, behind, hnodes, -, -, hbehind, -, -, hadded⟩ :=
    list_some s (some .struct) 1
  obtain ⟨-, front', -, -, hfront', -, -, -, -, hadded'⟩ := list_some s (some .struct) 0
  rw [hall] at hlisting hbehind
  rw [hbehind (by decide), List.append_nil] at hnodes
  refine ⟨hlisting, ?_, ?_⟩
  · rw [hadded, ← hnodes, hsize]
    decide +kernel
  · rw [hadded', hfront' rfl, hsize]
    rfl

end SymbolTable

end ProgramCheck
