import Mathlib.Data.List.Forall2
import ProgramCheck.Text.Case

/-!
# The two foldings of names

Names are compared up to the case of the letters `A` to `Z`, or by their lower case forms. The lower
case form of a text does not depend on the case of these letters, so names that agree in the first
sense agree in the second. The converse holds for names that do not differ outside ASCII.
-/

namespace ProgramCheck

/-- Two texts of one length that have the same characters wherever one of them is not ASCII. -/
def AgreeOutsideAscii (s t : String) : Prop :=
  List.Forall₂ (fun c d : Char => c = d ∨ c.toNat < 128 ∧ d.toNat < 128) s.toList t.toList

instance (s t : String) : Decidable (AgreeOutsideAscii s t) :=
  inferInstanceAs (Decidable (List.Forall₂
    (fun c d : Char => c = d ∨ c.toNat < 128 ∧ d.toNat < 128) s.toList t.toList))

/-! ### The letters `A` to `Z` -/

section Letters

variable {c d : Char}

theorem toLower_of_not_upper (h : ¬ (65 ≤ c.toNat ∧ c.toNat ≤ 90)) : c.toLower = c :=
  dif_neg h

theorem toNat_toLower_of_upper (h : 65 ≤ c.toNat ∧ c.toNat ≤ 90) :
    c.toLower.toNat = c.toNat + 32 := by
  have hval : c.toLower.val = c.val + 32 := congrArg Char.val (dif_pos h)
  have hlt : c.val.toNat + 32 < 4294967296 := by
    have : c.val.toNat ≤ 90 := h.2
    omega
  rw [Char.toNat, hval, UInt32.toNat_add]
  exact Nat.mod_eq_of_lt hlt

theorem toLower_of_not_ascii (hc : ¬ c.toNat < 128) : c.toLower = c :=
  toLower_of_not_upper (by omega)

theorem toLower_ascii (hc : c.toNat < 128) : c.toLower.toNat < 128 := by
  by_cases h : 65 ≤ c.toNat ∧ c.toNat ≤ 90
  · rw [toNat_toLower_of_upper h]
    omega
  · rwa [toLower_of_not_upper h]

theorem toLower_eq_iff (hd : ¬ d.toNat < 128) : c.toLower = d ↔ c = d := by
  by_cases hc : c.toNat < 128
  · refine iff_of_false (fun h => hd ?_) (fun h => hd (h ▸ hc))
    rw [← h]
    exact toLower_ascii hc
  · rw [toLower_of_not_ascii hc]

/-- A class all of whose intervals stay out of a range has no character in that range. -/
theorem CharClass.has_eq_false {k : CharClass} {first last : Nat}
    (h : ∀ r ∈ k.intervals, r.2 < first ∨ last < r.1) (hc : first ≤ c.toNat ∧ c.toNat ≤ last) :
    k.has c = false := by
  refine Bool.eq_false_iff.2 fun hhas => ?_
  obtain ⟨r, hr, hfirst, hlast⟩ := has_iff.1 hhas
  rcases h r hr with h | h <;> omega

theorem caseIgnorable_toLower (c : Char) :
    CharClass.caseIgnorable.has c.toLower = CharClass.caseIgnorable.has c := by
  by_cases h : 65 ≤ c.toNat ∧ c.toNat ≤ 90
  · have hupper : ∀ r ∈ CharClass.caseIgnorable.intervals, r.2 < 65 ∨ 90 < r.1 := by
      decide +kernel
    have hlower : ∀ r ∈ CharClass.caseIgnorable.intervals, r.2 < 97 ∨ 122 < r.1 := by
      decide +kernel
    have hc := toNat_toLower_of_upper h
    rw [CharClass.has_eq_false hupper h, CharClass.has_eq_false hlower (by omega)]
  · rw [toLower_of_not_upper h]

theorem cased_toLower (c : Char) : CharClass.cased.has c.toLower = CharClass.cased.has c := by
  by_cases h : 65 ≤ c.toNat ∧ c.toNat ≤ 90
  · have hc := toNat_toLower_of_upper h
    have hupper : CharClass.cased.has c = true :=
      CharClass.has_iff.2 ⟨(0x41, 0x5A), by simp [CharClass.cased], h⟩
    have hlower : CharClass.cased.has c.toLower = true :=
      CharClass.has_iff.2 ⟨(0x61, 0x7A), by simp [CharClass.cased], by omega, by omega⟩
    rw [hupper, hlower]
  · rw [toLower_of_not_upper h]

theorem lowercaseChar_of_ascii (hc : c.toNat < 128) : lowercaseChar c = c.toLower := by
  -- the first row holds the letters `A` to `Z`, and all others start behind ASCII
  obtain ⟨rows, hrows⟩ : ∃ rows, lowercaseRows = ⟨0x41, 0x5A, 1, 32⟩ :: rows := ⟨_, rfl⟩
  have hfirst : ∀ r ∈ lowercaseRows.tail, 128 ≤ r.first := by decide +kernel
  rw [hrows, List.tail_cons] at hfirst
  by_cases h : 65 ≤ c.toNat ∧ c.toNat ≤ 90
  · have hhas : CaseRow.has ⟨0x41, 0x5A, 1, 32⟩ c.toNat = true := by
      simp [CaseRow.has, h, Nat.mod_one]
    rw [lowercaseChar, hrows, List.find?_cons, hhas, ← Char.ofNat_toNat c.toLower,
      toNat_toLower_of_upper h]
    rfl
  · have hhas : CaseRow.has ⟨0x41, 0x5A, 1, 32⟩ c.toNat = false := by
      simp only [CaseRow.has, Bool.and_eq_false_iff, decide_eq_false_iff_not]
      omega
    have hnone : rows.find? (·.has c.toNat) = none := by
      refine List.find?_eq_none.2 fun r hr hr' => ?_
      have := hfirst r hr
      simp [CaseRow.has] at hr'
      omega
    rw [lowercaseChar, hrows, List.find?_cons, hhas, hnone, toLower_of_not_upper h]

theorem lowercaseChar_toLower (c : Char) : lowercaseChar c.toLower = lowercaseChar c := by
  by_cases hc : c.toNat < 128
  · rw [lowercaseChar_of_ascii hc, lowercaseChar_of_ascii (toLower_ascii hc)]
    by_cases h : 65 ≤ c.toNat ∧ c.toNat ≤ 90
    · have := toNat_toLower_of_upper h
      exact toLower_of_not_upper (by omega)
    · rw [toLower_of_not_upper h, toLower_of_not_upper h]
  · rw [toLower_of_not_ascii hc]

end Letters

/-! ### The lower case form of a text -/

theorem meetsCased_map_toLower (cs : List Char) :
    meetsCased (cs.map Char.toLower) = meetsCased cs := by
  induction cs with
  | nil => rfl
  | cons c cs ih =>
    rw [meetsCased, meetsCased, List.map_cons, List.dropWhile_cons, List.dropWhile_cons,
      caseIgnorable_toLower]
    cases CharClass.caseIgnorable.has c with
    | true => exact ih
    | false => exact cased_toLower c

theorem lowercaseAt_toLower (before : List Char) (c : Char) (after : List Char) :
    lowercaseAt (before.map Char.toLower) c.toLower (after.map Char.toLower) =
      lowercaseAt before c after := by
  have hsigma : c.toLower = 'Σ' ↔ c = 'Σ' := toLower_eq_iff (by decide)
  have hdotted : c.toLower = 'İ' ↔ c = 'İ' := toLower_eq_iff (by decide)
  rw [lowercaseAt, lowercaseAt]
  by_cases h : c = 'Σ'
  · rw [if_pos (hsigma.2 h), if_pos h, endsWord, endsWord, meetsCased_map_toLower,
      meetsCased_map_toLower]
  · rw [if_neg (fun h' => h (hsigma.1 h')), if_neg h, lowercaseChar_toLower]
    by_cases h' : c = 'İ'
    · rw [if_pos (hdotted.2 h'), if_pos h']
    · rw [if_neg (fun h'' => h' (hdotted.1 h'')), if_neg h']

theorem lowercaseBehind_map_toLower (before cs : List Char) :
    lowercaseBehind (before.map Char.toLower) (cs.map Char.toLower) =
      lowercaseBehind before cs := by
  induction cs generalizing before with
  | nil => rfl
  | cons c cs ih =>
    rw [List.map_cons, lowercaseBehind, lowercaseBehind, lowercaseAt_toLower, ← ih (c :: before),
      List.map_cons]

/-- Texts that agree up to the case of ASCII letters have the same lower case form. -/
theorem lowercase_eq_of_sameIgnoringAsciiCase {s t : String}
    (h : sameIgnoringAsciiCase s t = true) : lowercase s = lowercase t := by
  have hmap : s.toList.map Char.toLower = t.toList.map Char.toLower := eq_of_beq h
  rw [lowercase, lowercase, ← lowercaseBehind_map_toLower [] s.toList, hmap,
    ← lowercaseBehind_map_toLower [] t.toList]

/-! ### Texts that do not differ outside ASCII -/

theorem length_lowercaseAt (before : List Char) (c : Char) (after : List Char) :
    (lowercaseAt before c after).length = if c = 'İ' then 2 else 1 := by
  rw [lowercaseAt]
  by_cases hsigma : c = 'Σ'
  · subst hsigma
    rfl
  · by_cases hdotted : c = 'İ'
    · simp [hdotted]
    · simp [hsigma, hdotted]

theorem lowercaseAt_of_ascii {c : Char} (hc : c.toNat < 128) (before after : List Char) :
    lowercaseAt before c after = [c.toLower] := by
  have hsigma : c ≠ 'Σ' := fun h => absurd hc (by rw [h]; decide)
  have hdotted : c ≠ 'İ' := fun h => absurd hc (by rw [h]; decide)
  rw [lowercaseAt, if_neg hsigma, if_neg hdotted, lowercaseChar_of_ascii hc]

/-- Where two texts do not differ outside ASCII, their lower case forms can be compared character by
character. -/
theorem map_toLower_eq_of_lowercaseBehind_eq {cs ds before before' : List Char}
    (hagree : List.Forall₂ (fun c d : Char => c = d ∨ c.toNat < 128 ∧ d.toNat < 128) cs ds)
    (h : lowercaseBehind before cs = lowercaseBehind before' ds) :
    cs.map Char.toLower = ds.map Char.toLower := by
  induction hagree generalizing before before' with
  | nil => rfl
  | @cons c d cs ds hcd _ ih =>
    rw [lowercaseBehind, lowercaseBehind] at h
    rcases hcd with rfl | ⟨hc, hd⟩
    · -- the same character may have two lower case forms, but they are of one length
      obtain ⟨-, hrest⟩ := List.append_inj h (by rw [length_lowercaseAt, length_lowercaseAt])
      rw [List.map_cons, List.map_cons, ih hrest]
    · rw [lowercaseAt_of_ascii hc, lowercaseAt_of_ascii hd] at h
      obtain ⟨hfirst, hrest⟩ := List.cons.inj h
      rw [List.map_cons, List.map_cons, hfirst, ih hrest]

theorem eq_or_ascii_of_toLower_eq {c d : Char} (h : c.toLower = d.toLower) :
    c = d ∨ c.toNat < 128 ∧ d.toNat < 128 := by
  by_cases hc : c.toNat < 128
  · by_cases hd : d.toNat < 128
    · exact Or.inr ⟨hc, hd⟩
    · rw [toLower_of_not_ascii hd] at h
      exact absurd (h ▸ toLower_ascii hc) hd
  · rw [toLower_of_not_ascii hc] at h
    exact Or.inl ((toLower_eq_iff hc).1 h.symm).symm

/-- The two comparisons of names differ exactly on names that differ outside ASCII. -/
theorem sameIgnoringAsciiCase_iff {s t : String} :
    sameIgnoringAsciiCase s t = true ↔ lowercase s = lowercase t ∧ AgreeOutsideAscii s t := by
  constructor
  · intro h
    refine ⟨lowercase_eq_of_sameIgnoringAsciiCase h, ?_⟩
    have hmap : s.toList.map Char.toLower = t.toList.map Char.toLower := eq_of_beq h
    rw [← List.forall₂_eq_eq_eq, List.forall₂_map_left_iff, List.forall₂_map_right_iff] at hmap
    exact hmap.imp fun _ _ => eq_or_ascii_of_toLower_eq
  · rintro ⟨hlower, hagree⟩
    have hbehind : lowercaseBehind [] s.toList = lowercaseBehind [] t.toList :=
      String.ofList_injective hlower
    exact beq_iff_eq.2 (map_toLower_eq_of_lowercaseBehind_eq hagree hbehind)

end ProgramCheck
