/-!
# Character classes

A class of characters is given by the inclusive intervals of its code points. The modules beside
this one give the classes that names, blanks, letter case and column widths depend on.
-/

namespace ProgramCheck

/-- A set of characters, as the inclusive intervals of their code points in increasing order. -/
structure CharClass where
  intervals : List (Nat × Nat)

namespace CharClass

/-- Whether a character lies in one of the intervals of the class. -/
def has (k : CharClass) (c : Char) : Bool :=
  k.intervals.any fun r => decide (r.1 ≤ c.toNat) && decide (c.toNat ≤ r.2)

theorem has_iff {k : CharClass} {c : Char} :
    k.has c = true ↔ ∃ r ∈ k.intervals, r.1 ≤ c.toNat ∧ c.toNat ≤ r.2 := by
  simp [has]

end CharClass

end ProgramCheck
