import ProgramCheck.Text.Case

/-!
# Declaration modifiers

A function or a struct may be exported, which makes it visible to other modules, and external,
which says that its body is provided elsewhere. A set of modifiers is also a number whose bit 0
stands for `export` and whose bit 1 stands for `extern`.
-/

namespace ProgramCheck

/-- The modifiers of a declaration. -/
structure Modifiers where
  exported : Bool := false
  external : Bool := false
  deriving DecidableEq, Inhabited

namespace Modifiers

/-- Both modifiers. -/
def all : Modifiers := ⟨true, true⟩

/-- The number of a set of modifiers. -/
def bits (m : Modifiers) : Nat := (if m.exported then 1 else 0) + (if m.external then 2 else 0)

/-- The set of the known modifiers in a number. -/
def ofBitsTruncate (n : Nat) : Modifiers := ⟨n.testBit 0, n.testBit 1⟩

/-- The set whose number is `n`, if `n` has no bits beyond the known ones. -/
def ofBits? (n : Nat) : Option Modifiers :=
  if (ofBitsTruncate n).bits = n then some (ofBitsTruncate n) else none

/-- The modifier that a keyword stands for, whatever the case of its letters. -/
def ofKeyword? (keyword : String) : Option Modifiers :=
  if sameIgnoringAsciiCase keyword "export" then some ⟨true, false⟩
  else if sameIgnoringAsciiCase keyword "extern" then some ⟨false, true⟩
  else none

/-! ### Sets of modifiers -/

/-- Combines two sets flag by flag. -/
def combine (f : Bool → Bool → Bool) (m n : Modifiers) : Modifiers :=
  ⟨f m.exported n.exported, f m.external n.external⟩

instance : Union Modifiers := ⟨combine or⟩

instance : Inter Modifiers := ⟨combine and⟩

instance : SDiff Modifiers := ⟨combine fun a b => a && !b⟩

/-- The modifiers in exactly one of two sets. -/
def symmetricDifference (m n : Modifiers) : Modifiers := combine xor m n

/-- The modifiers that a set lacks. -/
def complement (m : Modifiers) : Modifiers := all \ m

/-- Whether the first set holds every modifier of the second. -/
def contains (m n : Modifiers) : Bool := m ∩ n == n

/-- Whether two sets have a modifier in common. -/
def intersects (m n : Modifiers) : Bool := m ∩ n != {}

/-- Whether the set holds no modifier. -/
def isEmpty (m : Modifiers) : Bool := m == {}

/-- Whether the set holds every modifier. -/
def isAll (m : Modifiers) : Bool := m == all

/-- The union of a list of sets. -/
def unionAll (ms : List Modifiers) : Modifiers := ms.foldl (· ∪ ·) {}

/-- The names of the modifiers in the set, by increasing bit. -/
def names (m : Modifiers) : List String :=
  (if m.exported then ["EXPORT"] else []) ++ (if m.external then ["EXTERN"] else [])

@[simp] theorem ofBitsTruncate_bits (m : Modifiers) : ofBitsTruncate m.bits = m := by
  cases m with
  | mk exported external => cases exported <;> cases external <;> rfl

end Modifiers

end ProgramCheck
