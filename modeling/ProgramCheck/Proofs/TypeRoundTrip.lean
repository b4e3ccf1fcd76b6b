import Mathlib.Data.Set.Operations
import ProgramCheck.Proofs.TypeGrammar

/-!
# Types that are written and read again

Writing a type and reading the text gives back the type exactly if its base is a name: not empty, and
made of letters, digits and underscores. Every type that was read has such a base, and these are all
the types that can be read. So a type that was read is kept by writing and reading, and two such types
that are written alike are the same. A type with another base may still be written like a type that
can be read, but then it is read as this other type.
-/

namespace ProgramCheck

namespace TypeRef

/-- Whether the base of a type is a name. -/
def Named (t : TypeRef) : Prop := t.base.toList ≠ [] ∧ ∀ c ∈ t.base.toList, isNameChar c = true

theorem toList_display (t : TypeRef) :
    t.display.toList = t.base.toList ++ List.replicate t.level.val '*' := by
  simp [display]

section Named

variable {t : TypeRef} (h : t.Named)
include h

/-- There is no white space in what is written of a type with a name. -/
theorem Named.not_whiteSpace : ∀ c ∈ t.display.toList, isWhiteSpace c = false := by
  intro c hc
  rw [toList_display] at hc
  rcases List.mem_append.1 hc with hc | hc
  · exact isWhiteSpace_of_nameChar (h.2 c hc)
  · obtain rfl := List.eq_of_mem_replicate hc
    decide

theorem Named.trim_display : trim t.display.toList = t.display.toList := by
  apply trim_eq_self
  · intro c hc
    exact h.not_whiteSpace c (List.mem_of_mem_head? hc)
  · intro c hc
    exact h.not_whiteSpace c (List.mem_of_getLast? hc)

/-- A type with a name is written in the form of a type, without white space. -/
theorem Named.spelled_display : Spelled (trim t.display.toList) t.base.toList t.level.val := by
  refine ⟨[], ?_, h, by simp, fun _ => rfl⟩
  rw [h.trim_display, toList_display, List.append_nil]

end Named

/-- The base of a type that was read is a name. -/
theorem named_of_parse {s : String} {t : TypeRef} (h : parse s = .ok t) : t.Named := by
  obtain ⟨-, -, hname, -⟩ := parse_eq_ok_iff.1 h
  exact hname

theorem parse_display_iff {t : TypeRef} : parse t.display = .ok t ↔ t.Named := by
  constructor
  · intro h
    exact named_of_parse h
  · intro h
    exact parse_eq_ok_iff.2 h.spelled_display

/-- The types that can be read are those whose base is a name. -/
theorem exists_parse_eq_ok_iff {t : TypeRef} : (∃ s, parse s = .ok t) ↔ t.Named := by
  constructor
  · rintro ⟨s, hs⟩
    exact named_of_parse hs
  · intro h
    exact ⟨t.display, parse_display_iff.2 h⟩

/-- Types whose base is a name are told apart by what is written of them. -/
theorem display_injOn : Set.InjOn display {t | t.Named} := by
  intro t ht t' ht' heq
  have h := parse_display_iff.2 ht
  rw [heq, parse_display_iff.2 ht'] at h
  exact (Except.ok.inj h).symm

/-- **Reading undoes writing where the base of the type is a name**, and nowhere else. A type that was
read is kept by writing and reading, and it is told apart from every other one that can be read by
what is written of it. -/
theorem parse_display :
    (∀ t : TypeRef, parse t.display = .ok t ↔
      t.base.toList ≠ [] ∧ ∀ c ∈ t.base.toList, isAlphanumeric c = true ∨ c = '_') ∧
    (∀ (s : String) (t : TypeRef), parse s = .ok t → parse t.display = .ok t) ∧
    Set.InjOn display {t | ∃ s, parse s = .ok t} := by
  refine ⟨fun t => ?_, fun s t h => ?_, ?_⟩
  · rw [parse_display_iff, Named]
    simp [isNameChar]
  · exact parse_display_iff.2 (named_of_parse h)
  · simp only [exists_parse_eq_ok_iff]
    exact display_injOn

/-- White space in front of the stars is read and not written again. The type with a star in its base
is written like a type that can be read, and is not this type. -/
theorem parse_display_starred :
    parse " é_1 \t***" = .ok ⟨"é_1", 3⟩ ∧ parse (display ⟨"é_1", 3⟩) = .ok ⟨"é_1", 3⟩ ∧
      parse (display ⟨"é_1*", 2⟩) ≠ .ok ⟨"é_1*", 2⟩ := by
  have h : parse " é_1 \t***" = .ok ⟨"é_1", 3⟩ := by decide +kernel
  refine ⟨h, parse_display.2.1 _ _ h, fun hstar => ?_⟩
  have hname := ((parse_display.1 _).1 hstar).2 '*' (by simp)
  exact absurd hname (by decide +kernel)

/-- The star of a base is read as an indirection. -/
example : parse (display ⟨"char*", 1⟩) = .ok ⟨"char", 2⟩ := by decide +kernel

end TypeRef

end ProgramCheck
