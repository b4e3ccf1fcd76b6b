import Mathlib.Data.List.Basic
import ProgramCheck.Diagnostic

/-!
# Diagnostics are told apart by their text

The text of a diagnostic is put together from its line, its column, its severity and its message, with
a colon behind each of the first three. These three contain no colon themselves, so each of them ends
at the first colon that is left, whatever the message looks like. The message is all that stands
behind the third colon and the space that follows it.
-/

namespace ProgramCheck

/-- A list is cut in one way only at the first place where some entry stands. -/
theorem append_cons_inj_of_first {α : Type} {a : α} {xs xs' ys ys' : List α} (h : a ∉ xs)
    (h' : a ∉ xs') : xs ++ a :: ys = xs' ++ a :: ys' ↔ xs = xs' ∧ ys = ys' := by
  induction xs generalizing xs' with
  | nil =>
    cases xs' with
    | nil => simp
    | cons x xs' =>
      have hne : a ≠ x := fun heq => h' (heq ▸ List.mem_cons_self)
      simp [hne]
  | cons x xs ih =>
    have hne : x ≠ a := fun heq => h (heq ▸ List.mem_cons_self)
    cases xs' with
    | nil => simp [hne]
    | cons x' xs' =>
      have htail := ih (fun hmem => h (List.mem_cons_of_mem _ hmem))
        (fun hmem => h' (List.mem_cons_of_mem _ hmem))
      simp only [List.cons_append, List.cons.injEq, htail, and_assoc]

/-! ### Fields without colons -/

theorem toList_toString (n : Nat) : (toString n).toList = Nat.toDigits 10 n := by
  rw [Nat.toString_eq_repr, Nat.toList_repr]

theorem colon_not_mem_toString (n : Nat) : ':' ∉ (toString n).toList := by
  intro h
  rw [toList_toString] at h
  have hdigit : (':').isDigit = true := Nat.isDigit_of_mem_toDigits (by decide) (by decide) h
  exact absurd hdigit (by decide)

/-- A number is told by its decimal digits. -/
theorem toList_toString_inj {m n : Nat} : (toString m).toList = (toString n).toList ↔ m = n := by
  constructor
  · intro h
    rw [toList_toString, toList_toString] at h
    calc
      m = Nat.ofDigitChars 10 (Nat.toDigits 10 m) 0 := Nat.ofDigitChars_ten_toDigits.symm
      _ = Nat.ofDigitChars 10 (Nat.toDigits 10 n) 0 := by rw [h]
      _ = n := Nat.ofDigitChars_ten_toDigits
  · rintro rfl
    rfl

theorem Severity.colon_not_mem_display (s : Severity) : ':' ∉ s.display.toList := by
  cases s <;> decide

theorem Severity.toList_display_inj {s s' : Severity} :
    s.display.toList = s'.display.toList ↔ s = s' := by
  cases s <;> cases s' <;> decide

/-! ### The fields of a text -/

/-- The line of a position ends at the first colon, and its column at the second one. -/
theorem Position.display_append_inj {p p' : Position} {rest rest' : List Char} :
    p.display.toList ++ ':' :: rest = p'.display.toList ++ ':' :: rest' ↔
      p = p' ∧ rest = rest' := by
  have hfields : ∀ (q : Position) (r : List Char), q.display.toList ++ ':' :: r =
      (toString q.line).toList ++ ':' :: ((toString q.column).toList ++ ':' :: r) := by
    intro q r
    simp [display]
  obtain ⟨line, column⟩ := p
  obtain ⟨line', column'⟩ := p'
  rw [hfields, hfields,
    append_cons_inj_of_first (colon_not_mem_toString _) (colon_not_mem_toString _),
    append_cons_inj_of_first (colon_not_mem_toString _) (colon_not_mem_toString _),
    toList_toString_inj, toList_toString_inj, mk.injEq, and_assoc]

namespace Diagnostic

theorem toList_display (d : Diagnostic) :
    d.display.toList = d.position.display.toList ++
      ':' :: ' ' :: (d.severity.display.toList ++ ':' :: ' ' :: d.message.toList) := by
  simp [display]

/-- **Diagnostics with the same text are the same**, whatever their messages are: the position, the
severity and the message can each be read off the text. -/
theorem display_inj (d d' : Diagnostic) : d.display = d'.display ↔ d = d' := by
  obtain ⟨severity, position, message⟩ := d
  obtain ⟨severity', position', message'⟩ := d'
  rw [← String.toList_inj, toList_display, toList_display, Position.display_append_inj,
    List.cons.injEq, append_cons_inj_of_first (Severity.colon_not_mem_display _)
      (Severity.colon_not_mem_display _), Severity.toList_display_inj, List.cons.injEq,
    String.toList_inj, mk.injEq]
  constructor
  · rintro ⟨hposition, -, hseverity, -, hmessage⟩
    exact ⟨hseverity, hposition, hmessage⟩
  · rintro ⟨hseverity, hposition, hmessage⟩
    exact ⟨hposition, rfl, hseverity, rfl, hmessage⟩

/-- The text of a diagnostic may itself be the message of another one. -/
example : display ⟨.error, ⟨3, 7⟩, display ⟨.warning, ⟨1, 0⟩, ""⟩⟩ = "3:7: error: 1:0: warning: " := by
  decide

end Diagnostic

end ProgramCheck
