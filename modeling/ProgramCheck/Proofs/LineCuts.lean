import Mathlib.Data.List.Basic
import ProgramCheck.Source.Lines

/-!
# Lines where they stand

A line begins at the beginning of its text or behind a line feed, and ends behind the next line feed
or at the end of the text. `LineCut` says this of a text that is cut into what is in front of a line,
the line, and what is behind it, without a word on how the lines are found. A text has one such cut
for each number from 1 up to the number of its line feeds and one more, and `lines` gives the line of
this cut. The position of a byte offset is read off the cut: the number of the line and the number of
characters in front.
-/

namespace ProgramCheck

/-- A text cut in front of and behind the line of a number. -/
structure LineCut (text : List Char) (number : Nat) (front line back : List Char) : Prop where
  split : text = front ++ line ++ back
  number_eq : number = front.count '\n' + 1
  front_last : ∀ c ∈ front.getLast?, c = '\n'
  feed_last : '\n' ∉ line.dropLast
  line_last : back = [] ∨ line.getLast? = some '\n'

/-! ### Cuts and lines -/

/-- A text behind a line feed, or behind nothing, keeps its lines. -/
theorem exists_lines_append {xs : List Char} (h : ∀ c ∈ xs.getLast?, c = '\n') :
    ∃ ls : List (List Char), ls.flatten = xs ∧ ls.length = xs.count '\n' ∧
      ∀ ys, lines (xs ++ ys) = ls ++ lines ys := by
  induction xs with
  | nil => exact ⟨[], rfl, rfl, fun _ => rfl⟩
  | cons c cs ih =>
    have hcs : ∀ d ∈ cs.getLast?, d = '\n' := by
      intro d hd
      cases cs with
      | nil => simp at hd
      | cons c' cs => exact h d (by simpa using hd)
    obtain ⟨ls, hflatten, hlength, hlines⟩ := ih hcs
    by_cases hc : c = '\n'
    · subst hc
      refine ⟨['\n'] :: ls, by simp [hflatten], by simp [hlength], fun ys => ?_⟩
      simp [lines_feed, hlines]
    · cases ls with
      | nil =>
        -- nothing is behind the character, so it is the last one
        simp only [List.flatten_nil] at hflatten
        subst hflatten
        exact absurd (h c rfl) hc
      | cons line rest =>
        refine ⟨(c :: line) :: rest, by simpa using hflatten, ?_, fun ys => ?_⟩
        · simpa [hc] using hlength
        · exact lines_cons_of_ne hc (hlines ys)

theorem lines_of_not_mem {cs : List Char} (h : '\n' ∉ cs) : lines cs = [cs] := by
  induction cs with
  | nil => rfl
  | cons c cs ih =>
    simp only [List.mem_cons, not_or] at h
    exact lines_cons_of_ne (Ne.symm h.1) (ih h.2)

namespace LineCut

variable {text front line back : List Char} {number : Nat}

/-- A line that does not end in a line feed holds none. -/
theorem feed_not_mem (h : LineCut text number front line back) (hlast : line.getLast? ≠ some '\n') :
    '\n' ∉ line := by
  rcases List.eq_nil_or_concat' line with rfl | ⟨written, c, rfl⟩
  · simp
  · have hwritten := h.feed_last
    rw [List.dropLast_concat] at hwritten
    have hc : c ≠ '\n' := by simpa using hlast
    simp [hwritten, hc.symm]

/-- Without what is in front of it, the line of a cut is the first line. -/
theorem exists_lines_eq_cons (h : LineCut text number front line back) :
    ∃ after, lines (line ++ back) = line :: after := by
  by_cases hlast : line.getLast? = some '\n'
  · have honly : ∀ c ∈ line.getLast?, c = '\n' := by simp [hlast]
    obtain ⟨ls, hflatten, hlength, hrest⟩ := exists_lines_append honly
    have hcount : line.count '\n' = 1 := by
      rw [← List.dropLast_append_getLast? _ hlast, List.count_append,
        List.count_eq_zero.2 h.feed_last]
      rfl
    rw [hcount, List.length_eq_one_iff] at hlength
    obtain ⟨l, rfl⟩ := hlength
    obtain rfl : l = line := by simpa using hflatten
    exact ⟨lines back, hrest back⟩
  · have hback : back = [] := by
      rcases h.line_last with hback | hline
      · exact hback
      · exact absurd hline hlast
    refine ⟨[], ?_⟩
    rw [hback, List.append_nil, lines_of_not_mem (h.feed_not_mem hlast)]

/-- The line of a cut stands among the lines of the text, behind those in front of the cut. -/
theorem lines_eq (h : LineCut text number front line back) :
    ∃ before after, lines text = before ++ line :: after ∧ before.flatten = front ∧
      before.length + 1 = number := by
  obtain ⟨before, hbefore, hlength, hlines⟩ := exists_lines_append h.front_last
  obtain ⟨after, hafter⟩ := h.exists_lines_eq_cons
  refine ⟨before, after, ?_, hbefore, ?_⟩
  · rw [h.split, List.append_assoc, hlines, hafter]
  · rw [hlength, h.number_eq]

theorem getElem?_lines (h : LineCut text number front line back) :
    (lines text)[number - 1]? = some line := by
  obtain ⟨before, after, hlines, -, rfl⟩ := h.lines_eq
  simp [hlines]

theorem lineStart_eq (h : LineCut text number front line back) :
    lineStart (lines text) (number - 1) = byteLength front := by
  obtain ⟨before, after, hlines, rfl, rfl⟩ := h.lines_eq
  simp [hlines, lineStart]

end LineCut

/-- A line has a number more in a text that has one more line in front. -/
theorem LineCut.behind {rest front line back first : List Char} {number : Nat}
    (h : LineCut rest number front line back) (hfirst : '\n' ∉ first) :
    LineCut (first ++ '\n' :: rest) (number + 1) (first ++ '\n' :: front) line back where
  split := by simp [h.split]
  number_eq := by simp [h.number_eq, List.count_eq_zero.2 hfirst]
  front_last := by
    intro c hc
    cases front with
    | nil => simpa [eq_comm] using hc
    | cons d front => exact h.front_last c (by simpa using hc)
  feed_last := h.feed_last
  line_last := h.line_last

/-- A text has a line of every number up to the number of its line feeds and one more. -/
theorem exists_lineCut {text : List Char} {n : Nat} (h : n ≤ text.count '\n') :
    ∃ front line back, LineCut text (n + 1) front line back := by
  induction n generalizing text with
  | zero =>
    by_cases hmem : '\n' ∈ text
    · obtain ⟨first, rest, rfl, hfirst⟩ := List.eq_append_cons_of_mem hmem
      exact ⟨[], first ++ ['\n'], rest, by simp, rfl, by simp, by simpa using hfirst, by simp⟩
    · exact ⟨[], text, [], by simp, rfl, by simp, fun hlast => hmem (List.dropLast_subset _ hlast),
        .inl rfl⟩
  | succ n ih =>
    have hmem : '\n' ∈ text := List.count_pos_iff.1 (by omega)
    obtain ⟨first, rest, rfl, hfirst⟩ := List.eq_append_cons_of_mem hmem
    have hcount : (first ++ '\n' :: rest).count '\n' = rest.count '\n' + 1 := by
      simp [List.count_eq_zero.2 hfirst]
    obtain ⟨front, line, back, hcut⟩ := ih (show n ≤ rest.count '\n' by omega)
    exact ⟨_, line, back, hcut.behind hfirst⟩

/-- A line holds no line feed but at its end. -/
theorem feed_not_mem_dropLast {text line : List Char} {i : Nat} (h : (lines text)[i]? = some line) :
    '\n' ∉ line.dropLast := by
  have hi : i ≤ text.count '\n' := by
    obtain ⟨hlt, -⟩ := List.getElem?_eq_some_iff.1 h
    rw [length_lines] at hlt
    omega
  obtain ⟨front, line', back, hcut⟩ := exists_lineCut hi
  have hline := hcut.getElem?_lines
  rw [Nat.add_sub_cancel, h] at hline
  obtain rfl := Option.some.inj hline
  exact hcut.feed_last

/-! ### Positions -/

theorem lineIndexAt_append (before ls : List (List Char)) (hls : ls ≠ []) (n : Nat) :
    lineIndexAt (before ++ ls) (byteLength before.flatten + n) =
      before.length + lineIndexAt ls n := by
  induction before with
  | nil => simp
  | cons line before ih =>
    have hne : before ++ ls ≠ [] := List.append_ne_nil_of_right_ne_nil before hls
    obtain ⟨next, rest, hrest⟩ := List.exists_cons_of_ne_nil hne
    rw [hrest] at ih
    simp only [List.cons_append, hrest, lineIndexAt, List.flatten_cons, byteLength_append,
      List.length_cons]
    have hoffset : byteLength line + byteLength before.flatten + n - byteLength line =
        byteLength before.flatten + n := by
      omega
    rw [if_neg (by omega), hoffset, ih]
    omega

theorem lineIndexAt_of_lt {line : List Char} {n : Nat} (h : n < byteLength line)
    (rest : List (List Char)) : lineIndexAt (line :: rest) n = 0 := by
  cases rest with
  | nil => rfl
  | cons next rest => simp [lineIndexAt, h]

theorem charsBefore_append (before : List Char) {after : List Char} :
    charsBefore (before ++ after) (byteLength before) = before.length := by
  induction before with
  | nil =>
    cases after with
    | nil => rfl
    | cons c after => simp [charsBefore, Char.utf8Size_pos]
  | cons c before ih => simp [charsBefore, ih]

/-- The position of a character is the number of its line and its place in the line. -/
theorem LineCut.positionAt_eq {text front before after back : List Char} {c : Char} {number : Nat}
    (h : LineCut text number front (before ++ c :: after) back) :
    positionAt text (byteLength (front ++ before)) = ⟨number, before.length + 1⟩ := by
  obtain ⟨ls, rest, hlines, hflatten, hnumber⟩ := h.lines_eq
  have hinside : byteLength before < byteLength (before ++ c :: after) := by
    have hc := c.utf8Size_pos
    simp only [byteLength_append, byteLength_cons]
    omega
  have hindex : lineIndexAt (lines text) (byteLength front + byteLength before) = number - 1 := by
    rw [hlines, ← hflatten, lineIndexAt_append _ _ (by simp), lineIndexAt_of_lt hinside]
    omega
  have hcolumn : charsBefore (before ++ c :: after)
      (byteLength front + byteLength before - byteLength front) = before.length := by
    rw [Nat.add_sub_cancel_left, charsBefore_append]
  rw [byteLength_append]
  simp only [positionAt, hindex, h.getElem?_lines, h.lineStart_eq, Option.getD_some, hcolumn]
  rw [Nat.sub_add_cancel (by omega)]

end ProgramCheck
