import ProgramCheck.Proofs.Labels

/-!
# Labels in the order of their positions

Of two positions the earlier one is not shown behind the later one: the characters of a line stand in
their order, in front of the end of the line, and the lines stand in theirs, in front of the end of
the text. Line 0 and column 0 are read as the first ones before the positions are compared. A carriage
return inside a line is apart from this order, as its label is the end of the line.
-/

namespace ProgramCheck

theorem Position.isLE_compare_iff {p q : Position} :
    (compare p q).isLE = true ↔ p.line < q.line ∨ p.line = q.line ∧ p.column ≤ q.column := by
  have hcompare : compare p q = (compare p.line q.line).then (compare p.column q.column) := rfl
  rw [hcompare, Ordering.isLE_then_iff_or, Nat.compare_eq_lt, Nat.compare_eq_eq, Nat.isLE_compare]

/-- The character at a position of a text. -/
def charAt? (text : List Char) (p : Position) : Option Char :=
  (lines text)[p.line - 1]?.bind fun row => row[p.column - 1]?

/-! ### Bytes in front -/

theorem byteLength_mono {xs ys : List Char} (h : xs <+: ys) :
    byteLength xs ≤ byteLength ys := by
  obtain ⟨zs, rfl⟩ := h
  simp

section Starts

variable {ls : List (List Char)} {line : List Char} {i j : Nat}

theorem lineStart_mono (h : i ≤ j) : lineStart ls i ≤ lineStart ls j := by
  obtain ⟨k, rfl⟩ := Nat.exists_eq_add_of_le h
  rw [lineStart, lineStart, List.take_add, List.flatten_append, byteLength_append]
  omega

/-- A line ends where the next one starts. -/
theorem lineStart_succ (h : ls[i]? = some line) :
    lineStart ls (i + 1) = lineStart ls i + byteLength line := by
  rw [lineStart, lineStart, List.take_add_one, h]
  simp

theorem lineStart_le_byteLength (text : List Char) (i : Nat) :
    lineStart (lines text) i ≤ byteLength text := by
  have hjoined := congrArg List.flatten (List.take_append_drop i (lines text))
  rw [List.flatten_append, flatten_lines] at hjoined
  rw [lineStart]
  exact byteLength_mono ⟨_, hjoined⟩

end Starts

/-! ### Columns -/

section Columns

variable {row : List Char}

/-- A character that does not end lines stands in front of those that end the line. -/
theorem take_prefix_dropEndWhile {i : Nat} {c : Char} (h : row[i]? = some c)
    (hc : isLineEnd c = false) : row.take i <+: dropEndWhile isLineEnd row := by
  have hsplit := dropEndWhile_append_takeWhile isLineEnd row
  have hi : i ≤ (dropEndWhile isLineEnd row).length := by
    by_contra hlt
    rw [← hsplit, List.getElem?_append_right (by omega)] at h
    have hmem := List.mem_reverse.1 (List.mem_of_getElem? h)
    rw [List.mem_takeWhile_imp hmem] at hc
    cases hc
  rw [← hsplit, List.take_append_of_le_length hi, hsplit]
  exact List.take_prefix _ _

/-- A label in a line stands in the line. -/
theorem columnRange_start_bounds (start : Nat) (row : List Char) (column : Nat) :
    start ≤ (columnRange start row column).start ∧
      (columnRange start row column).start ≤ start + byteLength row := by
  rcases lineEnd_or_character row (column - 1) with hends | ⟨c, hc, hnot⟩
  · have hfront : dropEndWhile isLineEnd row <+: row :=
      ⟨_, dropEndWhile_append_takeWhile isLineEnd row⟩
    have hle := byteLength_mono hfront
    rw [columnRange_of_lineEnd start hends]
    simp only
    omega
  · have hfront : row.take (column - 1) <+: row := List.take_prefix _ _
    have hle := byteLength_mono hfront
    rw [columnRange_of_character start hc hnot]
    simp only
    omega

/-- In front of a character that does not end lines, a line holds no end of lines but returns. -/
theorem eq_return_of_isLineEnd {i j : Nat} {c d : Char} (hfeed : '\n' ∉ row.dropLast)
    (hij : i ≤ j) (hc : row[i]? = some c) (hd : row[j]? = some d) (hcend : isLineEnd c = true)
    (hdend : isLineEnd d = false) : c = '\r' := by
  have hcases : c = '\n' ∨ c = '\r' := by simpa [isLineEnd] using hcend
  rcases hcases with rfl | rfl
  · exfalso
    by_cases heq : i = j
    · subst heq
      rw [hc] at hd
      obtain rfl := Option.some.inj hd
      exact absurd hcend (by simp [hdend])
    · obtain ⟨hlt, -⟩ := List.getElem?_eq_some_iff.1 hd
      have hlast : row.dropLast[i]? = some '\n' := by
        rw [List.getElem?_dropLast, if_pos (by omega), hc]
      exact hfeed (List.mem_of_getElem? hlast)
  · rfl

/-- Labels in a line stand in the order of their columns, unless the first one is at a return and the
other one at a character that does not end lines. -/
theorem columnRange_start_mono (start : Nat) {a b : Nat} (hab : a - 1 ≤ b - 1)
    (hfeed : '\n' ∉ row.dropLast)
    (hreturn : row[a - 1]? = some '\r' → ∀ c ∈ row[b - 1]?, isLineEnd c = true) :
    (columnRange start row a).start ≤ (columnRange start row b).start := by
  rcases lineEnd_or_character row (b - 1) with hb | ⟨d, hd, hnot⟩
  · rw [columnRange_of_lineEnd start hb]
    rcases lineEnd_or_character row (a - 1) with ha | ⟨c, hc, hnot⟩
    · rw [columnRange_of_lineEnd start ha]
    · rw [columnRange_of_character start hc hnot]
      exact Nat.add_le_add_left (byteLength_mono (take_prefix_dropEndWhile hc hnot)) _
  · obtain ⟨hlt, -⟩ := List.getElem?_eq_some_iff.1 hd
    have hc : row[a - 1]? = some row[a - 1] := List.getElem?_eq_getElem (by omega)
    have hcend : isLineEnd row[a - 1] = false := by
      by_contra hend
      have hcr := eq_return_of_isLineEnd hfeed hab hc hd (by simpa using hend) hnot
      rw [hreturn (hcr ▸ hc) d hd] at hnot
      cases hnot
    rw [columnRange_of_character start hd hnot, columnRange_of_character start hc hcend]
    exact Nat.add_le_add_left (byteLength_mono (List.take_prefix_take_left hab)) _

end Columns

/-! ### Labels -/

section Labels

variable {text : List Char} {p q : Position}

/-- A label in a line does not start behind the next line. -/
theorem labelRange_start_le_lineStart {line : List Char}
    (h : (lines text)[p.line - 1]? = some line) :
    (labelRange text p).start ≤ lineStart (lines text) (p.line - 1 + 1) := by
  rw [labelRange_of_some h, lineStart_succ h]
  exact (columnRange_start_bounds _ line p.column).2

theorem labelRange_start_le_byteLength (text : List Char) (p : Position) :
    (labelRange text p).start ≤ byteLength text := by
  cases hline : (lines text)[p.line - 1]? with
  | none => rw [labelRange_of_none hline]
  | some line => exact (labelRange_start_le_lineStart hline).trans (lineStart_le_byteLength text _)

/-- Whether one position is at a carriage return and the other one in the same line at a character
that does not end lines. -/
def ReturnBeside (text : List Char) (p q : Position) : Prop :=
  p.line = q.line ∧ charAt? text p = some '\r' ∧ ∃ c ∈ charAt? text q, isLineEnd c = false

theorem labelRange_start_mono (horder : (compare p.counted q.counted).isLE = true)
    (hreturn : ¬ ReturnBeside text p.counted q.counted) :
    (labelRange text p).start ≤ (labelRange text q).start := by
  rw [Position.isLE_compare_iff] at horder
  cases hq : (lines text)[q.line - 1]? with
  | none =>
    rw [labelRange_of_none hq]
    exact labelRange_start_le_byteLength text p
  | some line =>
    obtain ⟨hqlt, -⟩ := List.getElem?_eq_some_iff.1 hq
    rcases horder with hlt | ⟨heq, hle⟩
    · -- the line of the first position ends where the other line starts, or before
      have hindex : p.line - 1 < q.line - 1 := by
        simp only [Position.counted] at hlt
        omega
      have hp : (lines text)[p.line - 1]? = some (lines text)[p.line - 1] :=
        List.getElem?_eq_getElem (by omega)
      calc (labelRange text p).start ≤ lineStart (lines text) (p.line - 1 + 1) :=
            labelRange_start_le_lineStart hp
        _ ≤ lineStart (lines text) (q.line - 1) := lineStart_mono hindex
        _ ≤ (labelRange text q).start := by
            rw [labelRange_of_some hq]
            exact (columnRange_start_bounds _ line q.column).1
    · have hindex : p.line - 1 = q.line - 1 := by
        rw [← p.counted_line_sub_one, heq, q.counted_line_sub_one]
      have hp : (lines text)[p.line - 1]? = some line := by rw [hindex, hq]
      rw [labelRange_of_some hp, labelRange_of_some hq, hindex]
      refine columnRange_start_mono _ ?_ (feed_not_mem_dropLast hq) fun hcr c hc => ?_
      · simp only [Position.counted] at hle
        omega
      · by_contra hend
        refine hreturn ⟨heq, ?_, c, ?_, by simpa using hend⟩
        · simpa [charAt?, hp] using hcr
        · simpa [charAt?, hq] using hc

end Labels

namespace SourceFiles

variable {fs : SourceFiles} {number : Nat} {file : SourceFile}

/-- **Clamping keeps the order of positions.** Of two positions in order, with line 0 and column 0 read
as the first ones, the first has a label that does not start behind the other one, unless it is at a
return and the other one at a character of the same line. -/
theorem label_start_le (hfile : fs.file number = .ok file) {p q : Position}
    (horder : (compare p.counted q.counted).isLE = true)
    (hreturn : ¬ ReturnBeside file.source.toList p.counted q.counted) :
    ∃ r s, fs.label number p = .ok r ∧ fs.label number q = .ok s ∧ r.start ≤ s.start := by
  refine ⟨labelRange file.source.toList p, labelRange file.source.toList q, ?_, ?_, ?_⟩
  · simp only [label, hfile]
  · simp only [label, hfile]
  · exact labelRange_start_mono horder hreturn

/-- The position in line 0 is read as one in line 1; the other one is at the return at the beginning
of the last line and is shown at its end. -/
theorem label_start_le_returnFile :
    (SourceFiles.mk [returnFile]).file 0 = .ok returnFile ∧
      (compare (Position.counted ⟨0, 3⟩) (Position.counted ⟨2, 1⟩)).isLE = true ∧
      ¬ ReturnBeside returnFile.source.toList (Position.counted ⟨0, 3⟩) (Position.counted ⟨2, 1⟩) ∧
      ∃ r s, (SourceFiles.mk [returnFile]).label 0 ⟨0, 3⟩ = .ok r ∧
        (SourceFiles.mk [returnFile]).label 0 ⟨2, 1⟩ = .ok s ∧ r.start ≤ s.start := by
  have hfile : (SourceFiles.mk [returnFile]).file 0 = .ok returnFile := rfl
  have horder : (compare (Position.counted ⟨0, 3⟩) (Position.counted ⟨2, 1⟩)).isLE = true := by
    decide
  have hreturn :
      ¬ ReturnBeside returnFile.source.toList (Position.counted ⟨0, 3⟩) (Position.counted ⟨2, 1⟩) := by
    rintro ⟨hline, -⟩
    exact absurd hline (by decide)
  exact ⟨hfile, horder, hreturn, label_start_le hfile horder hreturn⟩

/-- Compared with line 0 in front of line 1, positions are shown out of order; and so is a position at
a carriage return, which is shown at the end of its line, in front of a position behind it. -/
theorem label_start_out_of_order :
    ((compare (⟨0, 2⟩ : Position) ⟨1, 1⟩).isLE = true ∧
      (SourceFiles.mk [returnFile]).label 0 ⟨0, 2⟩ = .ok ⟨1, 3⟩ ∧
      (SourceFiles.mk [returnFile]).label 0 ⟨1, 1⟩ = .ok ⟨0, 1⟩) ∧
    ((compare (⟨2, 1⟩ : Position) ⟨2, 2⟩).isLE = true ∧
      (SourceFiles.mk [returnFile]).label 0 ⟨2, 1⟩ = .ok ⟨8, 8⟩ ∧
      (SourceFiles.mk [returnFile]).label 0 ⟨2, 2⟩ = .ok ⟨6, 8⟩) := by
  decide +kernel

end SourceFiles

end ProgramCheck
