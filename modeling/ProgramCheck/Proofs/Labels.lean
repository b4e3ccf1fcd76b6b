import Mathlib.Data.List.TakeWhile
import ProgramCheck.Proofs.LineCuts
import ProgramCheck.Source.Snippet

/-!
# What a label points at

The label of a position in a registered file is the character at the position. Where the line of the
position has no such character, or one that ends lines, the label is empty and stands at the end of
the line, in front of the carriage returns and line feeds at its end; where the text has no such line,
it is empty and stands at the end of the text. In each case it lies within the text and between whole
characters, and the position that is read off the label of a character is the given one.
-/

namespace ProgramCheck

/-- The position with the first line in place of line 0 and the first column in place of column 0. -/
def Position.counted (p : Position) : Position := ⟨max p.line 1, max p.column 1⟩

@[simp] theorem Position.counted_line_sub_one (p : Position) : p.counted.line - 1 = p.line - 1 := by
  simp only [Position.counted]
  omega

@[simp] theorem Position.counted_column_sub_one (p : Position) :
    p.counted.column - 1 = p.column - 1 := by
  simp only [Position.counted]
  omega

/-- What the label of a position in a text is. -/
inductive PointsAt (text : List Char) (p : Position) : ByteRange → Prop
  /-- The character at the position. -/
  | character {front before after back : List Char} {c : Char}
    (cut : LineCut text p.line front (before ++ c :: after) back)
    (column_eq : before.length + 1 = p.column) (not_end : isLineEnd c = false) :
    PointsAt text p ⟨byteLength (front ++ before), byteLength (front ++ before ++ [c])⟩
  /-- The end of what is written in the line, where there is no character at the position but one
  that ends lines. -/
  | lineEnd {front written ending back : List Char}
    (cut : LineCut text p.line front (written ++ ending) back)
    (no_character : ∀ c ∈ (written ++ ending)[p.column - 1]?, isLineEnd c = true)
    (all_ends : ∀ c ∈ ending, isLineEnd c = true)
    (not_end : ∀ c ∈ written.getLast?, isLineEnd c = false) :
    PointsAt text p ⟨byteLength (front ++ written), byteLength (front ++ written)⟩
  /-- The end of the text, where there is no line of this number. -/
  | textEnd (no_line : text.count '\n' + 1 < p.line) :
    PointsAt text p ⟨byteLength text, byteLength text⟩

/-! ### Columns -/

section Columns

variable {row : List Char} {column : Nat}

/-- A place in a line is one of a character that does not end lines, or it is not. -/
theorem lineEnd_or_character (row : List Char) (i : Nat) :
    (∀ c ∈ row[i]?, isLineEnd c = true) ∨ ∃ c, row[i]? = some c ∧ isLineEnd c = false := by
  by_cases h : ∀ c ∈ row[i]?, isLineEnd c = true
  · exact .inl h
  · push Not at h
    obtain ⟨c, hc, hnot⟩ := h
    exact .inr ⟨c, hc, by simpa using hnot⟩

theorem columnRange_of_character (start : Nat) {c : Char} (h : row[column - 1]? = some c)
    (hc : isLineEnd c = false) :
    columnRange start row column =
      ⟨start + byteLength (row.take (column - 1)),
        start + byteLength (row.take (column - 1)) + c.utf8Size⟩ := by
  rw [← List.head?_drop] at h
  unfold columnRange
  cases hdrop : row.drop (column - 1) with
  | nil => simp [hdrop] at h
  | cons d rest =>
    obtain rfl : d = c := by simpa [hdrop] using h
    simp [hc]

theorem columnRange_of_lineEnd (start : Nat) (h : ∀ c ∈ row[column - 1]?, isLineEnd c = true) :
    columnRange start row column =
      ⟨start + byteLength (dropEndWhile isLineEnd row),
        start + byteLength (dropEndWhile isLineEnd row)⟩ := by
  rw [← List.head?_drop] at h
  unfold columnRange
  cases hdrop : row.drop (column - 1) with
  | nil => rfl
  | cons c rest => simp [h c (by simp [hdrop])]

end Columns

/-! ### Labels -/

section Labels

variable {text front line back : List Char} {p : Position}

theorem labelRange_of_cut (h : LineCut text p.counted.line front line back) :
    labelRange text p = columnRange (byteLength front) line p.column := by
  have hline := h.getElem?_lines
  have hstart := h.lineStart_eq
  rw [Position.counted_line_sub_one] at hline hstart
  rw [labelRange_of_some hline, hstart]

theorem labelRange_of_no_line (h : text.count '\n' + 1 < p.counted.line) :
    labelRange text p = ⟨byteLength text, byteLength text⟩ := by
  have hnone : (lines text)[p.line - 1]? = none := by
    rw [List.getElem?_eq_none_iff, length_lines]
    simp only [Position.counted] at h
    omega
  exact labelRange_of_none hnone

theorem PointsAt.labelRange_eq {r : ByteRange} (h : PointsAt text p.counted r) :
    labelRange text p = r := by
  cases h with
  | @character front before after back c cut column_eq not_end =>
    have hcolumn : p.column - 1 = before.length := by
      simp only [Position.counted] at column_eq
      omega
    have hc : (before ++ c :: after)[p.column - 1]? = some c := by simp [hcolumn]
    rw [labelRange_of_cut cut, columnRange_of_character _ hc not_end, hcolumn, List.take_left]
    simp [Nat.add_assoc]
  | @lineEnd front written ending back cut no_character all_ends not_end =>
    rw [Position.counted_column_sub_one] at no_character
    rw [labelRange_of_cut cut, columnRange_of_lineEnd _ no_character,
      dropEndWhile_append all_ends not_end, byteLength_append]
  | textEnd no_line => exact labelRange_of_no_line no_line

/-- There is something to point at, whatever the position. -/
theorem exists_pointsAt (text : List Char) (p : Position) : ∃ r, PointsAt text p.counted r := by
  by_cases hline : p.counted.line ≤ text.count '\n' + 1
  · have hnumber : p.counted.line - 1 + 1 = p.counted.line := by
      simp only [Position.counted]
      omega
    have hfeeds : p.counted.line - 1 ≤ text.count '\n' := by omega
    obtain ⟨front, row, back, hcut⟩ := exists_lineCut hfeeds
    rw [hnumber] at hcut
    rcases lineEnd_or_character row (p.counted.column - 1) with hends | ⟨c, hc, hnot⟩
    · have hwritten := dropEndWhile_append_takeWhile isLineEnd row
      rw [← hwritten] at hcut hends
      refine ⟨_, .lineEnd hcut hends (fun c hc => ?_) (getLast?_dropEndWhile isLineEnd row)⟩
      exact List.mem_takeWhile_imp (List.mem_reverse.1 hc)
    · obtain ⟨hlt, rfl⟩ := List.getElem?_eq_some_iff.1 hc
      have hsplit := List.take_append_drop (p.counted.column - 1) row
      rw [List.drop_eq_getElem_cons hlt] at hsplit
      rw [← hsplit] at hcut
      refine ⟨_, .character hcut ?_ hnot⟩
      simp only [List.length_take, Position.counted] at hlt ⊢
      omega
  · exact ⟨_, .textEnd (by omega)⟩

/-- A label cuts the text in front of and behind what it points at. -/
theorem PointsAt.exists_split {r : ByteRange} (h : PointsAt text p r) :
    ∃ front inside back, text = front ++ inside ++ back ∧
      r = ⟨byteLength front, byteLength (front ++ inside)⟩ := by
  cases h with
  | @character front before after back c cut column_eq not_end =>
    refine ⟨front ++ before, [c], after ++ back, ?_, rfl⟩
    rw [cut.split]
    simp
  | @lineEnd front written ending back cut no_character all_ends not_end =>
    refine ⟨front ++ written, [], ending ++ back, ?_, by simp⟩
    rw [cut.split]
    simp
  | textEnd no_line => exact ⟨text, [], [], by simp, by simp⟩

/-- The position that is read off the label of a character is the position of the character. -/
theorem PointsAt.positionAt_eq {r : ByteRange} (h : PointsAt text p r) (hlt : r.start < r.stop) :
    positionAt text r.start = p := by
  cases h with
  | @character front before after back c cut column_eq not_end =>
    rw [cut.positionAt_eq, column_eq]
  | lineEnd => exact absurd hlt (Nat.lt_irrefl _)
  | textEnd => exact absurd hlt (Nat.lt_irrefl _)

end Labels

/-! ### Bytes of a text -/

theorem byteLength_toList (s : String) : byteLength s.toList = s.utf8ByteSize := by
  have hlist : ∀ cs : List Char, byteLength cs = (String.ofList cs).utf8ByteSize := by
    intro cs
    induction cs with
    | nil => simp
    | cons c cs ih =>
      rw [byteLength_cons, ih, String.ofList_cons, String.utf8ByteSize_append,
        String.utf8ByteSize_singleton]
  rw [hlist, String.ofList_toList]

/-- What stands in front of a cut of a text ends between two characters. -/
theorem isValid_of_split {s : String} {front back : List Char} (h : s.toList = front ++ back) :
    (String.Pos.Raw.mk (byteLength front)).IsValid s := by
  refine String.Pos.Raw.isValid_iff_exists_append.2
    ⟨String.ofList front, String.ofList back, ?_, ?_⟩
  · rw [← String.ofList_append, ← h, String.ofList_toList]
  · have hfront := byteLength_toList (String.ofList front)
    rw [String.toList_ofList] at hfront
    rw [hfront]
    rfl

namespace SourceFiles

variable {fs : SourceFiles} {number : Nat} {file : SourceFile}

/-- The label of a position in a registered file is what the position points at. -/
theorem label_eq_ok_iff (hfile : fs.file number = .ok file) {p : Position} {r : ByteRange} :
    fs.label number p = .ok r ↔ PointsAt file.source.toList p.counted r := by
  have hlabel : fs.label number p = .ok (labelRange file.source.toList p) := by
    simp only [label, hfile]
  rw [hlabel]
  constructor
  · intro h
    obtain ⟨r', hr'⟩ := exists_pointsAt file.source.toList p
    rw [hr'.labelRange_eq] at h
    obtain rfl := Except.ok.inj h
    exact hr'
  · intro h
    rw [h.labelRange_eq]

/-- **The label of a position is the character at the position**, or the end of its line, or the end
of the text. -/
theorem label_pointsAt (hfile : fs.file number = .ok file) (p : Position) :
    (∀ r, fs.label number p = .ok r ↔ PointsAt file.source.toList p.counted r) ∧
    ∃ r, fs.label number p = .ok r ∧
      r.start ≤ r.stop ∧ r.stop ≤ file.source.utf8ByteSize ∧
      (String.Pos.Raw.mk r.start).IsValid file.source ∧
      (String.Pos.Raw.mk r.stop).IsValid file.source ∧
      (r.start < r.stop → positionAt file.source.toList r.start = p.counted) := by
  refine ⟨fun r => label_eq_ok_iff hfile, ?_⟩
  obtain ⟨r, hr⟩ := exists_pointsAt file.source.toList p
  obtain ⟨front, inside, back, hsplit, rfl⟩ := hr.exists_split
  have hbytes := byteLength_toList file.source
  rw [hsplit] at hbytes
  simp only [byteLength_append] at hbytes
  refine ⟨_, (label_eq_ok_iff hfile).2 hr, ?_, ?_, ?_, ?_, hr.positionAt_eq⟩
  · simp
  · simp only [byteLength_append]
    omega
  · exact isValid_of_split (hsplit.trans (List.append_assoc _ _ _))
  · exact isValid_of_split hsplit

/-- A text with a carriage return in front of a line feed and one at the beginning of a line. -/
def returnFile : SourceFile := ⟨"main.tw", "aé\r\n\rβ"⟩

/-- The second character takes two bytes; the position of the return at the beginning of the second
line is shown at the end of this line, and a position behind all lines at the end of the text. -/
theorem label_pointsAt_returnFile :
    (SourceFiles.mk [returnFile]).file 0 = .ok returnFile ∧
      PointsAt returnFile.source.toList ⟨1, 2⟩ ⟨1, 3⟩ ∧
      positionAt returnFile.source.toList 1 = ⟨1, 2⟩ ∧
      PointsAt returnFile.source.toList ⟨2, 1⟩ ⟨8, 8⟩ ∧
      PointsAt returnFile.source.toList ⟨3, 1⟩ ⟨8, 8⟩ := by
  have hfile : (SourceFiles.mk [returnFile]).file 0 = .ok returnFile := rfl
  obtain ⟨hcharacter, r, hr, -, -, -, -, hposition⟩ := label_pointsAt hfile ⟨1, 2⟩
  obtain ⟨hend, -⟩ := label_pointsAt hfile ⟨2, 0⟩
  obtain ⟨htext, -⟩ := label_pointsAt hfile ⟨3, 1⟩
  have hlabel : (SourceFiles.mk [returnFile]).label 0 ⟨1, 2⟩ = .ok ⟨1, 3⟩ := by decide +kernel
  rw [hlabel] at hr
  obtain rfl := Except.ok.inj hr
  refine ⟨hfile, (hcharacter _).1 hlabel, hposition (by decide), (hend _).1 ?_, (htext _).1 ?_⟩
  · decide +kernel
  · decide +kernel

end SourceFiles

end ProgramCheck
